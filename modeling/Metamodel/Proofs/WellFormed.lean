import Metamodel.Proofs.Lookup

/-!
# Metamodel.Proofs.WellFormed -- models, objects, registries and templates fit together

A repository keeps four tables that refer to each other: models, objects, the registry of every
datatype, and the canonical template of every datatype. `WellFormed` says how they fit. Each change
of a repository is shown to keep it, under what the operations check before they make the change.
-/

namespace Metamodel.Repository

variable {κ : Type} {ts : TypeSystem κ}

/-- The object is not the canonical template of a datatype. -/
def NoTemplate (r : Repository ts) (id : ObjectId) : Prop :=
  ∀ m d, r.model? m = some (.datatype d) → d.template ≠ id

/-- Models, objects, registries and templates fit together. -/
structure WellFormed (r : Repository ts) : Prop where
  /-- The model of a live composite is a datatype of the repository. -/
  composite : ∀ {id m f}, r.object? id = some (.composite m f) →
    ∃ d, r.model? m = some (.datatype d)
  /-- The model of a live collection is a shape of the repository, and the shape is its own. -/
  collection : ∀ {id m es}, r.object? id = some (.collection m es) →
    ∃ s, r.model? m = some (.shape s) ∧ s.holder = id
  /-- What a collection takes its elements from is older than the collection. -/
  element_lt : ∀ {id s}, r.shape id = .ok s → s.element.index < id.index
  /-- A derived collection is younger than the one that it was copied from. -/
  source_lt : ∀ {id s source}, r.shape id = .ok s → s.origin = .derived source →
    source.index < id.index
  /-- An enclosing namespace is a model of the repository. -/
  scope_lt : ∀ {m d n}, r.model? m = some (.datatype d) → d.scope = some n →
    n.index < r.models.size
  /-- The canonical template of a datatype is a live composite that is bound to the datatype. -/
  template : ∀ {m d}, r.model? m = some (.datatype d) →
    ∃ f, r.object? d.template = some (.composite m f)
  /-- Exactly the aliases have no registry. -/
  registry_none_iff : ∀ {m d}, r.model? m = some (.datatype d) →
    (d.registry = none ↔ ts.isAlias d.kind = true)
  /-- A registry lists exactly the live composites of its datatype. -/
  registry_keys : ∀ {m d g}, r.model? m = some (.datatype d) → d.registry = some g →
    ∀ id, id ∈ g.keys ↔ ∃ f, r.object? id = some (.composite m f)
  /-- A registry lists nothing twice. -/
  registry_nodup : ∀ {m d g}, r.model? m = some (.datatype d) → d.registry = some g →
    g.keys.Nodup
  /-- The canonical template is registered under the empty path. -/
  template_name : ∀ {m d g}, r.model? m = some (.datatype d) → d.registry = some g →
    g.get? d.template = some ""
  /-- A composite has one field for a role. -/
  roles_nodup : ∀ {id m f}, r.object? id = some (.composite m f) → f.keys.Nodup
  /-- Only kinds that may have instances and are no alias and no leaf have composites besides the
  template. -/
  instance_kind : ∀ {id m f d}, r.object? id = some (.composite m f) →
    r.model? m = some (.datatype d) →
    id = d.template ∨
      ts.isTemplate d.kind = true ∧ ts.isAlias d.kind = false ∧ ts.isLeaf d.kind = false

theorem wellFormed_empty : (empty ts).WellFormed where
  composite h := by simp at h
  collection h := by simp at h
  element_lt h := by simp [shape_eq_ok_iff] at h
  source_lt h := by simp [shape_eq_ok_iff] at h
  scope_lt h := by simp at h
  template h := by simp at h
  registry_none_iff h := by simp at h
  registry_keys h := by simp at h
  registry_nodup h := by simp at h
  template_name h := by simp at h
  roles_nodup h := by simp at h
  instance_kind h := by simp at h

variable {r r' : Repository ts}

/-- What a datatype may be put into: another datatype, or nothing. -/
def MayEnclose (r : Repository ts) (scope : Option ModelId) : Prop :=
  ∀ n, scope = some n → ∃ d, r.model? n = some (.datatype d)

namespace WellFormed

/-! ## What follows at once -/

/-- The model of a live object is one of the repository. -/
theorem model_lt (h : r.WellFormed) {id : ObjectId} {o : Object} (ho : r.object? id = some o) :
    o.model.index < r.models.size := by
  cases o with
  | composite m f =>
    obtain ⟨d, hd⟩ := h.composite ho
    exact index_lt_of_model? hd
  | collection m es =>
    obtain ⟨s, hs, -⟩ := h.collection ho
    exact index_lt_of_model? hs

theorem model_lt_of_modelOf? (h : r.WellFormed) {id : ObjectId} {m : ModelId}
    (hm : r.modelOf? id = some m) : m.index < r.models.size := by
  obtain ⟨o, ho, rfl⟩ := modelOf?_eq_some_iff.mp hm
  exact h.model_lt ho

theorem template_lt (h : r.WellFormed) {m : ModelId} {d : Datatype κ}
    (hd : r.model? m = some (.datatype d)) : d.template.index < r.objects.size := by
  obtain ⟨f, hf⟩ := h.template hd
  exact index_lt_of_object? hf

/-- A datatype is found from its template. -/
theorem template_injective (h : r.WellFormed) {m n : ModelId} {d e : Datatype κ}
    (hd : r.model? m = some (.datatype d)) (he : r.model? n = some (.datatype e))
    (heq : d.template = e.template) : m = n := by
  obtain ⟨f, hf⟩ := h.template hd
  obtain ⟨f', hf'⟩ := h.template he
  rw [heq] at hf
  exact (composite_unique hf hf').1

/-- A composite that is the template of some datatype is the template of its own. -/
theorem eq_template_of_composite (h : r.WellFormed) {id : ObjectId} {m n : ModelId}
    {f : Table String Value} {d e : Datatype κ} (ho : r.object? id = some (.composite m f))
    (hd : r.model? m = some (.datatype d)) (he : r.model? n = some (.datatype e))
    (heq : e.template = id) : id = d.template := by
  obtain ⟨f', hf'⟩ := h.template he
  rw [heq] at hf'
  obtain ⟨rfl, -⟩ := composite_unique ho hf'
  obtain rfl := datatype_unique hd he
  exact heq.symm

/-- A collection has a shape. -/
theorem shape_of_collection (h : r.WellFormed) {id : ObjectId} {m : ModelId}
    {es : Table Nat Value} (ho : r.object? id = some (.collection m es)) :
    ∃ s, r.shape id = .ok s := by
  obtain ⟨s, hs, -⟩ := h.collection ho
  exact ⟨s, shape_eq_ok_iff.mpr ⟨m, es, ho, hs⟩⟩

/-- What is bound to a datatype is a composite. -/
theorem composite_of_modelOf? (h : r.WellFormed) {m : ModelId} {d : Datatype κ} {id : ObjectId}
    (hd : r.model? m = some (.datatype d)) (hm : r.modelOf? id = some m) :
    ∃ f, r.object? id = some (.composite m f) := by
  obtain ⟨o, ho, rfl⟩ := modelOf?_eq_some_iff.mp hm
  cases o with
  | composite k f => exact ⟨f, ho⟩
  | collection k es =>
    obtain ⟨s, hs, -⟩ := h.collection ho
    rw [Object.model, hs] at hd
    simp at hd

/-- Templates have the empty path. -/
theorem registeredName_template (h : r.WellFormed) {m : ModelId} {d : Datatype κ}
    (hd : r.model? m = some (.datatype d)) : r.registeredName d.template = "" := by
  obtain ⟨f, hf⟩ := h.template hd
  simp only [registeredName, instanceName?, modelOf?_of_object? hf, Object.model, Option.bind_some,
    registryOf?_datatype hd]
  cases hg : d.registry with
  | none => rfl
  | some g => simp [h.template_name hd hg]

/-- A registered instance is live. -/
theorem composite_of_get? (h : r.WellFormed) {m : ModelId} {d : Datatype κ} {g : Registry}
    {id : ObjectId} {name : String} (hd : r.model? m = some (.datatype d))
    (hg : d.registry = some g) (hn : g.get? id = some name) :
    ∃ f, r.object? id = some (.composite m f) :=
  (h.registry_keys hd hg id).mp (Table.mem_keys_of_get? hn)

end WellFormed

/-! ## One datatype and one collection -/

/-- What well-formedness says about one datatype. -/
structure Fits (r : Repository ts) (m : ModelId) (d : Datatype κ) : Prop where
  scope_lt : ∀ {n}, d.scope = some n → n.index < r.models.size
  template : ∃ f, r.object? d.template = some (.composite m f)
  registry_none_iff : d.registry = none ↔ ts.isAlias d.kind = true
  registry_keys : ∀ {g}, d.registry = some g →
    ∀ id, id ∈ g.keys ↔ ∃ f, r.object? id = some (.composite m f)
  registry_nodup : ∀ {g}, d.registry = some g → g.keys.Nodup
  template_name : ∀ {g}, d.registry = some g → g.get? d.template = some ""
  instance_kind : ∀ {id f}, r.object? id = some (.composite m f) →
    id = d.template ∨
      ts.isTemplate d.kind = true ∧ ts.isAlias d.kind = false ∧ ts.isLeaf d.kind = false

/-- What well-formedness says about the shape of one collection. -/
structure Founded (s : Shape) (id : ObjectId) : Prop where
  holder : s.holder = id
  element_lt : s.element.index < id.index
  source_lt : ∀ {source}, s.origin = .derived source → source.index < id.index

theorem WellFormed.fits (h : r.WellFormed) {m : ModelId} {d : Datatype κ}
    (hd : r.model? m = some (.datatype d)) : r.Fits m d where
  scope_lt hn := h.scope_lt hd hn
  template := h.template hd
  registry_none_iff := h.registry_none_iff hd
  registry_keys hg := h.registry_keys hd hg
  registry_nodup hg := h.registry_nodup hd hg
  template_name hg := h.template_name hd hg
  instance_kind ho := h.instance_kind ho hd

theorem WellFormed.founded (h : r.WellFormed) {id : ObjectId} {m : ModelId}
    {es : Table Nat Value} (ho : r.object? id = some (.collection m es)) :
    ∃ s, r.model? m = some (.shape s) ∧ Founded s id := by
  obtain ⟨s, hs, hholder⟩ := h.collection ho
  have hshape : r.shape id = .ok s := shape_eq_ok_iff.mpr ⟨m, es, ho, hs⟩
  exact ⟨s, hs, hholder, h.element_lt hshape, h.source_lt hshape⟩

/-- A repository is well formed if each of its datatypes and each of its objects fits. -/
theorem wellFormed_of_fits
    (hfits : ∀ {m d}, r.model? m = some (.datatype d) → r.Fits m d)
    (hcomposite : ∀ {id m f}, r.object? id = some (.composite m f) →
      f.keys.Nodup ∧ ∃ d, r.model? m = some (.datatype d))
    (hcollection : ∀ {id m es}, r.object? id = some (.collection m es) →
      ∃ s, r.model? m = some (.shape s) ∧ Founded s id) : r.WellFormed := by
  have hfounded : ∀ {id s}, r.shape id = .ok s → Founded s id := by
    intro id s hs
    obtain ⟨m, es, ho, hm⟩ := shape_eq_ok_iff.mp hs
    obtain ⟨s', hs', hfounded⟩ := hcollection ho
    rw [hm] at hs'
    obtain rfl : s = s' := by simpa using hs'
    exact hfounded
  constructor
  case composite => exact fun ho => (hcomposite ho).2
  case collection =>
    intro id m es ho
    obtain ⟨s, hs, hfounded⟩ := hcollection ho
    exact ⟨s, hs, hfounded.holder⟩
  case element_lt => exact fun hs => (hfounded hs).element_lt
  case source_lt => exact fun hs => (hfounded hs).source_lt
  case scope_lt => exact fun hd => (hfits hd).scope_lt
  case template => exact fun hd => (hfits hd).template
  case registry_none_iff => exact fun hd => (hfits hd).registry_none_iff
  case registry_keys => exact fun hd => (hfits hd).registry_keys
  case registry_nodup => exact fun hd => (hfits hd).registry_nodup
  case template_name => exact fun hd => (hfits hd).template_name
  case roles_nodup => exact fun ho => (hcomposite ho).1
  case instance_kind => exact fun ho hd => (hfits hd).instance_kind ho

/-- A datatype that keeps its kind, registry and template fits as long as the same objects are its
composites and its namespace is there. -/
theorem Fits.of_same {m : ModelId} {d e : Datatype κ} (h : r.Fits m d) (hkind : e.kind = d.kind)
    (hregistry : e.registry = d.registry) (htemplate : e.template = d.template)
    (hscope : ∀ n, e.scope = some n → n.index < r'.models.size)
    (hcomposite : ∀ id, (∃ f, r'.object? id = some (.composite m f)) ↔
      ∃ f, r.object? id = some (.composite m f)) : r'.Fits m e where
  scope_lt hn := hscope _ hn
  template := by
    rw [htemplate, hcomposite]
    exact h.template
  registry_none_iff := by
    rw [hkind, hregistry]
    exact h.registry_none_iff
  registry_keys hg id := by
    rw [h.registry_keys (hregistry ▸ hg), hcomposite]
  registry_nodup hg := h.registry_nodup (hregistry ▸ hg)
  template_name hg := by
    rw [htemplate]
    exact h.template_name (hregistry ▸ hg)
  instance_kind ho := by
    obtain ⟨f, hf⟩ := (hcomposite _).mp ⟨_, ho⟩
    rw [hkind, htemplate]
    exact h.instance_kind hf

namespace WellFormed

/-! ## Changes of a datatype -/

/-- A change that keeps kind, registry and template of a datatype keeps the repository well
formed, if it names a namespace of the repository. -/
theorem mapDatatype (h : r.WellFormed) {k : ModelId} {f : Datatype κ → Datatype κ}
    (hkind : ∀ d, (f d).kind = d.kind) (hregistry : ∀ d, (f d).registry = d.registry)
    (htemplate : ∀ d, (f d).template = d.template)
    (hscope : ∀ d n, r.model? k = some (.datatype d) → (f d).scope = some n →
      n.index < r.models.size) :
    (r.mapDatatype k f).WellFormed := by
  apply wellFormed_of_fits
  case hfits =>
    intro m d hd
    obtain ⟨d₀, hd₀, rfl⟩ := model?_mapDatatype_datatype.mp hd
    have hfits := h.fits hd₀
    split
    · next hm =>
      subst hm
      refine hfits.of_same (hkind d₀) (hregistry d₀) (htemplate d₀) ?_ fun _ => Iff.rfl
      rw [size_models_mapDatatype]
      exact fun n hn => hscope d₀ n hd₀ hn
    · refine hfits.of_same rfl rfl rfl ?_ fun _ => Iff.rfl
      rw [size_models_mapDatatype]
      exact fun n hn => hfits.scope_lt hn
  case hcomposite =>
    intro id m fs ho
    obtain ⟨d, hd⟩ := h.composite ho
    exact ⟨h.roles_nodup ho, _, model?_mapDatatype_datatype.mpr ⟨d, hd, rfl⟩⟩
  case hcollection =>
    intro id m es ho
    obtain ⟨s, hs, hfounded⟩ := h.founded ho
    exact ⟨s, model?_mapDatatype_shape.mpr hs, hfounded⟩

theorem mapEntries (h : r.WellFormed) (m : ModelId) (f : List Entry → List Entry) :
    (r.mapEntries m f).WellFormed :=
  h.mapDatatype (fun _ => rfl) (fun _ => rfl) (fun _ => rfl) fun _ _ hd hn => h.scope_lt hd hn

theorem putQualifiers (h : r.WellFormed) (m : ModelId) (qs : List Qualifier) :
    (r.putQualifiers m qs).WellFormed :=
  h.mapDatatype (fun _ => rfl) (fun _ => rfl) (fun _ => rfl) fun _ _ hd hn => h.scope_lt hd hn

theorem putScope (h : r.WellFormed) (m : ModelId) {scope : Option ModelId}
    (hs : r.MayEnclose scope) : (r.putScope m scope).WellFormed := by
  refine h.mapDatatype (fun _ => rfl) (fun _ => rfl) (fun _ => rfl) fun _ n _ hn => ?_
  obtain ⟨outer, houter⟩ := hs n hn
  exact index_lt_of_model? houter

/-! ## Changes of the contents of objects -/

/-- A change of fields and elements keeps the repository well formed. -/
theorem contents (h : r.WellFormed) (hmodels : r'.models = r.models)
    (hcomposite : ∀ id m, (∃ f, r'.object? id = some (.composite m f)) ↔
      ∃ f, r.object? id = some (.composite m f))
    (hcollection : ∀ id m, (∃ es, r'.object? id = some (.collection m es)) ↔
      ∃ es, r.object? id = some (.collection m es))
    (hroles : ∀ id m f, r'.object? id = some (.composite m f) → f.keys.Nodup) :
    r'.WellFormed := by
  have hmodel : ∀ m, r'.model? m = r.model? m := fun m => by simp [model?, hmodels]
  apply wellFormed_of_fits
  case hfits =>
    intro m d hd
    have hfits := h.fits (hmodel m ▸ hd)
    refine hfits.of_same rfl rfl rfl ?_ fun id => hcomposite id m
    rw [hmodels]
    exact fun n hn => hfits.scope_lt hn
  case hcomposite =>
    intro id m f ho
    obtain ⟨f', ho'⟩ := (hcomposite id m).mp ⟨f, ho⟩
    rw [hmodel]
    exact ⟨hroles id m f ho, h.composite ho'⟩
  case hcollection =>
    intro id m es ho
    obtain ⟨es', ho'⟩ := (hcollection id m).mp ⟨es, ho⟩
    rw [hmodel]
    exact h.founded ho'

theorem writeField (h : r.WellFormed) (id : ObjectId) (role : String) (value : Option Value) :
    (r.writeField id role value).WellFormed := by
  apply h.contents (models_writeField id role value)
  case hcomposite =>
    intro x m
    simp only [composite_writeField]
    exact ⟨fun ⟨_, f, ho, _⟩ => ⟨f, ho⟩, fun ⟨f, ho⟩ => ⟨_, f, ho, rfl⟩⟩
  case hcollection => exact fun x m => by simp only [collection_writeField]
  case hroles =>
    intro x m f' ho'
    obtain ⟨f, ho, rfl⟩ := composite_writeField.mp ho'
    split
    · cases value with
      | none => exact Table.nodup_keys_erase (h.roles_nodup ho) role
      | some v => exact Table.nodup_keys_insert (h.roles_nodup ho) role v
    · exact h.roles_nodup ho

theorem writeElement (h : r.WellFormed) (id : ObjectId) (index : Nat) (value : Value) :
    (r.writeElement id index value).WellFormed := by
  apply h.contents (models_writeElement id index value)
  case hcomposite => exact fun x m => by simp only [composite_writeElement]
  case hcollection =>
    intro x m
    simp only [collection_writeElement]
    exact ⟨fun ⟨_, es, ho, _⟩ => ⟨es, ho⟩, fun ⟨es, ho⟩ => ⟨_, es, ho, rfl⟩⟩
  case hroles => exact fun x m f ho => h.roles_nodup (composite_writeElement.mp ho)

/-! ## Additions -/

/-- A new datatype fits: its template is the only object bound to it. -/
theorem fits_freshDatatype (h : r.WellFormed) (name : String) (kind : κ) :
    (r.addTemplate name kind).Fits r.nextModel (r.freshDatatype name kind) := by
  have htemplate : (r.addTemplate name kind).object? r.nextObject =
      some (.composite r.nextModel Table.empty) := by
    rw [object?_addTemplate, if_pos rfl]
  -- No object of the old repository is bound to a model that was not there.
  have honly : ∀ {id f},
      (r.addTemplate name kind).object? id = some (.composite r.nextModel f) →
        id = r.nextObject := by
    intro id f ho
    rw [object?_addTemplate] at ho
    split at ho
    · next hid => exact hid
    · exact (Nat.lt_irrefl _ (h.model_lt ho)).elim
  constructor
  case scope_lt =>
    intro n hn
    simp [freshDatatype] at hn
  case template => exact ⟨_, htemplate⟩
  case registry_none_iff => simp [freshDatatype]
  case registry_keys =>
    intro g hg id
    rw [freshDatatype_registry hg, Table.keys_insert]
    constructor
    · intro hid
      obtain rfl : id = r.nextObject := by simpa using hid
      exact ⟨_, htemplate⟩
    · rintro ⟨f, ho⟩
      simp [honly ho]
  case registry_nodup =>
    intro g hg
    rw [freshDatatype_registry hg]
    exact Table.nodup_keys_insert (by simp) _ _
  case template_name =>
    intro g hg
    rw [freshDatatype_registry hg]
    show (Table.empty.insert r.nextObject "").get? r.nextObject = some ""
    rw [Table.get?_insert, if_pos rfl]
  case instance_kind => exact fun ho => Or.inl (honly ho)

theorem addTemplate (h : r.WellFormed) (name : String) (kind : κ) :
    (r.addTemplate name kind).WellFormed := by
  have hkept : ∀ {m model}, r.model? m = some model →
      (r.addTemplate name kind).model? m = some model := by
    intro m model hm
    rw [model?_addTemplate, if_neg (ne_nextModel hm), hm]
  apply wellFormed_of_fits
  case hfits =>
    intro m d hd
    rw [model?_addTemplate] at hd
    split at hd
    · next hm =>
      obtain rfl := Model.datatype.inj (Option.some.inj hd)
      exact hm ▸ h.fits_freshDatatype name kind
    · next hm =>
      have hfits := h.fits hd
      refine hfits.of_same rfl rfl rfl ?_ fun id => ?_
      · rw [size_models_addTemplate]
        exact fun n hn => Nat.lt_succ_of_lt (hfits.scope_lt hn)
      · rw [object?_addTemplate]
        split
        · next hid => simp [hid, Ne.symm hm]
        · rfl
  case hcomposite =>
    intro id m f ho
    rw [object?_addTemplate] at ho
    split at ho
    · obtain ⟨rfl, rfl⟩ := Object.composite.inj (Option.some.inj ho)
      exact ⟨by simp, _, by rw [model?_addTemplate, if_pos rfl]⟩
    · obtain ⟨d, hd⟩ := h.composite ho
      exact ⟨h.roles_nodup ho, d, hkept hd⟩
  case hcollection =>
    intro id m es ho
    rw [object?_addTemplate] at ho
    split at ho
    · simp at ho
    · obtain ⟨s, hs, hfounded⟩ := h.founded ho
      exact ⟨s, hkept hs, hfounded⟩

/-- A new collection has a shape of its own, which refers to older objects only. -/
theorem addCollection (h : r.WellFormed) {element : ObjectId} (capacity : Option Nat)
    (name : String) {origin : Origin} (helement : element.index < r.objects.size)
    (hsource : ∀ source, origin = .derived source → source.index < r.objects.size) :
    (r.addCollection element capacity name origin).WellFormed := by
  have hkept : ∀ {m model}, r.model? m = some model →
      (r.addCollection element capacity name origin).model? m = some model := by
    intro m model hm
    rw [model?_addCollection, if_neg (ne_nextModel hm), hm]
  have hcomposite : ∀ {id m f},
      (r.addCollection element capacity name origin).object? id = some (.composite m f) ↔
        r.object? id = some (.composite m f) := by
    intro id m f
    rw [object?_addCollection]
    split
    · next hid => simp [hid]
    · rfl
  apply wellFormed_of_fits
  case hfits =>
    intro m d hd
    rw [model?_addCollection] at hd
    split at hd
    · simp at hd
    · have hfits := h.fits hd
      refine hfits.of_same rfl rfl rfl ?_ fun id => by simp only [hcomposite]
      rw [size_models_addCollection]
      exact fun n hn => Nat.lt_succ_of_lt (hfits.scope_lt hn)
  case hcomposite =>
    intro id m f ho
    obtain ⟨d, hd⟩ := h.composite (hcomposite.mp ho)
    exact ⟨h.roles_nodup (hcomposite.mp ho), d, hkept hd⟩
  case hcollection =>
    intro id m es ho
    rw [object?_addCollection] at ho
    split at ho
    · next hid =>
      subst hid
      obtain ⟨rfl, -⟩ := Object.collection.inj (Option.some.inj ho)
      exact ⟨_, by rw [model?_addCollection, if_pos rfl], rfl, helement, fun hs => hsource _ hs⟩
    · obtain ⟨s, hs, hfounded⟩ := h.founded ho
      exact ⟨s, hkept hs, hfounded⟩

/-- A datatype whose kind allows instances fits with another one in its registry. -/
theorem fits_withInstance (h : r.WellFormed) {m : ModelId} {d : Datatype κ}
    {f : Table String Value} (path : String) (hd : r.model? m = some (.datatype d))
    (hkind : ts.isTemplate d.kind = true ∧ ts.isAlias d.kind = false ∧ ts.isLeaf d.kind = false) :
    (r.withInstance m f path).Fits m
      { d with registry := some ((d.registry.getD Table.empty).insert r.nextObject path) } := by
  have hfits := h.fits hd
  obtain ⟨g, hg⟩ : ∃ g, d.registry = some g := by
    cases hg : d.registry with
    | some g => exact ⟨g, rfl⟩
    | none => simp [hfits.registry_none_iff.mp hg] at hkind
  obtain ⟨f₀, htemplate⟩ := hfits.template
  have hregistry : (d.registry.getD Table.empty).insert r.nextObject path =
      g.insert r.nextObject path := by
    rw [hg, Option.getD_some]
  rw [hregistry]
  constructor
  case scope_lt =>
    intro n hn
    rw [size_models_withInstance]
    exact hfits.scope_lt hn
  case template => exact ⟨f₀, object?_withInstance_of_some htemplate⟩
  case registry_none_iff => simp [hkind.2.1]
  case registry_keys =>
    intro g' hg' id
    obtain rfl : g.insert r.nextObject path = g' := Option.some.inj hg'
    rw [Table.mem_keys_iff, Table.get?_insert, object?_withInstance]
    by_cases hid : id = r.nextObject
    · simp [hid]
    · rw [if_neg (Ne.symm hid), if_neg hid, ← hfits.registry_keys hg, Table.mem_keys_iff]
  case registry_nodup =>
    intro g' hg'
    obtain rfl : g.insert r.nextObject path = g' := Option.some.inj hg'
    exact Table.nodup_keys_insert (hfits.registry_nodup hg) _ _
  case template_name =>
    intro g' hg'
    obtain rfl : g.insert r.nextObject path = g' := Option.some.inj hg'
    rw [Table.get?_insert, if_neg (Ne.symm (ne_nextObject htemplate))]
    exact hfits.template_name hg
  case instance_kind => exact fun _ => Or.inr hkind

/-- A new instance is registered with its datatype, whose kind has to allow instances. -/
theorem withInstance (h : r.WellFormed) {m : ModelId} {d : Datatype κ} {f : Table String Value}
    (path : String) (hd : r.model? m = some (.datatype d)) (hroles : f.keys.Nodup)
    (hkind : ts.isTemplate d.kind = true ∧ ts.isAlias d.kind = false ∧ ts.isLeaf d.kind = false) :
    (r.withInstance m f path).WellFormed := by
  have hkept : ∀ {k e}, r.model? k = some (.datatype e) →
      ∃ e', (r.withInstance m f path).model? k = some (.datatype e') :=
    fun he => ⟨_, model?_mapDatatype_datatype.mpr ⟨_, he, rfl⟩⟩
  apply wellFormed_of_fits
  case hfits =>
    -- Only the datatype of the new instance has got another registry.
    intro k e he
    obtain ⟨e₀, he₀, rfl⟩ := model?_mapDatatype_datatype.mp he
    rw [model?_addObject] at he₀
    split
    · next hk =>
      subst hk
      obtain rfl := datatype_unique hd he₀
      exact h.fits_withInstance path hd hkind
    · next hk =>
      have hfits := h.fits he₀
      refine hfits.of_same rfl rfl rfl ?_ fun id => ?_
      · rw [size_models_withInstance]
        exact fun n hn => hfits.scope_lt hn
      · rw [object?_withInstance]
        split
        · next hid => simp [hid, Ne.symm hk]
        · rfl
  case hcomposite =>
    intro id k f' ho
    rw [object?_withInstance] at ho
    split at ho
    · obtain ⟨rfl, rfl⟩ := Object.composite.inj (Option.some.inj ho)
      exact ⟨hroles, hkept hd⟩
    · obtain ⟨e, he⟩ := h.composite ho
      exact ⟨h.roles_nodup ho, hkept he⟩
  case hcollection =>
    intro id k es ho
    rw [object?_withInstance] at ho
    split at ho
    · simp at ho
    · obtain ⟨s, hs, hfounded⟩ := h.founded ho
      exact ⟨s, model?_mapDatatype_shape.mpr hs, hfounded⟩

/-! ## Removals -/

/-- A datatype fits without an object that is not its template. -/
theorem fits_free (h : r.WellFormed) {m : ModelId} {d : Datatype κ} {id : ObjectId}
    (hd : r.model? m = some (.datatype d)) (hid : d.template ≠ id) :
    (r.free id).Fits m { d with registry := d.registry.map (·.erase id) } := by
  have hfits := h.fits hd
  constructor
  case scope_lt =>
    intro n hn
    rw [size_models_free]
    exact hfits.scope_lt hn
  case template =>
    rw [object?_free, if_neg hid]
    exact hfits.template
  case registry_none_iff =>
    rw [Option.map_eq_none_iff]
    exact hfits.registry_none_iff
  case registry_keys =>
    intro g hg k
    obtain ⟨g', hg', rfl⟩ := Option.map_eq_some_iff.mp hg
    rw [Table.mem_keys_iff, Table.get?_erase, object?_free]
    by_cases hk : k = id
    · simp [hk]
    · rw [if_neg (Ne.symm hk), if_neg hk, ← hfits.registry_keys hg', Table.mem_keys_iff]
  case registry_nodup =>
    intro g hg
    obtain ⟨g', hg', rfl⟩ := Option.map_eq_some_iff.mp hg
    exact Table.nodup_keys_erase (hfits.registry_nodup hg') id
  case template_name =>
    intro g hg
    obtain ⟨g', hg', rfl⟩ := Option.map_eq_some_iff.mp hg
    rw [Table.get?_erase, if_neg (Ne.symm hid)]
    exact hfits.template_name hg'
  case instance_kind =>
    intro k f ho
    rw [object?_free] at ho
    split at ho
    · simp at ho
    · exact hfits.instance_kind ho

/-- Freeing an object that is no template keeps the repository well formed. -/
theorem free (h : r.WellFormed) {id : ObjectId} (hid : r.NoTemplate id) :
    (r.free id).WellFormed := by
  apply wellFormed_of_fits
  case hfits =>
    intro k e he
    obtain ⟨e₀, he₀, rfl⟩ := model?_free_datatype.mp he
    split
    · exact h.fits_free he₀ (hid k e₀ he₀)
    · next hk =>
      have hfits := h.fits he₀
      refine hfits.of_same rfl rfl rfl ?_ fun x => ?_
      · rw [size_models_free]
        exact fun n hn => hfits.scope_lt hn
      · rw [object?_free]
        split
        · next hx =>
          subst hx
          -- An object of another model was no composite of this one.
          have hother : ∀ f, r.object? x ≠ some (.composite k f) :=
            fun f ho => hk (modelOf?_of_object? ho)
          simp [hother]
        · rfl
  case hcomposite =>
    intro k m f ho
    rw [object?_free] at ho
    split at ho
    · simp at ho
    · obtain ⟨e, he⟩ := h.composite ho
      exact ⟨h.roles_nodup ho, _, model?_free_datatype.mpr ⟨e, he, rfl⟩⟩
  case hcollection =>
    intro k m es ho
    rw [object?_free] at ho
    split at ho
    · simp at ho
    · obtain ⟨s, hs, hfounded⟩ := h.founded ho
      exact ⟨s, model?_free_shape.mpr hs, hfounded⟩

end WellFormed

end Metamodel.Repository
