import Metamodel.Proofs.Propagation

/-!
# Metamodel.Proofs.Locality -- an edit of a datatype touches its composites only

`r.SameBut F D r'` says that everything that was there in `r` is in `r'` as it was, except for the
fields of composites of the datatypes `F` and for the declarations of the datatypes `D`; registries
may have got new entries. Additions change nothing in this sense, and the changes that edits are
made of touch one datatype. Main statement: an update of a datatype writes its template as it is
told, whether the copies for the instances can be made or not, and touches nothing but composites of
the datatype.
-/

namespace Metamodel

variable {κ : Type} {ts : TypeSystem κ} {r₀ r r' r'' : Repository ts}

namespace Repository

/-- What was there is as it was, but for fields of composites of `F` and declarations of `D`. -/
structure SameBut (F D : ModelId → Prop) (r r' : Repository ts) : Prop where
  objects_le : r.objects.size ≤ r'.objects.size
  models_le : r.models.size ≤ r'.models.size
  composite : ∀ {id n f}, r.object? id = some (.composite n f) →
    ∃ f', r'.object? id = some (.composite n f') ∧ (¬ F n → f' = f)
  collection : ∀ {id n es}, r.object? id = some (.collection n es) →
    r'.object? id = some (.collection n es)
  /-- What is gone does not come back. -/
  gone : ∀ {id}, id.index < r.objects.size → r.object? id = none → r'.object? id = none
  shape : ∀ {n s}, r.model? n = some (.shape s) → r'.model? n = some (.shape s)
  datatype : ∀ {n d}, r.model? n = some (.datatype d) →
    ∃ d', r'.model? n = some (.datatype d') ∧ d'.kind = d.kind ∧ d'.template = d.template ∧
      (¬ D n → ∃ g, d' = { d with registry := g })
  /-- A datatype that is new is among those that are declared. -/
  datatype_old : ∀ {n d}, r'.model? n = some (.datatype d) → n.index < r.models.size ∨ D n
  registered : ∀ {n id}, id.index < r.objects.size →
    (r'.registryOf? n).bind (·.get? id) = (r.registryOf? n).bind (·.get? id)

/-- A field of the canonical template of a datatype. -/
def templateField? (r : Repository ts) (m : ModelId) (role : String) : Option Value :=
  (r.template? m).bind fun template => r.field? template role

theorem templateField?_eq {m : ModelId} {d : Datatype κ} {f : Table String Value}
    (hd : r.model? m = some (.datatype d)) (hf : r.object? d.template = some (.composite m f))
    (role : String) : r.templateField? m role = f.get? role := by
  have hfields : r.fields? d.template = some f := fields?_eq_some_iff.mpr ⟨m, hf⟩
  simp [templateField?, template?_datatype hd, field?, hfields]

/-- All fields of the canonical template of a datatype, in their order. -/
def templateFields? (r : Repository ts) (m : ModelId) : Option (Table String Value) :=
  (r.template? m).bind r.fields?

theorem templateFields?_eq {m : ModelId} {d : Datatype κ} {f : Table String Value}
    (hd : r.model? m = some (.datatype d)) (hf : r.object? d.template = some (.composite m f)) :
    r.templateFields? m = some f := by
  rw [templateFields?, template?_datatype hd, Option.bind_some]
  exact fields?_eq_some_iff.mpr ⟨m, hf⟩

theorem templateField?_eq_bind (m : ModelId) (role : String) :
    r.templateField? m role = (r.templateFields? m).bind (·.get? role) := by
  simp only [templateField?, templateFields?, field?, Option.bind_assoc]

variable {F D F' D' : ModelId → Prop}

namespace SameBut

theorem refl (r : Repository ts) : r.SameBut F D r where
  objects_le := Nat.le_refl _
  models_le := Nat.le_refl _
  composite ho := ⟨_, ho, fun _ => rfl⟩
  collection ho := ho
  gone _ ho := ho
  shape hs := hs
  datatype {_ d} hd := ⟨d, hd, rfl, rfl, fun _ => ⟨d.registry, rfl⟩⟩
  datatype_old hd := Or.inl (index_lt_of_model? hd)
  registered _ := rfl

theorem trans (h : r.SameBut F D r') (h' : r'.SameBut F D r'') : r.SameBut F D r'' where
  objects_le := Nat.le_trans h.objects_le h'.objects_le
  models_le := Nat.le_trans h.models_le h'.models_le
  composite := by
    intro id n f ho
    obtain ⟨f', ho', hf'⟩ := h.composite ho
    obtain ⟨f'', ho'', hf''⟩ := h'.composite ho'
    exact ⟨f'', ho'', fun hn => (hf'' hn).trans (hf' hn)⟩
  collection ho := h'.collection (h.collection ho)
  gone hid ho := h'.gone (Nat.lt_of_lt_of_le hid h.objects_le) (h.gone hid ho)
  shape hs := h'.shape (h.shape hs)
  datatype := by
    intro n d hd
    obtain ⟨d', hd', hk, ht, hn⟩ := h.datatype hd
    obtain ⟨d'', hd'', hk', ht', hn'⟩ := h'.datatype hd'
    refine ⟨d'', hd'', hk'.trans hk, ht'.trans ht, fun hD => ?_⟩
    obtain ⟨g, rfl⟩ := hn hD
    obtain ⟨g', rfl⟩ := hn' hD
    exact ⟨g', rfl⟩
  datatype_old := by
    intro n d hd
    rcases h'.datatype_old hd with hlt | hn
    · obtain ⟨model, hm⟩ : ∃ model, r'.model? n = some model := by
        simp [Repository.model?, hlt]
      cases model with
      | datatype d' => exact h.datatype_old hm
      | shape s => simp [h'.shape hm] at hd
    · exact Or.inr hn
  registered := by
    intro n id hid
    rw [h'.registered (Nat.lt_of_lt_of_le hid h.objects_le), h.registered hid]

theorem mono (h : r.SameBut F D r') (hF : ∀ n, F n → F' n) (hD : ∀ n, D n → D' n) :
    r.SameBut F' D' r' where
  objects_le := h.objects_le
  models_le := h.models_le
  composite ho := by
    obtain ⟨f', ho', hf'⟩ := h.composite ho
    exact ⟨f', ho', fun hn => hf' fun hn' => hn (hF _ hn')⟩
  collection := h.collection
  gone := h.gone
  shape := h.shape
  datatype hd := by
    obtain ⟨d', hd', hk, ht, hn⟩ := h.datatype hd
    exact ⟨d', hd', hk, ht, fun hD' => hn fun hDn => hD' (hD _ hDn)⟩
  datatype_old hd := (h.datatype_old hd).imp_right (hD _)
  registered := h.registered

/-! ## What stays the same -/

theorem modelOf? (h : r.SameBut F D r') {id : ObjectId} (hid : id.index < r.objects.size) :
    r'.modelOf? id = r.modelOf? id := by
  unfold Repository.modelOf?
  cases ho : r.object? id with
  | none => rw [h.gone hid ho]
  | some o =>
    cases o with
    | composite n f =>
      obtain ⟨f', ho', -⟩ := h.composite ho
      rw [ho']
      rfl
    | collection n es => rw [h.collection ho]

/-- Every object lasts, whatever is edited. -/
theorem preserves (h : r.SameBut F D r') : r.Preserves r' := fun x o ho => {
  composite := fun ho' => by
    obtain ⟨f', ho'', -⟩ := h.composite ho'
    exact ⟨f', ho''⟩
  collection := fun ho' => ⟨_, h.collection ho'⟩
  shape := fun hs => by
    obtain ⟨n, es, ho', hn⟩ := shape_eq_ok_iff.mp hs
    exact shape_eq_ok_iff.mpr ⟨n, es, h.collection ho', h.shape hn⟩
  registeredName := by
    have hid := index_lt_of_object? ho
    unfold Repository.registeredName Repository.instanceName?
    rw [h.modelOf? hid]
    cases r.modelOf? x with
    | none => rfl
    | some n => exact congrArg (·.getD "") (h.registered hid) }

/-- A composite of a datatype that is not edited keeps its fields. -/
theorem composite_same (h : r.SameBut F D r') {id : ObjectId} {n : ModelId}
    {f : Table String Value} (ho : r.object? id = some (.composite n f)) (hn : ¬ F n) :
    r'.object? id = some (.composite n f) := by
  obtain ⟨f', ho', hf'⟩ := h.composite ho
  rwa [hf' hn] at ho'

theorem template? (h : r.SameBut F D r') {n : ModelId} {d : Datatype κ}
    (hd : r.model? n = some (.datatype d)) : r'.template? n = some d.template := by
  obtain ⟨d', hd', -, ht, -⟩ := h.datatype hd
  rw [template?_datatype hd', ht]

theorem kindOf? (h : r.SameBut F D r') {n : ModelId} {d : Datatype κ}
    (hd : r.model? n = some (.datatype d)) : r'.kindOf? n = some d.kind := by
  obtain ⟨d', hd', hk, -⟩ := h.datatype hd
  exact kindOf?_eq_some_iff.mpr ⟨d', hd', hk⟩

theorem kind? (h : r.SameBut F D r') {id : ObjectId} {k : κ} (hk : r.kind? id = some k) :
    r'.kind? id = some k := by
  obtain ⟨n, hn, hk⟩ := Option.bind_eq_some_iff.mp hk
  obtain ⟨o, ho, rfl⟩ := modelOf?_eq_some_iff.mp hn
  obtain ⟨d, hd, rfl⟩ := kindOf?_eq_some_iff.mp hk
  rw [Repository.kind?, h.modelOf? (index_lt_of_object? ho), hn]
  exact h.kindOf? hd

theorem assertTemplateKind (h : r.SameBut F D r') {id x : ObjectId}
    (hid : r.assertTemplateKind id = .ok x) : r'.assertTemplateKind id = .ok x := by
  obtain ⟨rfl, m, f, d, ho, hd, ht⟩ := assertTemplateKind_eq_ok_iff.mp hid
  obtain ⟨f', ho', -⟩ := h.composite ho
  obtain ⟨d', hd', hk, -⟩ := h.datatype hd
  exact assertTemplateKind_eq_ok_iff.mpr ⟨rfl, m, f', d', ho', hd', hk ▸ ht⟩

theorem isQualifier (h : r.SameBut F D r') {q : Qualifier} (hq : r.isQualifier q = true) :
    r'.isQualifier q = true := by
  obtain ⟨k, hk, hq⟩ := (Option.any_eq_true _ _).mp hq
  exact (Option.any_eq_true _ _).mpr ⟨k, h.kind? hk, hq⟩

theorem assertQualifiers (h : r.SameBut F D r') {qs : List Qualifier}
    (hqs : r.assertQualifiers qs = .ok ()) : r'.assertQualifiers qs = .ok () :=
  assertQualifiers_eq_ok_iff.mpr fun q hq => h.isQualifier (assertQualifiers_eq_ok_iff.mp hqs q hq)

/-- A datatype that is not declared anew keeps its declaration. -/
theorem entriesOf (h : r.SameBut F D r') {n : ModelId} {d : Datatype κ}
    (hd : r.model? n = some (.datatype d)) (hn : ¬ D n) : r'.entriesOf n = r.entriesOf n := by
  obtain ⟨d', hd', -, -, hsame⟩ := h.datatype hd
  obtain ⟨g, rfl⟩ := hsame hn
  simp [Repository.entriesOf, hd, hd', Model.entries, Model.datatype?]

theorem canonicalModel (h : r.SameBut F D r') {id : ObjectId} {n : ModelId}
    (hid : r.canonicalModel id = .ok n) : r'.canonicalModel id = .ok n := by
  obtain ⟨hmodel, d, hd, ht⟩ := canonicalModel_eq_ok_iff.mp hid
  obtain ⟨o, ho, -⟩ := modelOf?_eq_some_iff.mp hmodel
  obtain ⟨d', hd', -, ht', -⟩ := h.datatype hd
  refine canonicalModel_eq_ok_iff.mpr ⟨?_, d', hd', ht'.trans ht⟩
  rw [h.modelOf? (index_lt_of_object? ho), hmodel]

/-- The template of a datatype that is not edited keeps its fields. -/
theorem templateField? (h : r.SameBut F D r') (hr : r.WellFormed) {n : ModelId} {d : Datatype κ}
    (hd : r.model? n = some (.datatype d)) (hn : ¬ F n) (role : String) :
    r'.templateField? n role = r.templateField? n role := by
  obtain ⟨f, hf⟩ := hr.template hd
  obtain ⟨d', hd', -, ht, -⟩ := h.datatype hd
  have hf' := h.composite_same hf hn
  rw [templateField?_eq hd hf, templateField?_eq hd' (ht ▸ hf')]

theorem templateFields? (h : r.SameBut F D r') (hr : r.WellFormed) {n : ModelId} {d : Datatype κ}
    (hd : r.model? n = some (.datatype d)) (hn : ¬ F n) :
    r'.templateFields? n = r.templateFields? n := by
  obtain ⟨f, hf⟩ := hr.template hd
  obtain ⟨d', hd', -, ht, -⟩ := h.datatype hd
  have hf' := h.composite_same hf hn
  rw [templateFields?_eq hd hf, templateFields?_eq hd' (ht ▸ hf')]

end SameBut

/-! ## Changes that touch one datatype -/

theorem Extends.sameBut (h : r.Extends r') : r.SameBut F D r' where
  objects_le := h.objects_le
  models_le := h.models_le
  composite ho := ⟨_, h.object?_some ho, fun _ => rfl⟩
  collection := h.object?_some
  gone hid ho := by rw [h.object? hid, ho]
  shape := h.shape
  datatype hd := by
    obtain ⟨g, hg⟩ := h.datatype hd
    exact ⟨_, hg, rfl, rfl, fun _ => ⟨g, rfl⟩⟩
  datatype_old hd := Or.inl (h.datatype_old hd)
  registered := h.registered

/-- Writing a field touches a composite of its datatype. -/
theorem sameBut_writeField {id : ObjectId}
    (hid : ∀ n f, r.object? id = some (.composite n f) → F n) (role : String)
    (value : Option Value) :
    r.SameBut F D (r.writeField id role value) where
  objects_le := by simp
  models_le := by simp
  composite := by
    intro x n f ho
    refine ⟨_, composite_writeField.mpr ⟨f, ho, rfl⟩, fun hn => ?_⟩
    split
    · next hx =>
      subst hx
      exact (hn (hid n f ho)).elim
    · rfl
  collection := collection_writeField.mpr
  gone := by
    intro x _ ho
    rw [object?_writeField, ho]
    simp
  shape hs := by simpa using hs
  datatype {_ d} hd := ⟨d, by simpa using hd, rfl, rfl, fun _ => ⟨d.registry, rfl⟩⟩
  datatype_old hd := Or.inl (index_lt_of_model? (by simpa using hd))
  registered _ := by simp [registryOf?]

/-- A change of a declaration touches no object. -/
theorem sameBut_mapDatatype {m : ModelId} {f : Datatype κ → Datatype κ} (hm : D m)
    (hf : ∀ d, (f d).kind = d.kind ∧ (f d).template = d.template ∧ (f d).registry = d.registry) :
    r.SameBut F D (r.mapDatatype m f) where
  objects_le := Nat.le_refl _
  models_le := Nat.le_of_eq (size_models_mapDatatype m f).symm
  composite ho := ⟨_, ho, fun _ => rfl⟩
  collection ho := ho
  gone _ ho := ho
  shape hs := model?_mapDatatype_shape.mpr hs
  datatype := by
    intro n d hd
    refine ⟨_, model?_mapDatatype_datatype.mpr ⟨d, hd, rfl⟩, ?_⟩
    split
    · next hn => exact ⟨(hf d).1, (hf d).2.1, fun hD => (hD (hn ▸ hm)).elim⟩
    · exact ⟨rfl, rfl, fun _ => ⟨d.registry, rfl⟩⟩
  datatype_old hd := by
    obtain ⟨d, hd, -⟩ := model?_mapDatatype_datatype.mp hd
    exact Or.inl (index_lt_of_model? hd)
  registered := by
    intro n id _
    unfold registryOf?
    rw [model?_mapDatatype]
    split
    · cases hmodel : r.model? n with
      | none => rfl
      | some model =>
        cases model with
        | shape s => rfl
        | datatype d => simp [Model.mapDatatype, Model.registry?, Model.datatype?, (hf d).2.2]
    · rfl

theorem sameBut_mapEntries {m : ModelId} (hm : D m) (f : List Entry → List Entry) :
    r.SameBut F D (r.mapEntries m f) :=
  sameBut_mapDatatype hm fun _ => ⟨rfl, rfl, rfl⟩

/-- A new instance touches nothing that was there. -/
theorem sameBut_withInstance {m : ModelId} {d : Datatype κ} {f : Table String Value}
    (hd : r.model? m = some (.datatype d)) (path : String) :
    r.SameBut F D (r.withInstance m f path) where
  objects_le := by simp
  models_le := by simp
  composite ho := ⟨_, object?_withInstance_of_some ho, fun _ => rfl⟩
  collection ho := object?_withInstance_of_some ho
  gone := by
    intro id hid ho
    have hne : id ≠ r.nextObject := by
      rintro rfl
      exact Nat.lt_irrefl _ hid
    rw [object?_withInstance, if_neg hne, ho]
  shape hs := model?_mapDatatype_shape.mpr hs
  datatype := by
    intro n e he
    refine ⟨_, model?_mapDatatype_datatype.mpr ⟨e, he, rfl⟩, ?_⟩
    split
    · exact ⟨rfl, rfl, fun _ => ⟨_, rfl⟩⟩
    · exact ⟨rfl, rfl, fun _ => ⟨e.registry, rfl⟩⟩
  datatype_old hd' := by
    obtain ⟨e, g, he, -⟩ := model?_withInstance_datatype hd'
    exact Or.inl (index_lt_of_model? he)
  registered := by
    intro n id hid
    refine registered_withInstance hd ?_ n
    rintro rfl
    exact Nat.lt_irrefl _ hid

/-- A new datatype touches nothing that was there. -/
theorem sameBut_addTemplate (hm : D r.nextModel) (name : String) (kind : κ) :
    r.SameBut F D (r.addTemplate name kind) where
  objects_le := by simp
  models_le := by simp
  composite ho := ⟨_, by rw [object?_addTemplate, if_neg (ne_nextObject ho), ho], fun _ => rfl⟩
  collection ho := by rw [object?_addTemplate, if_neg (ne_nextObject ho), ho]
  gone := by
    intro id hid ho
    have hne : id ≠ r.nextObject := by
      rintro rfl
      exact Nat.lt_irrefl _ hid
    rw [object?_addTemplate, if_neg hne, ho]
  shape hs := by rw [model?_addTemplate, if_neg (ne_nextModel hs), hs]
  datatype {_ d} hd :=
    ⟨d, by rw [model?_addTemplate, if_neg (ne_nextModel hd), hd], rfl, rfl,
      fun _ => ⟨d.registry, rfl⟩⟩
  datatype_old := by
    intro n d hd
    rw [model?_addTemplate] at hd
    split at hd
    · next hn => exact Or.inr (hn ▸ hm)
    · exact Or.inl (index_lt_of_model? hd)
  registered := by
    intro n id hid
    unfold registryOf?
    rw [model?_addTemplate]
    split
    · next hn =>
      subst hn
      have hne : id ≠ r.nextObject := by
        rintro rfl
        exact Nat.lt_irrefl _ hid
      cases hg : (r.freshDatatype name kind).registry with
      | none => simp [Model.registry?, Model.datatype?, hg]
      | some g =>
        obtain rfl := freshDatatype_registry hg
        have hget : (Table.empty.insert r.nextObject "").get? id = none := by
          rw [Table.get?_insert, if_neg (Ne.symm hne)]
          rfl
        simp [Model.registry?, Model.datatype?, hg, hget]
    · rfl

/-- A new datatype has no fields. -/
theorem templateFields?_addTemplate (name : String) (kind : κ) :
    (r.addTemplate name kind).templateFields? r.nextModel = some Table.empty :=
  templateFields?_eq ((model?_addTemplate ..).trans (if_pos rfl))
    ((object?_addTemplate ..).trans (if_pos rfl))

/-- A well-formed repository in which nothing has changed since `r₀` but fields of composites of `F`
and declarations of `D`. -/
structure Edited (F D : ModelId → Prop) (r₀ r : Repository ts) : Prop where
  wellFormed : r.WellFormed
  sameBut : r₀.SameBut F D r

theorem WellFormed.edited (h : r.WellFormed) : r.Edited F D r := ⟨h, .refl r⟩

theorem Edited.trans (h : r₀.Edited F D r) (h' : r.Edited F D r') : r₀.Edited F D r' :=
  ⟨h'.wellFormed, h.sameBut.trans h'.sameBut⟩

theorem Edited.mapEntries (h : r₀.Edited F D r) {m : ModelId} (hm : D m)
    (f : List Entry → List Entry) : r₀.Edited F D (r.mapEntries m f) :=
  ⟨h.wellFormed.mapEntries m f, h.sameBut.trans (sameBut_mapEntries hm f)⟩

theorem edited_growing : Growing (r₀.Edited F D) where
  wellFormed := Edited.wellFormed
  grew h hr' := ⟨hr'.1, h.sameBut.trans hr'.2.sameBut⟩

/-- That an object is what it is may be kept in mind besides. -/
theorem Growing.and_object {P : Repository ts → Prop} (hP : Growing P) (id : ObjectId)
    (o : Object) : Growing fun r => P r ∧ r.object? id = some o where
  wellFormed h := hP.wellFormed h.1
  grew h hr' := ⟨hP.grew h.1 hr', hr'.2.object?_some h.2⟩

end Repository

namespace Step

open Repository (Edited edited_growing)

variable {F D : ModelId → Prop}

/-! ## Updates -/

/-- A composite of an edited datatype gets a field, and another object stays as it is. -/
theorem edited_setField {id t : ObjectId} {m : ModelId} {o : Object} (hid : r₀.modelOf? id = some m)
    (hm : F m) (hne : t ≠ id) (role : String) (value : Option Value) :
    Keeps (fun r => r₀.Edited F D r ∧ r.object? t = some o) (setField id role value) := by
  refine ⟨fun r h => ensures_setField (P := fun r => r₀.Edited F D r ∧ r.object? t = some o) h
    fun k g hg => ?_⟩
  obtain ⟨h, ht⟩ := h
  obtain ⟨o', ho', -⟩ := Repository.modelOf?_eq_some_iff.mp hid
  -- The object is bound to the model that it was bound to at first.
  have hmodel : r.modelOf? id = some m := by
    rw [h.sameBut.modelOf? (Repository.index_lt_of_object? ho'), hid]
  obtain rfl : k = m := Option.some.inj ((Repository.modelOf?_of_object? hg).symm.trans hmodel)
  have hown : ∀ n f, r.object? id = some (.composite n f) → F n := fun n f ho =>
    (Repository.composite_unique ho hg).1 ▸ hm
  refine ⟨⟨h.wellFormed.writeField id role value,
    h.sameBut.trans (Repository.sameBut_writeField hown role value)⟩, ?_⟩
  rw [Repository.object?_writeField, if_neg hne, ht]

/-- The repository after a field of the template of a datatype has been written, or removed. -/
structure Updated (m : ModelId) (role : String) (value : Option Value) (r r' : Repository ts) :
    Prop where
  edited : r.Edited (· = m) (fun _ => False) r'
  field : ∀ k, r'.templateField? m k = if role = k then value else r.templateField? m k
  fields : r'.templateFields? m =
    (r.templateFields? m).map fun f => value.elim (f.erase role) (f.insert role)

/-- The template is written first, and whatever becomes of the instances, stays as it is then. -/
theorem updateInstances_updated (hr : r.WellFormed) {m : ModelId} {d : Datatype κ}
    (hd : r.model? m = some (.datatype d)) (role : String) (value : Option Value) :
    (updateInstances m role value).Ensures r (fun _ => Updated m role value r)
      fun _ => Updated m role value r := by
  obtain ⟨fT, hT⟩ := hr.template hd
  refine ensures_updateInstances hr hd ?_
  have hown : ∀ n f, r.object? d.template = some (.composite n f) → n = m := fun n f ho =>
    (Repository.composite_unique ho hT).1
  have hedited : r.Edited (· = m) (fun _ => False) (r.writeField d.template role value) :=
    ⟨hr.writeField d.template role value, Repository.sameBut_writeField hown role value⟩
  have hT₁ : (r.writeField d.template role value).object? d.template =
      some (.composite m (value.elim (fT.erase role) (fT.insert role))) :=
    Repository.composite_writeField.mpr ⟨fT, hT, by rw [if_pos rfl]⟩
  have htargets : ∀ target ∈ otherInstances (.datatype d) d.template,
      r.modelOf? target.1 = some m ∧ d.template ≠ target.1 := by
    intro target htarget
    obtain ⟨f, ho, hno⟩ := noTemplate_of_otherInstances hr hd htarget
    exact ⟨Repository.modelOf?_of_object? ho, hno m d hd⟩
  have hupdated : ∀ r', r.Edited (· = m) (fun _ => False) r' ∧ r'.object? d.template =
      some (.composite m (value.elim (fT.erase role) (fT.insert role))) →
        Updated m role value r r' := by
    rintro r' ⟨h', hT'⟩
    obtain ⟨d', hd', -, ht, -⟩ := h'.sameBut.datatype hd
    refine ⟨h', fun k => ?_, ?_⟩
    · rw [Repository.templateField?_eq hd hT, Repository.templateField?_eq hd' (ht ▸ hT')]
      cases value with
      | none => exact Table.get?_erase fT role k
      | some v => exact Table.get?_insert fT role k v
    · rw [Repository.templateFields?_eq hd hT, Repository.templateFields?_eq hd' (ht ▸ hT'),
        Option.map_some]
  have hpropagate : Keeps (fun r' => r.Edited (· = m) (fun _ => False) r' ∧ r'.object? d.template =
      some (.composite m (value.elim (fT.erase role) (fT.insert role))))
      (propagate role value (otherInstances (.datatype d) d.template)) :=
    keeps_propagate_of_setField (edited_growing.and_object d.template _) value
      fun target htarget =>
        edited_setField (F := (· = m)) (htargets target htarget).1 rfl (htargets target htarget).2
          role
  refine (hpropagate.ensures _ ⟨hedited, hT₁⟩).imp ?_ ?_
  · exact fun _ r' => hupdated r'
  · exact fun _ r' => hupdated r'

end Step

end Metamodel
