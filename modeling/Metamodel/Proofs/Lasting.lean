import Metamodel.Proofs.Steady
import Metamodel.Release

/-!
# Metamodel.Proofs.Lasting -- objects that stay what they are

`r.Lasts r' x` says that the object `x` is in `r'` what it was in `r`, apart from what it holds: a
composite of the same datatype under the same path, or a collection of the same shape. Every change
of a repository lets every live object last, except that freeing objects lets only the others last.
-/

namespace Metamodel.Repository

variable {κ : Type} {ts : TypeSystem κ} {r r' r'' : Repository ts} {x : ObjectId}

/-- The object is what it was, apart from what it holds. -/
structure Lasts (r r' : Repository ts) (x : ObjectId) : Prop where
  composite : ∀ {m f}, r.object? x = some (.composite m f) →
    ∃ f', r'.object? x = some (.composite m f')
  collection : ∀ {m es}, r.object? x = some (.collection m es) →
    ∃ es', r'.object? x = some (.collection m es')
  shape : ∀ {s}, r.shape x = .ok s → r'.shape x = .ok s
  registeredName : r'.registeredName x = r.registeredName x

namespace Lasts

theorem refl (r : Repository ts) (x : ObjectId) : r.Lasts r x :=
  ⟨fun h => ⟨_, h⟩, fun h => ⟨_, h⟩, fun h => h, rfl⟩

theorem trans (h : r.Lasts r' x) (h' : r'.Lasts r'' x) : r.Lasts r'' x where
  composite ho := by
    obtain ⟨f', ho'⟩ := h.composite ho
    exact h'.composite ho'
  collection ho := by
    obtain ⟨es', ho'⟩ := h.collection ho
    exact h'.collection ho'
  shape hs := h'.shape (h.shape hs)
  registeredName := h'.registeredName.trans h.registeredName

theorem live (h : r.Lasts r' x) {o : Object} (ho : r.object? x = some o) :
    ∃ o', r'.object? x = some o' := by
  cases o with
  | composite m f =>
    obtain ⟨f', ho'⟩ := h.composite ho
    exact ⟨_, ho'⟩
  | collection m es =>
    obtain ⟨es', ho'⟩ := h.collection ho
    exact ⟨_, ho'⟩

end Lasts

/-- A value denotes what it did if what it refers to lasts. -/
theorem Denotes.lasts {v : Value} (h : r.Denotes v)
    (hlasts : ∀ x, v.object? = some x → r.Lasts r' x) : r'.Denotes v := by
  cases v with
  | accessor path => trivial
  | scalar s => trivial
  | composite x =>
    obtain ⟨m, f, ho⟩ := h
    obtain ⟨f', ho'⟩ := (hlasts x rfl).composite ho
    exact ⟨m, f', ho'⟩
  | collection x =>
    obtain ⟨m, es, ho⟩ := h
    obtain ⟨es', ho'⟩ := (hlasts x rfl).collection ho
    exact ⟨m, es', ho'⟩

/-- Every live object lasts. -/
def Preserves (r r' : Repository ts) : Prop :=
  ∀ x o, r.object? x = some o → r.Lasts r' x

namespace Preserves

theorem refl (r : Repository ts) : r.Preserves r := fun x _ _ => .refl r x

theorem trans (h : r.Preserves r') (h' : r'.Preserves r'') : r.Preserves r'' := by
  intro x o ho
  obtain ⟨o', ho'⟩ := (h x o ho).live ho
  exact (h x o ho).trans (h' x o' ho')

theorem denotes (h : r.Preserves r') {v : Value} (hv : r.Denotes v) : r'.Denotes v :=
  hv.lasts fun x hx => by
    obtain ⟨o, ho⟩ := hv.object? hx
    exact h x o ho

/-- An object stays bound to its model. -/
theorem modelOf? (h : r.Preserves r') {id : ObjectId} {n : ModelId} (hid : r.modelOf? id = some n) :
    r'.modelOf? id = some n := by
  obtain ⟨o, ho, rfl⟩ := modelOf?_eq_some_iff.mp hid
  cases o with
  | composite m f =>
    obtain ⟨f', ho'⟩ := (h id _ ho).composite ho
    exact modelOf?_eq_some_iff.mpr ⟨_, ho', rfl⟩
  | collection m es =>
    obtain ⟨es', ho'⟩ := (h id _ ho).collection ho
    exact modelOf?_eq_some_iff.mpr ⟨_, ho', rfl⟩

end Preserves

/-! ## Changes that let every object last -/

theorem Extends.preserves (h : r.Extends r') : r.Preserves r' := fun _ _ ho => {
  composite := fun ho' => ⟨_, h.object?_some ho'⟩
  collection := fun ho' => ⟨_, h.object?_some ho'⟩
  shape := h.shape_ok
  registeredName := h.registeredName ho }

/-- Writing fields and elements lets objects last, since it changes no model. -/
theorem preserves_of_models (hmodels : r'.models = r.models)
    (hcomposite : ∀ {x m f}, r.object? x = some (.composite m f) →
      ∃ f', r'.object? x = some (.composite m f'))
    (hcollection : ∀ {x m es}, r.object? x = some (.collection m es) →
      ∃ es', r'.object? x = some (.collection m es')) : r.Preserves r' := by
  have hmodel : ∀ m, r'.model? m = r.model? m := fun m => by rw [model?, model?, hmodels]
  have hmodelOf : ∀ {x o}, r.object? x = some o → r'.modelOf? x = r.modelOf? x := by
    intro x o ho
    cases o with
    | composite m f =>
      obtain ⟨f', ho'⟩ := hcomposite ho
      simp [Repository.modelOf?, ho, ho', Object.model]
    | collection m es =>
      obtain ⟨es', ho'⟩ := hcollection ho
      simp [Repository.modelOf?, ho, ho', Object.model]
  intro x o ho
  refine ⟨hcomposite, hcollection, fun hs => ?_, ?_⟩
  · obtain ⟨m, es, ho', hm⟩ := shape_eq_ok_iff.mp hs
    obtain ⟨es', hes'⟩ := hcollection ho'
    exact shape_eq_ok_iff.mpr ⟨m, es', hes', by rw [hmodel, hm]⟩
  · unfold registeredName instanceName?
    rw [hmodelOf ho]
    unfold registryOf?
    simp only [hmodel]

theorem preserves_writeField (id : ObjectId) (role : String) (value : Option Value) :
    r.Preserves (r.writeField id role value) :=
  preserves_of_models (models_writeField id role value)
    (fun ho => ⟨_, composite_writeField.mpr ⟨_, ho, rfl⟩⟩)
    fun ho => ⟨_, collection_writeField.mpr ho⟩

theorem preserves_writeElement (id : ObjectId) (index : Nat) (value : Value) :
    r.Preserves (r.writeElement id index value) :=
  preserves_of_models (models_writeElement id index value)
    (fun ho => ⟨_, composite_writeElement.mpr ho⟩)
    fun ho => ⟨_, collection_writeElement.mpr ⟨_, ho, rfl⟩⟩

/-- A change of a datatype lets an object last if the registry has it under the same path. -/
theorem lasts_mapDatatype {k : ModelId} {f : Datatype κ → Datatype κ}
    (hf : ∀ d, r.model? k = some (.datatype d) →
      (f d).registry.bind (·.get? x) = d.registry.bind (·.get? x)) :
    r.Lasts (r.mapDatatype k f) x where
  composite ho := ⟨_, ho⟩
  collection ho := ⟨_, ho⟩
  shape hs := by
    obtain ⟨m, es, ho, hm⟩ := shape_eq_ok_iff.mp hs
    exact shape_eq_ok_iff.mpr ⟨m, es, ho, model?_mapDatatype_shape.mpr hm⟩
  registeredName := by
    have hregistry : ∀ m, ((r.mapDatatype k f).registryOf? m).bind (·.get? x) =
        (r.registryOf? m).bind (·.get? x) := by
      intro m
      unfold registryOf?
      rw [model?_mapDatatype]
      split
      · next hm =>
        subst hm
        cases hmodel : r.model? m with
        | none => rfl
        | some model =>
          cases model with
          | shape s => rfl
          | datatype d => exact hf d hmodel
      · rfl
    show (Option.getD (((r.modelOf? x).bind _).bind _) _) = _
    unfold registeredName instanceName?
    cases r.modelOf? x with
    | none => rfl
    | some m => exact congrArg (·.getD "") (hregistry m)

theorem preserves_mapDatatype {k : ModelId} {f : Datatype κ → Datatype κ}
    (hf : ∀ d, (f d).registry = d.registry) : r.Preserves (r.mapDatatype k f) :=
  fun _ _ _ => lasts_mapDatatype fun d _ => by rw [hf d]

/-- A new instance lets every object last. -/
theorem preserves_withInstance (m : ModelId) (f : Table String Value) (path : String) :
    r.Preserves (r.withInstance m f path) := by
  have hkept : ∀ {x o}, r.object? x = some o → (r.withInstance m f path).object? x = some o :=
    object?_withInstance_of_some
  have hadd : r.Preserves (r.addObject (.composite m f)) :=
    preserves_of_models rfl (fun ho => ⟨_, hkept ho⟩) fun ho => ⟨_, hkept ho⟩
  intro x o ho
  refine (hadd x o ho).trans (lasts_mapDatatype fun d _ => ?_)
  show ((d.registry.getD Table.empty).insert r.nextObject path).get? x = _
  rw [Table.get?_insert, if_neg fun h => ne_nextObject ho h.symm]
  cases d.registry with
  | none => rfl
  | some g => rfl

theorem preserves_addTemplate (h : r.WellFormed) (name : String) (kind : κ) :
    r.Preserves (r.addTemplate name kind) := by
  intro x o ho
  have hobject : (r.addTemplate name kind).object? x = r.object? x := by
    rw [object?_addTemplate, if_neg (ne_nextObject ho)]
  have hmodel : ∀ m, m.index < r.models.size →
      (r.addTemplate name kind).model? m = r.model? m := by
    intro m hm
    have hne : m ≠ r.nextModel := by
      rintro rfl
      exact Nat.lt_irrefl _ hm
    rw [model?_addTemplate, if_neg hne]
  refine ⟨fun ho' => ⟨_, hobject.trans ho'⟩, fun ho' => ⟨_, hobject.trans ho'⟩, fun hs => ?_, ?_⟩
  · obtain ⟨m, es, ho', hm⟩ := shape_eq_ok_iff.mp hs
    refine shape_eq_ok_iff.mpr ⟨m, es, hobject.trans ho', ?_⟩
    rw [hmodel m (index_lt_of_model? hm), hm]
  · have hlt := h.model_lt ho
    unfold registeredName instanceName? modelOf? registryOf?
    rw [hobject, ho]
    simp only [Option.map_some, Option.bind_some, hmodel _ hlt]

/-! ## Releases -/

theorem lasts_free {id : ObjectId} (hx : x ≠ id) : r.Lasts (r.free id) x := by
  unfold free
  cases ho : r.object? id with
  | none => exact .refl r x
  | some o =>
    -- First the object leaves the registry, then it is dropped.
    have hunregister : r.Lasts (r.unregister o.model id) x := by
      refine lasts_mapDatatype fun d _ => ?_
      cases d.registry with
      | none => rfl
      | some g =>
        show (g.erase id).get? x = g.get? x
        rw [Table.get?_erase, if_neg fun h => hx h.symm]
    have hobject : ((r.unregister o.model id).dropObject id).object? x =
        (r.unregister o.model id).object? x := by
      rw [object?_dropObject, if_neg hx]
    refine hunregister.trans ⟨fun h => ⟨_, hobject.trans h⟩, fun h => ⟨_, hobject.trans h⟩, ?_, ?_⟩
    · intro s hs
      obtain ⟨m, es, h, hm⟩ := shape_eq_ok_iff.mp hs
      exact shape_eq_ok_iff.mpr ⟨m, es, hobject.trans h, hm⟩
    · unfold registeredName instanceName? modelOf? registryOf?
      rw [hobject]
      rfl

/-- What is not freed lasts. -/
theorem lasts_freeAll {ids : List ObjectId} (hx : x ∉ ids) : r.Lasts (r.freeAll ids) x := by
  induction ids generalizing r with
  | nil => exact .refl r x
  | cons id rest ih =>
    have hne : x ≠ id := fun h => hx (h ▸ List.mem_cons_self)
    have hrest : x ∉ rest := fun h => hx (List.mem_cons_of_mem id h)
    exact (lasts_free hne).trans (ih hrest)

end Metamodel.Repository
