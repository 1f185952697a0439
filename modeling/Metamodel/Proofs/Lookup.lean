import Metamodel.Collection
import Metamodel.Edit
import Metamodel.Release

/-!
# Metamodel.Proofs.Lookup -- what the look-ups find after a change

One equation for each look-up of a repository and each change: `object?` and `model?` are the two
look-ups that all others come down to, and a change of one of them leaves the other alone.
-/

namespace Metamodel

theorem ObjectId.eq_iff {a b : ObjectId} : a = b ↔ a.index = b.index := by
  constructor
  · rintro rfl
    rfl
  · cases a
    cases b
    rintro rfl
    rfl

theorem ModelId.eq_iff {a b : ModelId} : a = b ↔ a.index = b.index := by
  constructor
  · rintro rfl
    rfl
  · cases a
    cases b
    rintro rfl
    rfl

/-! ## Tables -/

namespace Table

variable {κ ν : Type} [DecidableEq κ]

theorem mem_of_find? {k : κ} {v : ν} {es : List (κ × ν)} (h : find? k es = some v) :
    (k, v) ∈ es := by
  induction es with
  | nil => simp [find?] at h
  | cons e rest ih =>
    by_cases he : e.1 = k
    · obtain rfl : e.2 = v := by simpa [find?, he] using h
      subst he
      exact List.mem_cons_self
    · simp only [find?, he, if_false] at h
      exact List.mem_cons_of_mem e (ih h)

theorem mem_of_get? {t : Table κ ν} {k : κ} {v : ν} (h : t.get? k = some v) :
    (k, v) ∈ t.entries :=
  mem_of_find? h

theorem mem_keys_of_get? {t : Table κ ν} {k : κ} {v : ν} (h : t.get? k = some v) : k ∈ t.keys :=
  List.mem_map.mpr ⟨(k, v), mem_of_get? h, rfl⟩

theorem mem_values_of_get? {t : Table κ ν} {k : κ} {v : ν} (h : t.get? k = some v) :
    v ∈ t.values :=
  List.mem_map.mpr ⟨(k, v), mem_of_get? h, rfl⟩

/-- A key is present exactly when the look-up finds something. -/
theorem mem_keys_iff {t : Table κ ν} {k : κ} : k ∈ t.keys ↔ ∃ v, t.get? k = some v := by
  constructor
  · intro h
    cases hk : t.get? k with
    | none => exact ((t.get?_eq_none_iff k).mp hk h).elim
    | some v => exact ⟨v, rfl⟩
  · rintro ⟨v, hv⟩
    exact mem_keys_of_get? hv

/-- With distinct keys every entry is found. -/
theorem get?_of_mem {t : Table κ ν} (h : t.keys.Nodup) {e : κ × ν} (he : e ∈ t.entries) :
    t.get? e.1 = some e.2 := by
  obtain ⟨es⟩ := t
  change (es.map (·.1)).Nodup at h
  change e ∈ es at he
  show find? e.1 es = some e.2
  induction es with
  | nil => simp at he
  | cons d rest ih =>
    simp only [List.map_cons, List.nodup_cons] at h
    rcases List.mem_cons.mp he with rfl | hmem
    · simp [find?]
    · have hne : d.1 ≠ e.1 := fun hd => h.1 (hd ▸ List.mem_map.mpr ⟨e, hmem, rfl⟩)
      simp only [find?, hne, if_false]
      exact ih h.2 hmem

theorem get?_of_mem_values {t : Table κ ν} (h : t.keys.Nodup) {v : ν} (hv : v ∈ t.values) :
    ∃ k, t.get? k = some v := by
  obtain ⟨e, he, rfl⟩ := List.mem_map.mp hv
  exact ⟨e.1, get?_of_mem h he⟩

theorem mem_values_put {k : κ} {v w : ν} {es : List (κ × ν)} (h : w ∈ (put k v es).map (·.2)) :
    w = v ∨ w ∈ es.map (·.2) := by
  induction es with
  | nil => simpa [put] using h
  | cons e rest ih =>
    by_cases he : e.1 = k
    · simp only [put, he, if_true, List.map_cons, List.mem_cons] at h ⊢
      rcases h with rfl | h
      · exact Or.inl rfl
      · exact Or.inr (Or.inr h)
    · simp only [put, he, if_false, List.map_cons, List.mem_cons] at h ⊢
      rcases h with rfl | h
      · exact Or.inr (Or.inl rfl)
      · exact (ih h).imp id Or.inr

theorem mem_values_insert {t : Table κ ν} {k : κ} {v w : ν} (h : w ∈ (t.insert k v).values) :
    w = v ∨ w ∈ t.values :=
  mem_values_put h

theorem mem_values_erase {t : Table κ ν} {k : κ} {w : ν} (h : w ∈ (t.erase k).values) :
    w ∈ t.values := by
  obtain ⟨e, he, rfl⟩ := List.mem_map.mp h
  exact List.mem_map.mpr ⟨e, (List.mem_filter.mp he).1, rfl⟩

variable {es : List (κ × ν)} {k : κ}

/-- What is bound anew goes behind entries that do not bind the key. -/
theorem insert_append (hk : k ∉ es.map (·.1)) (t : Table κ ν) (v : ν) :
    (⟨es ++ t.entries⟩ : Table κ ν).insert k v = ⟨es ++ (t.insert k v).entries⟩ := by
  induction es with
  | nil => rfl
  | cons e rest ih =>
    simp only [List.map_cons, List.mem_cons, not_or] at hk
    have hrest := congrArg Table.entries (ih hk.2)
    simp only [insert] at hrest ⊢
    rw [List.cons_append, put, if_neg (Ne.symm hk.1), hrest, List.cons_append]

/-- A new key goes to the end. -/
theorem insert_eq_append {t : Table κ ν} (hk : k ∉ t.keys) (v : ν) :
    t.insert k v = ⟨t.entries ++ [(k, v)]⟩ := by
  have h := insert_append hk empty v
  simpa [empty, insert, put] using h

theorem erase_append (hk : k ∉ es.map (·.1)) (t : Table κ ν) :
    (⟨es ++ t.entries⟩ : Table κ ν).erase k = ⟨es ++ (t.erase k).entries⟩ := by
  have hkept : es.filter (fun e => decide (e.1 ≠ k)) = es := by
    refine List.filter_eq_self.mpr fun e he => decide_eq_true ?_
    rintro rfl
    exact hk (List.mem_map.mpr ⟨e, he, rfl⟩)
  simp only [erase, List.filter_append, hkept]

end Table

namespace Repository

variable {κ : Type} {ts : TypeSystem κ} {r : Repository ts}

/-! ## Objects -/

theorem index_lt_of_object? {id : ObjectId} {o : Object} (h : r.object? id = some o) :
    id.index < r.objects.size := by
  rcases Nat.lt_or_ge id.index r.objects.size with hlt | hge
  · exact hlt
  · unfold object? at h
    rw [Array.getElem?_eq_none hge] at h
    simp at h

theorem object?_eq_none_of_le {id : ObjectId} (h : r.objects.size ≤ id.index) :
    r.object? id = none := by
  unfold object?
  rw [Array.getElem?_eq_none h]
  rfl

@[simp] theorem object?_empty (id : ObjectId) : (empty ts).object? id = none :=
  object?_eq_none_of_le (Nat.zero_le _)

@[simp] theorem object?_mapDatatype (m : ModelId) (f : Datatype κ → Datatype κ) (id : ObjectId) :
    (r.mapDatatype m f).object? id = r.object? id := rfl

theorem object?_addObject (o : Object) (id : ObjectId) :
    (r.addObject o).object? id = if id = r.nextObject then some o else r.object? id := by
  unfold object? addObject nextObject
  rw [Array.getElem?_push]
  by_cases h : id = ⟨r.objects.size⟩
  · subst h
    simp
  · have hne : id.index ≠ r.objects.size := fun h' => h (ObjectId.eq_iff.mpr h')
    simp [h, hne]

@[simp] theorem object?_addObject_self (o : Object) :
    (r.addObject o).object? r.nextObject = some o := by
  rw [object?_addObject, if_pos rfl]

theorem object?_setObject {id : ObjectId} (h : id.index < r.objects.size) (o : Object)
    (k : ObjectId) :
    (r.setObject id o).object? k = if k = id then some o else r.object? k := by
  unfold object? setObject
  rw [Array.getElem?_setIfInBounds]
  by_cases hk : k = id
  · subst hk
    simp [h]
  · have hne : id.index ≠ k.index := fun h' => hk (ObjectId.eq_iff.mpr h'.symm)
    simp [hk, hne]

theorem object?_dropObject (id k : ObjectId) :
    (r.dropObject id).object? k = if k = id then none else r.object? k := by
  unfold object? dropObject
  rw [Array.getElem?_setIfInBounds]
  by_cases hk : k = id
  · subst hk
    by_cases h : k.index < r.objects.size <;> simp [h]
  · have hne : id.index ≠ k.index := fun h' => hk (ObjectId.eq_iff.mpr h'.symm)
    simp [hk, hne]

theorem object?_writeField (id : ObjectId) (role : String) (value : Option Value) (k : ObjectId) :
    (r.writeField id role value).object? k =
      if k = id then (r.object? k).map fun
        | .composite m fields =>
          .composite m (value.elim (fields.erase role) (fields.insert role))
        | .collection m elements => .collection m elements
      else r.object? k := by
  unfold writeField
  cases h : r.object? id with
  | none =>
    by_cases hk : k = id
    · simp [hk, h]
    · simp [hk]
  | some o =>
    cases o with
    | composite m fields =>
      simp only [object?_setObject (index_lt_of_object? h)]
      by_cases hk : k = id
      · simp [hk, h]
      · simp [hk]
    | collection m elements =>
      by_cases hk : k = id
      · simp [hk, h]
      · simp [hk]

theorem object?_writeElement (id : ObjectId) (index : Nat) (value : Value) (k : ObjectId) :
    (r.writeElement id index value).object? k =
      if k = id then (r.object? k).map fun
        | .composite m fields => .composite m fields
        | .collection m elements => .collection m (elements.insert index value)
      else r.object? k := by
  unfold writeElement
  cases h : r.object? id with
  | none =>
    by_cases hk : k = id
    · simp [hk, h]
    · simp [hk]
  | some o =>
    cases o with
    | composite m fields =>
      by_cases hk : k = id
      · simp [hk, h]
      · simp [hk]
    | collection m elements =>
      simp only [object?_setObject (index_lt_of_object? h)]
      by_cases hk : k = id
      · simp [hk, h]
      · simp [hk]

/-- The composites afterwards are those before, and one of them has got the field. -/
theorem composite_writeField {id x : ObjectId} {role : String} {value : Option Value}
    {m : ModelId} {f' : Table String Value} :
    (r.writeField id role value).object? x = some (.composite m f') ↔
      ∃ f, r.object? x = some (.composite m f) ∧
        f' = if x = id then value.elim (f.erase role) (f.insert role) else f := by
  rw [object?_writeField]
  split
  · cases r.object? x with
    | none => simp
    | some o => cases o <;> simp [and_assoc, eq_comm]
  · simp [eq_comm]

theorem collection_writeField {id x : ObjectId} {role : String} {value : Option Value}
    {m : ModelId} {es : Table Nat Value} :
    (r.writeField id role value).object? x = some (.collection m es) ↔
      r.object? x = some (.collection m es) := by
  rw [object?_writeField]
  split
  · cases r.object? x with
    | none => simp
    | some o => cases o <;> simp
  · rfl

theorem composite_writeElement {id x : ObjectId} {index : Nat} {value : Value} {m : ModelId}
    {f : Table String Value} :
    (r.writeElement id index value).object? x = some (.composite m f) ↔
      r.object? x = some (.composite m f) := by
  rw [object?_writeElement]
  split
  · cases r.object? x with
    | none => simp
    | some o => cases o <;> simp
  · rfl

/-- The collections afterwards are those before, and one of them has got the element. -/
theorem collection_writeElement {id x : ObjectId} {index : Nat} {value : Value} {m : ModelId}
    {es' : Table Nat Value} :
    (r.writeElement id index value).object? x = some (.collection m es') ↔
      ∃ es, r.object? x = some (.collection m es) ∧
        es' = if x = id then es.insert index value else es := by
  rw [object?_writeElement]
  split
  · cases r.object? x with
    | none => simp
    | some o => cases o <;> simp [and_assoc, eq_comm]
  · simp [eq_comm]

@[simp] theorem modelOf?_writeField (id : ObjectId) (role : String) (value : Option Value)
    (k : ObjectId) : (r.writeField id role value).modelOf? k = r.modelOf? k := by
  unfold modelOf?
  rw [object?_writeField]
  split
  · cases r.object? k with
    | none => rfl
    | some o => cases o <;> rfl
  · rfl

@[simp] theorem modelOf?_writeElement (id : ObjectId) (index : Nat) (value : Value)
    (k : ObjectId) : (r.writeElement id index value).modelOf? k = r.modelOf? k := by
  unfold modelOf?
  rw [object?_writeElement]
  split
  · cases r.object? k with
    | none => rfl
    | some o => cases o <;> rfl
  · rfl

/-! ## Models -/

theorem index_lt_of_model? {m : ModelId} {model : Model κ} (h : r.model? m = some model) :
    m.index < r.models.size := by
  unfold model? at h
  exact (Array.getElem?_eq_some_iff.mp h).1

theorem model?_eq_none_of_le {m : ModelId} (h : r.models.size ≤ m.index) : r.model? m = none :=
  Array.getElem?_eq_none h

@[simp] theorem model?_empty (m : ModelId) : (empty ts).model? m = none :=
  model?_eq_none_of_le (Nat.zero_le _)

@[simp] theorem model?_addObject (o : Object) (m : ModelId) :
    (r.addObject o).model? m = r.model? m := rfl

@[simp] theorem models_writeField (id : ObjectId) (role : String) (value : Option Value) :
    (r.writeField id role value).models = r.models := by
  unfold writeField
  split <;> rfl

@[simp] theorem models_writeElement (id : ObjectId) (index : Nat) (value : Value) :
    (r.writeElement id index value).models = r.models := by
  unfold writeElement
  split <;> rfl

@[simp] theorem model?_writeField (id : ObjectId) (role : String) (value : Option Value)
    (m : ModelId) : (r.writeField id role value).model? m = r.model? m := by
  simp [model?]

@[simp] theorem model?_writeElement (id : ObjectId) (index : Nat) (value : Value) (m : ModelId) :
    (r.writeElement id index value).model? m = r.model? m := by
  simp [model?]

theorem model?_addModel (model : Model κ) (m : ModelId) :
    (r.addModel model).model? m = if m = r.nextModel then some model else r.model? m := by
  unfold model? addModel nextModel
  rw [Array.getElem?_push]
  by_cases h : m = ⟨r.models.size⟩
  · subst h
    simp
  · have hne : m.index ≠ r.models.size := fun h' => h (ModelId.eq_iff.mpr h')
    simp [h, hne]

theorem model?_mapDatatype (k : ModelId) (f : Datatype κ → Datatype κ) (m : ModelId) :
    (r.mapDatatype k f).model? m =
      if m = k then (r.model? m).map (Model.mapDatatype f) else r.model? m := by
  unfold model? mapDatatype
  rw [Array.getElem?_modify]
  by_cases h : m = k
  · subst h
    simp
  · have hne : k.index ≠ m.index := fun h' => h (ModelId.eq_iff.mpr h'.symm)
    simp [h, hne]

/-- A change of a datatype leaves every shape as it is. -/
theorem model?_mapDatatype_shape {k : ModelId} {f : Datatype κ → Datatype κ} {m : ModelId}
    {s : Shape} :
    (r.mapDatatype k f).model? m = some (.shape s) ↔ r.model? m = some (.shape s) := by
  rw [model?_mapDatatype]
  split
  · cases h : r.model? m with
    | none => simp
    | some model => cases model <;> simp [Model.mapDatatype]
  · rfl

theorem model?_mapDatatype_datatype {k : ModelId} {f : Datatype κ → Datatype κ} {m : ModelId}
    {d : Datatype κ} :
    (r.mapDatatype k f).model? m = some (.datatype d) ↔
      ∃ d₀, r.model? m = some (.datatype d₀) ∧ d = if m = k then f d₀ else d₀ := by
  rw [model?_mapDatatype]
  split
  · cases h : r.model? m with
    | none => simp
    | some model => cases model <;> simp [Model.mapDatatype, eq_comm]
  · simp [eq_comm]

@[simp] theorem size_models_mapDatatype (k : ModelId) (f : Datatype κ → Datatype κ) :
    (r.mapDatatype k f).models.size = r.models.size := by
  simp [mapDatatype]

@[simp] theorem size_objects_setObject (id : ObjectId) (o : Object) :
    (r.setObject id o).objects.size = r.objects.size := by
  simp [setObject]

@[simp] theorem size_objects_dropObject (id : ObjectId) :
    (r.dropObject id).objects.size = r.objects.size := by
  simp [dropObject]

@[simp] theorem size_objects_writeField (id : ObjectId) (role : String) (value : Option Value) :
    (r.writeField id role value).objects.size = r.objects.size := by
  unfold writeField
  split <;> simp

@[simp] theorem size_objects_writeElement (id : ObjectId) (index : Nat) (value : Value) :
    (r.writeElement id index value).objects.size = r.objects.size := by
  unfold writeElement
  split <;> simp

/-! ## Freed objects -/

theorem object?_free (id k : ObjectId) :
    (r.free id).object? k = if k = id then none else r.object? k := by
  unfold free
  cases h : r.object? id with
  | none =>
    by_cases hk : k = id
    · simp [hk, h]
    · simp [hk]
  | some o => exact object?_dropObject id k

theorem object?_freeAll (ids : List ObjectId) (k : ObjectId) :
    (r.freeAll ids).object? k = if k ∈ ids then none else r.object? k := by
  induction ids generalizing r with
  | nil => simp [freeAll]
  | cons id rest ih =>
    show ((r.free id).freeAll rest).object? k = _
    rw [ih, object?_free]
    by_cases hrest : k ∈ rest
    · simp [hrest]
    · by_cases hid : k = id <;> simp [hrest, hid]

@[simp] theorem size_models_free (id : ObjectId) :
    (r.free id).models.size = r.models.size := by
  unfold free
  split
  · exact size_models_mapDatatype ..
  · rfl

theorem object?_freeAll_eq_some {ids : List ObjectId} {k : ObjectId} {o : Object} :
    (r.freeAll ids).object? k = some o ↔ k ∉ ids ∧ r.object? k = some o := by
  rw [object?_freeAll]
  split
  · next hk => simp [hk]
  · next hk => simp [hk]

/-- Freeing an object takes it out of the registry of its datatype. -/
theorem model?_free (id : ObjectId) (m : ModelId) :
    (r.free id).model? m =
      if r.modelOf? id = some m then
        (r.model? m).map (Model.mapDatatype fun d =>
          { d with registry := d.registry.map (·.erase id) })
      else r.model? m := by
  unfold free modelOf?
  cases ho : r.object? id with
  | none => simp
  | some o =>
    show (r.unregister o.model id).model? m = _
    unfold unregister
    rw [model?_mapDatatype]
    simp [eq_comm]

theorem model?_free_shape {id : ObjectId} {m : ModelId} {s : Shape} :
    (r.free id).model? m = some (.shape s) ↔ r.model? m = some (.shape s) := by
  unfold free
  split
  · exact model?_mapDatatype_shape
  · rfl

theorem model?_free_datatype {id : ObjectId} {m : ModelId} {d : Datatype κ} :
    (r.free id).model? m = some (.datatype d) ↔
      ∃ d₀, r.model? m = some (.datatype d₀) ∧
        d = if r.modelOf? id = some m then
          { d₀ with registry := d₀.registry.map (·.erase id) } else d₀ := by
  rw [model?_free]
  split
  · cases r.model? m with
    | none => simp
    | some model => cases model <;> simp [Model.mapDatatype, eq_comm]
  · simp [eq_comm]

/-- Freeing an object changes no more of a datatype than its registry. -/
theorem datatype_of_free {id : ObjectId} {m : ModelId} {d : Datatype κ}
    (h : (r.free id).model? m = some (.datatype d)) :
    ∃ d₀ g, r.model? m = some (.datatype d₀) ∧ d = { d₀ with registry := g } := by
  obtain ⟨d₀, hd₀, rfl⟩ := model?_free_datatype.mp h
  split
  · exact ⟨d₀, _, hd₀, rfl⟩
  · exact ⟨d₀, d₀.registry, hd₀, rfl⟩

/-! ## New datatypes, collections and instances -/

@[simp] theorem object?_nextObject : r.object? r.nextObject = none :=
  object?_eq_none_of_le (Nat.le_refl r.objects.size)

@[simp] theorem model?_nextModel : r.model? r.nextModel = none :=
  model?_eq_none_of_le (Nat.le_refl r.models.size)

theorem ne_nextObject {id : ObjectId} {o : Object} (h : r.object? id = some o) :
    id ≠ r.nextObject := by
  rintro rfl
  simp at h

theorem ne_nextModel {m : ModelId} {model : Model κ} (h : r.model? m = some model) :
    m ≠ r.nextModel := by
  rintro rfl
  simp at h

/-- The datatype that `addTemplate` adds. -/
def freshDatatype (r : Repository ts) (name : String) (kind : κ) : Datatype κ :=
  ⟨kind, name, none, [], [],
    if ts.isAlias kind then none else some (Table.empty.insert r.nextObject ""), r.nextObject⟩

theorem freshDatatype_registry {name : String} {kind : κ} {g : Registry}
    (h : (r.freshDatatype name kind).registry = some g) :
    g = Table.empty.insert r.nextObject "" := by
  simp only [freshDatatype] at h
  split at h
  · simp at h
  · exact (Option.some.inj h).symm

theorem model?_addTemplate (name : String) (kind : κ) (m : ModelId) :
    (r.addTemplate name kind).model? m =
      if m = r.nextModel then some (.datatype (r.freshDatatype name kind)) else r.model? m :=
  model?_addModel _ m

theorem object?_addTemplate (name : String) (kind : κ) (id : ObjectId) :
    (r.addTemplate name kind).object? id =
      if id = r.nextObject then some (.composite r.nextModel Table.empty) else r.object? id :=
  object?_addObject _ id

theorem model?_addCollection (element : ObjectId) (capacity : Option Nat) (name : String)
    (origin : Origin) (m : ModelId) :
    (r.addCollection element capacity name origin).model? m =
      if m = r.nextModel then some (.shape ⟨name, element, capacity, origin, r.nextObject⟩)
      else r.model? m :=
  model?_addModel _ m

theorem object?_addCollection (element : ObjectId) (capacity : Option Nat) (name : String)
    (origin : Origin) (id : ObjectId) :
    (r.addCollection element capacity name origin).object? id =
      if id = r.nextObject then some (.collection r.nextModel Table.empty) else r.object? id :=
  object?_addObject _ id

@[simp] theorem size_models_addTemplate (name : String) (kind : κ) :
    (r.addTemplate name kind).models.size = r.models.size + 1 :=
  Array.size_push _

@[simp] theorem size_objects_addTemplate (name : String) (kind : κ) :
    (r.addTemplate name kind).objects.size = r.objects.size + 1 :=
  Array.size_push _

@[simp] theorem size_models_addCollection (element : ObjectId) (capacity : Option Nat)
    (name : String) (origin : Origin) :
    (r.addCollection element capacity name origin).models.size = r.models.size + 1 :=
  Array.size_push _

@[simp] theorem size_objects_addCollection (element : ObjectId) (capacity : Option Nat)
    (name : String) (origin : Origin) :
    (r.addCollection element capacity name origin).objects.size = r.objects.size + 1 :=
  Array.size_push _

/-- The repository with a new, registered instance. -/
def withInstance (r : Repository ts) (m : ModelId) (f : Table String Value) (path : String) :
    Repository ts :=
  (r.addObject (.composite m f)).register m r.nextObject path

theorem object?_withInstance (m : ModelId) (f : Table String Value) (path : String)
    (id : ObjectId) :
    (r.withInstance m f path).object? id =
      if id = r.nextObject then some (.composite m f) else r.object? id :=
  object?_addObject _ id

theorem object?_withInstance_of_some {m : ModelId} {f : Table String Value} {path : String}
    {id : ObjectId} {o : Object} (h : r.object? id = some o) :
    (r.withInstance m f path).object? id = some o := by
  rw [object?_withInstance, if_neg (ne_nextObject h), h]

/-- An object is the new instance or was there before. -/
theorem eq_or_of_object?_withInstance {m : ModelId} {f : Table String Value} {path : String}
    {id : ObjectId} {o : Object} (h : (r.withInstance m f path).object? id = some o) :
    id = r.nextObject ∧ o = .composite m f ∨ r.object? id = some o := by
  rw [object?_withInstance] at h
  split at h
  · next hid => exact Or.inl ⟨hid, (Option.some.inj h).symm⟩
  · exact Or.inr h

@[simp] theorem size_objects_withInstance (m : ModelId) (f : Table String Value) (path : String) :
    (r.withInstance m f path).objects.size = r.objects.size + 1 :=
  Array.size_push _

@[simp] theorem size_models_withInstance (m : ModelId) (f : Table String Value) (path : String) :
    (r.withInstance m f path).models.size = r.models.size :=
  size_models_mapDatatype ..

/-- A new instance changes no more of a datatype than its registry. -/
theorem model?_withInstance_datatype {m n : ModelId} {f : Table String Value} {path : String}
    {d : Datatype κ} (h : (r.withInstance m f path).model? n = some (.datatype d)) :
    ∃ d₀ g, r.model? n = some (.datatype d₀) ∧ d = { d₀ with registry := g } := by
  obtain ⟨d₀, hd₀, rfl⟩ := model?_mapDatatype_datatype.mp h
  rw [model?_addObject] at hd₀
  split
  · exact ⟨d₀, _, hd₀, rfl⟩
  · exact ⟨d₀, _, hd₀, rfl⟩

/-- The new instance is registered under its path. -/
theorem registeredName_withInstance {m : ModelId} {d : Datatype κ}
    (hd : r.model? m = some (.datatype d)) (f : Table String Value) (path : String) :
    (r.withInstance m f path).registeredName r.nextObject = path := by
  have hmodel : (r.withInstance m f path).modelOf? r.nextObject = some m := by
    simp [modelOf?, object?_withInstance, Object.model]
  have hregistry : (r.withInstance m f path).registryOf? m =
      some ((d.registry.getD Table.empty).insert r.nextObject path) := by
    unfold registryOf? withInstance register
    rw [model?_mapDatatype, if_pos rfl, model?_addObject, hd]
    rfl
  simp [registeredName, instanceName?, hmodel, hregistry, Table.get?_insert]

/-- Every other object is registered as before. -/
theorem registered_withInstance {m : ModelId} {d : Datatype κ} {f : Table String Value}
    {path : String} (hd : r.model? m = some (.datatype d)) {id : ObjectId}
    (hid : id ≠ r.nextObject) (n : ModelId) :
    ((r.withInstance m f path).registryOf? n).bind (·.get? id) =
      (r.registryOf? n).bind (·.get? id) := by
  unfold registryOf? withInstance register
  rw [model?_mapDatatype, model?_addObject]
  split
  · next hn =>
    subst hn
    rw [hd]
    cases hg : d.registry <;>
      simp [Model.mapDatatype, Model.registry?, Model.datatype?, Table.get?_insert, hg,
        Ne.symm hid]
  · rfl

/-- A new datatype changes the kind of no object. -/
theorem kind?_addTemplate {id : ObjectId} {kind : κ} (h : r.kind? id = some kind) {name : String}
    {new : κ} : (r.addTemplate name new).kind? id = some kind := by
  unfold kind? modelOf? at h ⊢
  cases ho : r.object? id with
  | none => simp [ho] at h
  | some o =>
    rw [object?_addTemplate, if_neg (ne_nextObject ho), ho]
    simp only [ho, Option.map_some, Option.bind_some] at h ⊢
    unfold kindOf? at h ⊢
    cases hm : r.model? o.model with
    | none => simp [hm] at h
    | some model =>
      rw [model?_addTemplate, if_neg (ne_nextModel hm)]
      exact h

/-! ## What an answer says -/

theorem kindOf?_eq_some_iff {m : ModelId} {k : κ} :
    r.kindOf? m = some k ↔ ∃ d, r.model? m = some (.datatype d) ∧ d.kind = k := by
  unfold kindOf?
  cases h : r.model? m with
  | none => simp
  | some model => cases model <;> simp [Model.kind?, Model.datatype?]

theorem template?_datatype {m : ModelId} {d : Datatype κ} (h : r.model? m = some (.datatype d)) :
    r.template? m = some d.template := by
  simp [template?, h, Model.template?]

theorem entriesOf_datatype {m : ModelId} {d : Datatype κ} (h : r.model? m = some (.datatype d)) :
    r.entriesOf m = d.entries := by
  simp [entriesOf, h, Model.entries, Model.datatype?]

/-- A datatype that has just been added declares nothing. -/
theorem entriesOf_addTemplate (name : String) (kind : κ) (m : ModelId) :
    (r.addTemplate name kind).entriesOf m = if m = r.nextModel then [] else r.entriesOf m := by
  rw [entriesOf, model?_addTemplate]
  split
  · simp [freshDatatype, Model.entries, Model.datatype?]
  · rfl

theorem isAlias_datatype {m : ModelId} {d : Datatype κ} (h : r.model? m = some (.datatype d)) :
    r.isAlias m = ts.isAlias d.kind := by
  simp [isAlias, kindOf?, h, Model.kind?, Model.datatype?]

theorem isLeaf_datatype {m : ModelId} {d : Datatype κ} (h : r.model? m = some (.datatype d)) :
    r.isLeaf m = ts.isLeaf d.kind := by
  simp [isLeaf, kindOf?, h, Model.kind?, Model.datatype?]

theorem registryOf?_datatype {m : ModelId} {d : Datatype κ}
    (h : r.model? m = some (.datatype d)) : r.registryOf? m = d.registry := by
  simp [registryOf?, h, Model.registry?, Model.datatype?]

theorem modelOf?_eq_some_iff {id : ObjectId} {m : ModelId} :
    r.modelOf? id = some m ↔ ∃ o, r.object? id = some o ∧ o.model = m := by
  simp [modelOf?]

theorem modelOf?_of_object? {id : ObjectId} {o : Object} (h : r.object? id = some o) :
    r.modelOf? id = some o.model :=
  modelOf?_eq_some_iff.mpr ⟨o, h, rfl⟩

theorem object_eq_ok_iff {id : ObjectId} {o : Object} :
    r.object id = .ok o ↔ r.object? id = some o := by
  unfold object
  cases r.object? id <;> simp

theorem modelOf_eq_ok_iff {id : ObjectId} {m : ModelId} :
    r.modelOf id = .ok m ↔ r.modelOf? id = some m := by
  unfold modelOf modelOf? object
  cases r.object? id <;> simp [Except.map]

theorem modelOf_of_object? {id : ObjectId} {o : Object} (h : r.object? id = some o) :
    r.modelOf id = .ok o.model :=
  modelOf_eq_ok_iff.mpr (modelOf?_of_object? h)

/-- Two datatypes that are found under one model are the same. -/
theorem datatype_unique {m : ModelId} {d e : Datatype κ} (hd : r.model? m = some (.datatype d))
    (he : r.model? m = some (.datatype e)) : d = e :=
  Model.datatype.inj (Option.some.inj (hd.symm.trans he))

/-- Two composites that are found under one object have the same model and fields. -/
theorem composite_unique {id : ObjectId} {m n : ModelId} {f g : Table String Value}
    (hf : r.object? id = some (.composite m f)) (hg : r.object? id = some (.composite n g)) :
    m = n ∧ f = g :=
  Object.composite.inj (Option.some.inj (hf.symm.trans hg))

theorem model_eq_ok_iff {m : ModelId} {model : Model κ} :
    r.model m = .ok model ↔ r.model? m = some model := by
  unfold Repository.model
  cases r.model? m <;> simp

theorem isLive_iff {id : ObjectId} : r.isLive id = true ↔ ∃ o, r.object? id = some o := by
  simp [isLive, Option.isSome_iff_exists]

theorem fields?_eq_some_iff {id : ObjectId} {f : Table String Value} :
    r.fields? id = some f ↔ ∃ m, r.object? id = some (.composite m f) := by
  unfold fields?
  cases h : r.object? id with
  | none => simp
  | some o => cases o <;> simp

theorem field?_eq_some_iff {id : ObjectId} {role : String} {v : Value} :
    r.field? id role = some v ↔
      ∃ m f, r.object? id = some (.composite m f) ∧ f.get? role = some v := by
  rw [field?, Option.bind_eq_some_iff]
  constructor
  · rintro ⟨f, hf, hv⟩
    obtain ⟨m, ho⟩ := fields?_eq_some_iff.mp hf
    exact ⟨m, f, ho, hv⟩
  · rintro ⟨m, f, ho, hv⟩
    exact ⟨f, fields?_eq_some_iff.mpr ⟨m, ho⟩, hv⟩

theorem elements?_eq_some_iff {id : ObjectId} {es : Table Nat Value} :
    r.elements? id = some es ↔ ∃ m, r.object? id = some (.collection m es) := by
  unfold elements?
  cases h : r.object? id with
  | none => simp
  | some o => cases o <;> simp

theorem isCollection_iff {x : ObjectId} :
    r.isCollection x = true ↔ ∃ m es, r.object? x = some (.collection m es) := by
  unfold isCollection
  rw [Option.isSome_iff_exists]
  constructor
  · rintro ⟨es, hes⟩
    obtain ⟨m, ho⟩ := elements?_eq_some_iff.mp hes
    exact ⟨m, es, ho⟩
  · rintro ⟨m, es, ho⟩
    exact ⟨es, elements?_eq_some_iff.mpr ⟨m, ho⟩⟩

theorem fields_eq_ok_iff {id : ObjectId} {f : Table String Value} :
    r.fields id = .ok f ↔ ∃ m, r.object? id = some (.composite m f) := by
  unfold fields
  cases h : r.object? id with
  | none => simp
  | some o => cases o <;> simp

theorem shape_eq_ok_iff {id : ObjectId} {s : Shape} :
    r.shape id = .ok s ↔
      ∃ m es, r.object? id = some (.collection m es) ∧ r.model? m = some (.shape s) := by
  unfold shape
  cases h : r.object? id with
  | none => simp
  | some o =>
    cases o with
    | composite m f => simp
    | collection m es =>
      cases hm : r.model? m with
      | none => simp [hm]
      | some model => cases model <;> simp [hm, Model.shape?]

theorem shape_writeElement {id k : ObjectId} {index : Nat} {value : Value} {s : Shape} :
    (r.writeElement id index value).shape k = .ok s ↔ r.shape k = .ok s := by
  simp only [shape_eq_ok_iff, collection_writeElement, model?_writeElement]
  constructor
  · rintro ⟨m, -, ⟨es, ho, -⟩, hm⟩
    exact ⟨m, es, ho, hm⟩
  · rintro ⟨m, es, ho, hm⟩
    exact ⟨m, _, ⟨es, ho, rfl⟩, hm⟩

theorem elements?_writeElement (id : ObjectId) (index : Nat) (value : Value) (k : ObjectId) :
    (r.writeElement id index value).elements? k =
      (r.elements? k).map fun es => if k = id then es.insert index value else es := by
  simp only [elements?, object?_writeElement]
  cases r.object? k with
  | none => simp
  | some o => cases o <;> by_cases hk : k = id <;> simp [hk]

/-- An element that is found was there before, or is the one that has been written. -/
theorem element_writeElement {id k : ObjectId} {index i : Nat} {value v : Value}
    (h : ((r.writeElement id index value).elements? k).bind (·.get? i) = some v) :
    (r.elements? k).bind (·.get? i) = some v ∨ k = id ∧ i = index ∧ v = value := by
  rw [elements?_writeElement, Option.bind_map] at h
  obtain ⟨es, hes, hget⟩ := Option.bind_eq_some_iff.mp h
  rw [hes, Option.bind_some]
  simp only [Function.comp_apply] at hget
  split at hget
  · next hk =>
    rw [Table.get?_insert] at hget
    split at hget
    · next hi => exact .inr ⟨hk, hi.symm, (Option.some.inj hget).symm⟩
    · exact .inl hget
  · exact .inl hget

theorem kind?_of_assertKind [DecidableEq κ] {expected : κ} {id x : ObjectId}
    (h : r.assertKind expected id = .ok x) : r.kind? id = some expected := by
  unfold assertKind at h
  split at h
  · next kind hkind =>
    split at h
    · next heq => rw [hkind, heq]
    · simp at h
  · simp at h

/-- An accepted template is a composite of a kind that may have instances. -/
theorem assertTemplateKind_eq_ok_iff {id x : ObjectId} :
    r.assertTemplateKind id = .ok x ↔
      x = id ∧ ∃ m f d, r.object? id = some (.composite m f) ∧ r.model? m = some (.datatype d) ∧
        ts.isTemplate d.kind = true := by
  unfold assertTemplateKind
  cases h : r.object? id with
  | none => simp
  | some o =>
    cases o with
    | collection m es => simp
    | composite m f =>
      cases hm : r.model? m with
      | none => simp [kindOf?, hm]
      | some model =>
        cases model with
        | shape s => simp [kindOf?, hm, Model.kind?, Model.datatype?]
        | datatype d =>
          by_cases hk : ts.isTemplate d.kind = true
          · simp [kindOf?, hm, Model.kind?, Model.datatype?, hk, @eq_comm _ x id]
          · simp [kindOf?, hm, Model.kind?, Model.datatype?, hk]

theorem assertQualifiers_eq_ok_iff {qs : List Qualifier} :
    r.assertQualifiers qs = .ok () ↔ ∀ q ∈ qs, r.isQualifier q = true := by
  unfold assertQualifiers
  cases h : qs.find? fun q => !r.isQualifier q with
  | none => simpa [List.find?_eq_none] using h
  | some q =>
    have hq : r.isQualifier q = false := by simpa using List.find?_some h
    simp only [reduceCtorEq, false_iff]
    exact fun hall => by simp [hall q (List.mem_of_find?_eq_some h)] at hq

/-- A canonical template is the template of the datatype that it is bound to. -/
theorem canonicalModel_eq_ok_iff {id : ObjectId} {m : ModelId} :
    r.canonicalModel id = .ok m ↔
      r.modelOf? id = some m ∧ ∃ d, r.model? m = some (.datatype d) ∧ d.template = id := by
  constructor
  · intro h
    unfold canonicalModel at h
    cases hk : r.modelOf id with
    | error e => simp [hk, bind, Except.bind] at h
    | ok k =>
      simp only [hk, bind, Except.bind] at h
      split at h
      · simp at h
      · next hc =>
        obtain rfl : k = m := by simpa using h
        simp only [Bool.or_eq_true, not_or, Bool.not_eq_true, Option.isNone_eq_false_iff,
          bne_eq_false_iff_eq, Option.isSome_iff_exists] at hc
        obtain ⟨⟨kind, hkind⟩, ht⟩ := hc
        obtain ⟨d, hd, -⟩ := kindOf?_eq_some_iff.mp hkind
        rw [template?_datatype hd] at ht
        exact ⟨modelOf_eq_ok_iff.mp hk, d, hd, Option.some.inj ht⟩
  · rintro ⟨hm, d, hd, ht⟩
    have hkind : r.kindOf? m = some d.kind := kindOf?_eq_some_iff.mpr ⟨d, hd, rfl⟩
    have htemplate : r.template? m = some id := ht ▸ template?_datatype hd
    simp [canonicalModel, modelOf_eq_ok_iff.mpr hm, bind, Except.bind, hkind, htemplate]

/-- The kind of what a template is canonical for. -/
theorem kindOf?_of_canonicalModel {id : ObjectId} {m : ModelId} (h : r.canonicalModel id = .ok m) :
    r.kindOf? m = r.kind? id := by
  rw [kind?, (canonicalModel_eq_ok_iff.mp h).1, Option.bind_some]

end Repository

end Metamodel
