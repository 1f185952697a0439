import Metamodel.Instance
import Metamodel.Proofs.Ensures
import Metamodel.Proofs.WellFormed

/-!
# Metamodel.Proofs.Growth -- making instances only adds

`r.Extends r'` says that `r'` is `r` with composites and collections added: every object of `r` is
as it was, every datatype has only got new entries in its registry, and the new objects hold new
objects only, no two of them the same one. Main statement: whatever `newInstance`, `cloneValue` and
`createRoleInstance` are given, and however they end, they extend a well-formed repository to a
well-formed one, and what they answer is held by no new object.
-/

namespace Metamodel

/-- The values that an object holds, in the order of its roles or elements. -/
def Object.values : Object → List Value
  | .composite _ fields => fields.values
  | .collection _ elements => elements.values

theorem Object.mem_held_iff {o : Object} {x : ObjectId} :
    x ∈ o.held ↔ ∃ v ∈ o.values, v.object? = some x := by
  cases o <;> simp [Object.held, Object.values]

namespace Repository

variable {κ : Type} {ts : TypeSystem κ} {r r' r'' : Repository ts}

/-- The value is a leaf, or it refers to a live object of the sort that it says. -/
def Denotes (r : Repository ts) : Value → Prop
  | .composite id => ∃ m f, r.object? id = some (.composite m f)
  | .collection id => ∃ m es, r.object? id = some (.collection m es)
  | _ => True

theorem Denotes.object? {v : Value} (h : r.Denotes v) {x : ObjectId} (hx : v.object? = some x) :
    ∃ o, r.object? x = some o := by
  cases v with
  | accessor path => simp [Value.object?] at hx
  | scalar s => simp [Value.object?] at hx
  | composite id =>
    obtain ⟨m, f, ho⟩ := h
    obtain rfl : id = x := by simpa [Value.object?] using hx
    exact ⟨_, ho⟩
  | collection id =>
    obtain ⟨m, es, ho⟩ := h
    obtain rfl : id = x := by simpa [Value.object?] using hx
    exact ⟨_, ho⟩

theorem Denotes.index_lt {v : Value} (h : r.Denotes v) {x : ObjectId} (hx : v.object? = some x) :
    x.index < r.objects.size := by
  obtain ⟨o, ho⟩ := h.object? hx
  exact index_lt_of_object? ho

theorem Denotes.mono {v : Value} (h : r.Denotes v)
    (hobject : ∀ id o, r.object? id = some o → r'.object? id = some o) : r'.Denotes v := by
  cases v with
  | accessor path => trivial
  | scalar s => trivial
  | composite id =>
    obtain ⟨m, f, ho⟩ := h
    exact ⟨m, f, hobject id _ ho⟩
  | collection id =>
    obtain ⟨m, es, ho⟩ := h
    exact ⟨m, es, hobject id _ ho⟩

/-- `r'` is `r` with composites and collections added. -/
structure Extends (r r' : Repository ts) : Prop where
  objects_le : r.objects.size ≤ r'.objects.size
  models_le : r.models.size ≤ r'.models.size
  /-- Every object is as it was. -/
  object? : ∀ {id}, id.index < r.objects.size → r'.object? id = r.object? id
  /-- Every shape is as it was. -/
  shape : ∀ {m s}, r.model? m = some (.shape s) → r'.model? m = some (.shape s)
  /-- Every datatype is as it was, but for its registry. -/
  datatype : ∀ {m d}, r.model? m = some (.datatype d) →
    ∃ g, r'.model? m = some (.datatype { d with registry := g })
  /-- No datatype is new. -/
  datatype_old : ∀ {m d}, r'.model? m = some (.datatype d) → m.index < r.models.size
  /-- Every object that was there is registered under the path that it had. -/
  registered : ∀ {m id}, id.index < r.objects.size →
    (r'.registryOf? m).bind (·.get? id) = (r.registryOf? m).bind (·.get? id)
  /-- Every new number is that of an object. -/
  live_new : ∀ {a}, r.objects.size ≤ a.index → a.index < r'.objects.size → r'.isLive a = true
  /-- No element of a new collection has been made. -/
  empty_new : ∀ {a m es}, r'.object? a = some (.collection m es) → r.objects.size ≤ a.index →
    es = Table.empty
  /-- What a new object holds is new and denotes. -/
  held_new : ∀ {a o v}, r'.object? a = some o → r.objects.size ≤ a.index → v ∈ o.values →
    (∀ x, v.object? = some x → r.objects.size ≤ x.index) ∧ r'.Denotes v
  /-- No two new objects hold the same object. -/
  held_once : ∀ {a b o p x}, r'.object? a = some o → r'.object? b = some p →
    r.objects.size ≤ a.index → r.objects.size ≤ b.index → x ∈ o.held → x ∈ p.held → a = b

namespace Extends

theorem refl (r : Repository ts) : r.Extends r where
  objects_le := Nat.le_refl _
  models_le := Nat.le_refl _
  object? _ := rfl
  shape h := h
  datatype {_ d} h := ⟨d.registry, h⟩
  datatype_old h := index_lt_of_model? h
  registered _ := rfl
  live_new hle hlt := by omega
  empty_new ha hle := by
    have := index_lt_of_object? ha
    omega
  held_new h hle := by
    have := index_lt_of_object? h
    omega
  held_once h _ hle := by
    have := index_lt_of_object? h
    omega

/-- Live objects stay what they are. -/
theorem object?_some (h : r.Extends r') {id : ObjectId} {o : Object} (ho : r.object? id = some o) :
    r'.object? id = some o := by
  rw [h.object? (index_lt_of_object? ho), ho]

/-- What comes next is not among the objects that were there. -/
theorem ne_nextObject (h : r.Extends r') {id : ObjectId} (hid : id.index < r.objects.size) :
    id ≠ r'.nextObject := by
  rintro rfl
  exact Nat.not_le_of_lt hid h.objects_le

theorem denotes (h : r.Extends r') {v : Value} (hv : r.Denotes v) : r'.Denotes v :=
  hv.mono fun _ _ ho => h.object?_some ho

/-- An object was there before, as it is, or is new. -/
theorem old_or_new (h : r.Extends r') {a : ObjectId} {o : Object} (ha : r'.object? a = some o) :
    r.object? a = some o ∨ r.objects.size ≤ a.index := by
  rcases Nat.lt_or_ge a.index r.objects.size with hlt | hge
  · rw [h.object? hlt] at ha
    exact Or.inl ha
  · exact Or.inr hge

/-- What a new object holds is younger than every object that was there. -/
theorem not_mem_held (h : r.Extends r') {a x : ObjectId} {o : Object}
    (ha : r'.object? a = some o) (hle : r.objects.size ≤ a.index) (hx : x.index < r.objects.size) :
    x ∉ o.held := by
  intro hmem
  obtain ⟨v, hv, hvx⟩ := Object.mem_held_iff.mp hmem
  have := (h.held_new ha hle hv).1 x hvx
  omega

theorem trans (h : r.Extends r') (h' : r'.Extends r'') : r.Extends r'' where
  objects_le := Nat.le_trans h.objects_le h'.objects_le
  models_le := Nat.le_trans h.models_le h'.models_le
  object? := by
    intro id hid
    rw [h'.object? (Nat.lt_of_lt_of_le hid h.objects_le), h.object? hid]
  shape hs := h'.shape (h.shape hs)
  datatype := by
    intro m d hd
    obtain ⟨g, hg⟩ := h.datatype hd
    obtain ⟨g', hg'⟩ := h'.datatype hg
    exact ⟨g', hg'⟩
  datatype_old := by
    intro m d hd
    have hlt := h'.datatype_old hd
    obtain ⟨model, hm⟩ : ∃ model, r'.model? m = some model := by
      simp [model?, hlt]
    cases model with
    | datatype d' => exact h.datatype_old hm
    | shape s =>
      rw [h'.shape hm] at hd
      simp at hd
  registered := by
    intro m id hid
    rw [h'.registered (Nat.lt_of_lt_of_le hid h.objects_le), h.registered hid]
  live_new := by
    intro a hle hlt
    rcases Nat.lt_or_ge a.index r'.objects.size with hold | hnew
    · obtain ⟨o, ho⟩ := isLive_iff.mp (h.live_new hle hold)
      exact isLive_iff.mpr ⟨o, h'.object?_some ho⟩
    · exact h'.live_new hnew hlt
  empty_new := by
    intro a m es ha hle
    rcases h'.old_or_new ha with hold | hge
    · exact h.empty_new hold hle
    · exact h'.empty_new ha hge
  held_new := by
    intro a o v ha hle hv
    rcases h'.old_or_new ha with hold | hge
    · obtain ⟨hnew, hdenotes⟩ := h.held_new hold hle hv
      exact ⟨hnew, h'.denotes hdenotes⟩
    · obtain ⟨hnew, hdenotes⟩ := h'.held_new ha hge hv
      exact ⟨fun x hx => Nat.le_trans h.objects_le (hnew x hx), hdenotes⟩
  held_once := by
    intro a b o p x ha hb hale hble hxo hxp
    -- An object of the second part holds nothing of the first one.
    have hcross : ∀ {a b o p}, r'.object? a = some o → r''.object? b = some p →
        r.objects.size ≤ a.index → r'.objects.size ≤ b.index → x ∈ o.held → x ∉ p.held := by
      intro a b o p ha hb hale hbge hxo
      obtain ⟨v, hv, hvx⟩ := Object.mem_held_iff.mp hxo
      exact h'.not_mem_held hb hbge ((h.held_new ha hale hv).2.index_lt hvx)
    rcases h'.old_or_new ha with haold | hage
    · rcases h'.old_or_new hb with hbold | hbge
      · exact h.held_once haold hbold hale hble hxo hxp
      · exact (hcross haold hb hale hbge hxo hxp).elim
    · rcases h'.old_or_new hb with hbold | hbge
      · exact (hcross hbold ha hble hage hxp hxo).elim
      · exact h'.held_once ha hb hage hbge hxo hxp

/-! ## What stays the same -/

theorem modelOf? (h : r.Extends r') {id : ObjectId} (hid : id.index < r.objects.size) :
    r'.modelOf? id = r.modelOf? id := by
  simp [Repository.modelOf?, h.object? hid]

/-- Each datatype afterwards was there, with another registry. -/
theorem datatype_of (h : r.Extends r') {m : ModelId} {d' : Datatype κ}
    (hd : r'.model? m = some (.datatype d')) :
    ∃ d g, r.model? m = some (.datatype d) ∧ d' = { d with registry := g } := by
  obtain ⟨model, hm⟩ : ∃ model, r.model? m = some model := by
    simp [Repository.model?, h.datatype_old hd]
  cases model with
  | shape s =>
    rw [h.shape hm] at hd
    simp at hd
  | datatype d =>
    obtain ⟨g, hg⟩ := h.datatype hm
    rw [hg] at hd
    exact ⟨d, g, hm, (Model.datatype.inj (Option.some.inj hd)).symm⟩

theorem shape_ok (h : r.Extends r') {id : ObjectId} {s : Shape} (hs : r.shape id = .ok s) :
    r'.shape id = .ok s := by
  rw [shape_eq_ok_iff] at hs ⊢
  obtain ⟨m, es, ho, hm⟩ := hs
  exact ⟨m, es, h.object?_some ho, h.shape hm⟩

theorem elements? (h : r.Extends r') {id : ObjectId} (hid : id.index < r.objects.size) :
    r'.elements? id = r.elements? id := by
  simp only [Repository.elements?, h.object? hid]

/-- Every element was there before. -/
theorem element_old (h : r.Extends r') {id : ObjectId} {index : Nat} {v : Value}
    (hv : (r'.elements? id).bind (·.get? index) = some v) :
    id.index < r.objects.size ∧ (r.elements? id).bind (·.get? index) = some v := by
  rcases Nat.lt_or_ge id.index r.objects.size with hold | hnew
  · exact ⟨hold, by rwa [h.elements? hold] at hv⟩
  · obtain ⟨es, hes, hget⟩ := Option.bind_eq_some_iff.mp hv
    obtain ⟨m, ho⟩ := elements?_eq_some_iff.mp hes
    obtain rfl := h.empty_new ho hnew
    simp at hget

theorem registeredName (h : r.Extends r') {id : ObjectId} {o : Object}
    (ho : r.object? id = some o) : r'.registeredName id = r.registeredName id := by
  have hid := index_lt_of_object? ho
  simp [Repository.registeredName, Repository.instanceName?, Repository.modelOf?,
    h.object? hid, ho, h.registered hid]

/-- What is made is no template, since templates are only made with their datatypes. -/
theorem noTemplate (h : r.Extends r') (hr : r.WellFormed) {x : ObjectId}
    (hx : r.objects.size ≤ x.index) : r'.NoTemplate x := by
  rintro m d' hd' rfl
  obtain ⟨d, g, hd, rfl⟩ := h.datatype_of hd'
  exact Nat.not_le_of_lt (hr.template_lt hd) hx

end Extends

/-! ## Values that nothing holds -/

/-- A value that has been made since `r`: what it refers to is new, and no new object holds it. -/
structure Loose (r r' : Repository ts) (v : Value) : Prop where
  new : ∀ x, v.object? = some x → r.objects.size ≤ x.index
  denotes : r'.Denotes v
  free : ∀ {a o x}, r'.object? a = some o → r.objects.size ≤ a.index → v.object? = some x →
    x ∉ o.held

namespace Loose

theorem of_leaf {v : Value} (hv : v.object? = none) : Loose r r' v where
  new x hx := by simp [hv] at hx
  denotes := by cases v <;> simp_all [Value.object?, Denotes]
  free _ _ hx := by simp [hv] at hx

/-- What is made later does not hold what was loose before. -/
theorem extend {v : Value} (h : Loose r r' v) (h' : r'.Extends r'') : Loose r r'' v where
  new := h.new
  denotes := h'.denotes h.denotes
  free := by
    intro a o x ha hle hx
    rcases h'.old_or_new ha with hold | hge
    · exact h.free hold hle hx
    · exact h'.not_mem_held ha hge (h.denotes.index_lt hx)

/-- What is loose since a later repository is loose since an earlier one. -/
theorem since {v : Value} (h : r.Extends r') (h' : Loose r' r'' v) (hext : r'.Extends r'') :
    Loose r r'' v where
  new x hx := Nat.le_trans h.objects_le (h'.new x hx)
  denotes := h'.denotes
  free := by
    intro a o x ha hle hx hmem
    rcases hext.old_or_new ha with hold | hge
    · obtain ⟨w, hw, hwx⟩ := Object.mem_held_iff.mp hmem
      have := (h.held_new hold hle hw).2.index_lt hwx
      have := h'.new x hx
      omega
    · exact h'.free ha hge hx hmem

theorem noTemplate {v : Value} (h : Loose r r' v) (hr : r.WellFormed) (hext : r.Extends r')
    {x : ObjectId} (hx : v.object? = some x) : r'.NoTemplate x :=
  hext.noTemplate hr (h.new x hx)

end Loose

/-! ## Additions -/

theorem extends_addCollection (r : Repository ts) (element : ObjectId) (capacity : Option Nat)
    (name : String) (origin : Origin) :
    r.Extends (r.addCollection element capacity name origin) where
  objects_le := by simp
  models_le := by simp
  object? := by
    intro id hid
    have hne : id ≠ r.nextObject := by
      rintro rfl
      exact Nat.lt_irrefl _ hid
    rw [object?_addCollection, if_neg hne]
  shape hs := by rw [model?_addCollection, if_neg (ne_nextModel hs), hs]
  datatype {_ d} hd := ⟨d.registry, by rw [model?_addCollection, if_neg (ne_nextModel hd), hd]⟩
  datatype_old := by
    intro m d hd
    rw [model?_addCollection] at hd
    split at hd
    · simp at hd
    · exact index_lt_of_model? hd
  registered := by
    intro m id _
    unfold registryOf?
    rw [model?_addCollection]
    split
    · next hm =>
      subst hm
      simp [Model.registry?, Model.datatype?]
    · rfl
  live_new := by
    intro a hle hlt
    rw [size_objects_addCollection] at hlt
    obtain rfl : a = r.nextObject :=
      ObjectId.eq_iff.mpr (Nat.le_antisymm (Nat.le_of_lt_succ hlt) hle)
    exact isLive_iff.mpr ⟨_, by rw [object?_addCollection, if_pos rfl]⟩
  empty_new := by
    intro a m es ha hle
    rw [object?_addCollection] at ha
    split at ha
    · exact (Object.collection.inj (Option.some.inj ha)).2.symm
    · have := index_lt_of_object? ha
      omega
  held_new := by
    intro a o v ha hle hv
    rw [object?_addCollection] at ha
    split at ha
    · obtain rfl := Option.some.inj ha
      simp [Object.values, Table.values, Table.empty] at hv
    · have := index_lt_of_object? ha
      omega
  held_once := by
    intro a b o p x ha _ hle _ hx _
    rw [object?_addCollection] at ha
    split at ha
    · obtain rfl := Option.some.inj ha
      simp [Object.held, Table.values, Table.empty] at hx
    · have := index_lt_of_object? ha
      omega

/-- An instance that is made of loose values extends the repository. -/
theorem Extends.withInstance (h : r.Extends r') {m : ModelId} {d : Datatype κ}
    {f : Table String Value} (path : String) (hd : r'.model? m = some (.datatype d))
    (hf : ∀ v ∈ f.values, Loose r r' v) : r.Extends (r'.withInstance m f path) where
  objects_le := by
    rw [size_objects_withInstance]
    exact Nat.le_succ_of_le h.objects_le
  models_le := by
    rw [size_models_withInstance]
    exact h.models_le
  object? := by
    intro id hid
    rw [object?_withInstance, if_neg (h.ne_nextObject hid), h.object? hid]
  shape hs := model?_mapDatatype_shape.mpr (h.shape hs)
  datatype := by
    intro k e he
    obtain ⟨g, hg⟩ := h.datatype he
    by_cases hk : k = m
    · exact ⟨_, model?_mapDatatype_datatype.mpr ⟨_, hg, by rw [if_pos hk]⟩⟩
    · exact ⟨_, model?_mapDatatype_datatype.mpr ⟨_, hg, by rw [if_neg hk]⟩⟩
  datatype_old := by
    intro k e he
    obtain ⟨e₀, g, he₀, -⟩ := model?_withInstance_datatype he
    exact h.datatype_old he₀
  registered := by
    intro k id hid
    rw [registered_withInstance hd (h.ne_nextObject hid), h.registered hid]
  live_new := by
    intro a hle hlt
    rw [size_objects_withInstance] at hlt
    rcases Nat.lt_or_ge a.index r'.objects.size with hold | hnew
    · obtain ⟨o, ho⟩ := isLive_iff.mp (h.live_new hle hold)
      exact isLive_iff.mpr ⟨o, object?_withInstance_of_some ho⟩
    · obtain rfl : a = r'.nextObject :=
        ObjectId.eq_iff.mpr (Nat.le_antisymm (Nat.le_of_lt_succ hlt) hnew)
      exact isLive_iff.mpr ⟨_, by rw [object?_withInstance, if_pos rfl]⟩
  empty_new := by
    intro a k es ha hle
    rcases eq_or_of_object?_withInstance ha with ⟨-, hcomposite⟩ | ha
    · simp at hcomposite
    · exact h.empty_new ha hle
  held_new := by
    intro a o v ha hle hv
    have hkept : ∀ id o, r'.object? id = some o →
        (r'.withInstance m f path).object? id = some o :=
      fun _ _ ho => object?_withInstance_of_some ho
    rcases eq_or_of_object?_withInstance ha with ⟨-, rfl⟩ | ha
    · exact ⟨(hf v hv).new, (hf v hv).denotes.mono hkept⟩
    · obtain ⟨hx, hdenotes⟩ := h.held_new ha hle hv
      exact ⟨hx, hdenotes.mono hkept⟩
  held_once := by
    intro a b o p x ha hb hale hble hxo hxp
    -- What the new instance holds was loose, so that no other object holds it.
    have hcross : ∀ {b p}, r'.object? b = some p → r.objects.size ≤ b.index →
        x ∈ (Object.composite m f).held → x ∉ p.held := by
      intro b p hb hble hxf
      obtain ⟨v, hv, hvx⟩ := Object.mem_held_iff.mp hxf
      exact (hf v hv).free hb hble hvx
    rcases eq_or_of_object?_withInstance ha with ⟨rfl, rfl⟩ | ha
    · rcases eq_or_of_object?_withInstance hb with ⟨rfl, -⟩ | hb
      · rfl
      · exact (hcross hb hble hxo hxp).elim
    · rcases eq_or_of_object?_withInstance hb with ⟨rfl, rfl⟩ | hb
      · exact (hcross ha hale hxp hxo).elim
      · exact h.held_once ha hb hale hble hxo hxp

/-- Nothing holds a new instance, not even itself. -/
theorem Extends.loose_withInstance (h : r.Extends r') {m : ModelId} {f : Table String Value}
    (path : String) (hf : ∀ v ∈ f.values, Loose r r' v) :
    Loose r (r'.withInstance m f path) (.composite r'.nextObject) where
  new := by
    intro x hx
    obtain rfl : r'.nextObject = x := by simpa [Value.object?] using hx
    exact h.objects_le
  denotes := ⟨m, f, by rw [object?_withInstance, if_pos rfl]⟩
  free := by
    intro a o x ha hle hx hmem
    obtain rfl : r'.nextObject = x := by simpa [Value.object?] using hx
    obtain ⟨v, hv, hvx⟩ := Object.mem_held_iff.mp hmem
    rcases eq_or_of_object?_withInstance ha with ⟨-, rfl⟩ | ha
    · exact Nat.lt_irrefl _ ((hf v hv).denotes.index_lt hvx)
    · exact Nat.lt_irrefl _ ((h.held_new ha hle hv).2.index_lt hvx)

end Repository

namespace Step

open Repository (Loose)

variable {κ : Type} {ts : TypeSystem κ} {r : Repository ts}

/-! ## Collections -/

/-- `r'` is well formed and extends `r`. -/
def Grew (r r' : Repository ts) : Prop := r'.WellFormed ∧ r.Extends r'

theorem Grew.trans {r' r'' : Repository ts} (h : Grew r r') (h' : Grew r' r'') : Grew r r'' :=
  ⟨h'.1, h.2.trans h'.2⟩

theorem grew_refl (h : r.WellFormed) : Grew r r := ⟨h, .refl r⟩

/-- No composite of `r'` is newer than `r`. -/
def OldComposites (r r' : Repository ts) : Prop :=
  ∀ a m f, r'.object? a = some (.composite m f) → a.index < r.objects.size

/-- A step that makes a collection, perhaps with others inside, or does nothing. -/
def MakesCollection (x : Step ts ObjectId) (r : Repository ts) : Prop :=
  x.Ensures r (fun id r' => Grew r r' ∧ Loose r r' (.collection id) ∧ OldComposites r r')
    fun _ r' => r' = r

theorem buildCollection_ensures (h : r.WellFormed) {element : ObjectId} (capacity : Option Nat)
    (name : String) {origin : Origin} (helement : element.index < r.objects.size)
    (hsource : ∀ source, origin = .derived source → source.index < r.objects.size) :
    (buildCollection element capacity name origin).Ensures r
      (fun id r' => Grew r r' ∧ Loose r r' (.collection id) ∧ OldComposites r r' ∧
        r'.shape id = .ok ⟨name, element, capacity, origin, id⟩) fun _ _ => False := by
  simp only [buildCollection, ensures_bind, ensures_ask, ensures_edit, ensures_pure]
  have hobject := fun id => r.object?_addCollection element capacity name origin id
  refine ⟨⟨h.addCollection capacity name helement hsource, r.extends_addCollection ..⟩,
    ⟨?_, ?_, ?_⟩, ?_, ?_⟩
  · intro x hx
    obtain rfl : r.nextObject = x := by simpa [Value.object?] using hx
    exact Nat.le_refl _
  · exact ⟨r.nextModel, Table.empty, by rw [hobject, if_pos rfl]⟩
  · intro a o x ha hle hx
    rw [hobject] at ha
    split at ha
    · obtain rfl := Option.some.inj ha
      simp [Object.held, Table.values, Table.empty]
    · have := Repository.index_lt_of_object? ha
      omega
  · intro a m f ha
    rw [hobject] at ha
    split at ha
    · simp at ha
    · exact Repository.index_lt_of_object? ha
  · rw [Repository.shape_eq_ok_iff]
    exact ⟨r.nextModel, Table.empty, by rw [hobject, if_pos rfl],
      by rw [r.model?_addCollection, if_pos rfl]⟩

theorem checkContent_eq_ok {id : ObjectId} {u : Unit} (h : r.checkContent id = .ok u) :
    ∃ o, r.object? id = some o := by
  unfold Repository.checkContent at h
  cases ho : r.object? id with
  | none => simp [ho] at h
  | some o => exact ⟨o, rfl⟩

theorem capacities_ne_nil {q : Qualifier} {cs : List (Option Nat)}
    (h : r.capacities q = .ok cs) : cs ≠ [] := by
  have hbounds : ∃ b bs, q.bounds = b :: bs := by
    unfold Qualifier.bounds
    split
    · exact ⟨_, _, rfl⟩
    · next hd => exact List.exists_cons_of_ne_nil hd
  obtain ⟨b, bs, hbs⟩ := hbounds
  unfold Repository.capacities at h
  rw [hbs, List.mapM_cons] at h
  rintro rfl
  cases hb : r.resolveBound b with
  | error e => simp [hb, bind, Except.bind] at h
  | ok c =>
    cases hcs : bs.mapM r.resolveBound with
    | error e => simp [hb, hcs, bind, Except.bind] at h
    | ok cs =>
      simp only [hb, hcs, bind, Except.bind, pure, Except.pure] at h
      split at h <;> simp at h

theorem newCollection_makes (h : r.WellFormed) (content : ObjectId) (bound : Bound)
    (name : String) (owned : Bool) :
    MakesCollection (newCollection content bound name owned) r := by
  simp only [MakesCollection, newCollection, ensures_bind, ensures_query]
  refine ⟨fun _ hcontent => ⟨fun capacity _ => ?_, fun _ _ => trivial⟩, fun _ _ => trivial⟩
  obtain ⟨o, ho⟩ := checkContent_eq_ok hcontent
  refine (buildCollection_ensures h capacity name (Repository.index_lt_of_object? ho) ?_).imp
    (fun _ _ h => ⟨h.1, h.2.1, h.2.2.1⟩) fun _ _ h => h.elim
  intro source hsource
  cases owned <;> simp [builtOrigin] at hsource

/-- A copy of a collection has the shape of the source, under the path. -/
theorem copyCollection_ensures (h : r.WellFormed) {source : ObjectId} {s : Shape}
    (hs : r.shape source = .ok s) (under : String) (owned : Bool) :
    (copyCollection source under owned).Ensures r
      (fun id r' => Grew r r' ∧ Loose r r' (.collection id) ∧ OldComposites r r' ∧
        ∃ t, r'.shape id = .ok t ∧ t.name = Path.join under s.name ∧ t.element = s.element ∧
          t.capacity = s.capacity) fun _ _ => False := by
  simp only [copyCollection, ensures_bind, ensures_query]
  refine ⟨fun s' hs' => ?_, fun e he => by simp [hs] at he⟩
  obtain rfl : s = s' := Except.ok.inj (hs.symm.trans hs')
  obtain ⟨m, es, ho, -⟩ := Repository.shape_eq_ok_iff.mp hs
  have hlt := Repository.index_lt_of_object? ho
  refine (buildCollection_ensures h s.capacity _ ?_ ?_).imp ?_ fun _ _ h => h
  · exact Nat.lt_trans (h.element_lt hs) hlt
  · intro source' hsource
    cases owned with
    | true => simp at hsource
    | false =>
      obtain rfl : source = source' := by simpa using hsource
      exact hlt
  · rintro id r' ⟨hgrew, hloose, hold, hshape⟩
    exact ⟨hgrew, hloose, hold, _, hshape, rfl, rfl, rfl⟩

theorem copyCollection_makes (h : r.WellFormed) (source : ObjectId) (under : String)
    (owned : Bool) : MakesCollection (copyCollection source under owned) r := by
  cases hs : r.shape source with
  | error e =>
    simp only [MakesCollection, copyCollection, ensures_bind, ensures_query]
    exact ⟨fun s hs' => by simp [hs] at hs', fun _ _ => trivial⟩
  | ok s =>
    refine (copyCollection_ensures h hs under owned).imp ?_ fun _ _ h => h.elim
    exact fun id r' h' => ⟨h'.1, h'.2.1, h'.2.2.1⟩

theorem nestCollections_ensures (h : r.WellFormed) {element : ObjectId}
    (helement : element.index < r.objects.size) (owned : Bool) (cs : List (Option Nat))
    (name : String) :
    (nestCollections element owned cs name).Ensures r
      (fun id r' => Grew r r' ∧ id.index < r'.objects.size ∧
        (cs ≠ [] → Loose r r' (.collection id)) ∧ OldComposites r r') fun _ _ => False := by
  induction cs generalizing name with
  | nil =>
    refine ⟨grew_refl h, helement, fun hne => (hne rfl).elim, fun a m f ha => ?_⟩
    exact Repository.index_lt_of_object? ha
  | cons c inner ih =>
    rw [nestCollections, ensures_bind]
    refine (ih "").imp ?_ fun _ _ h => h
    rintro content r₁ ⟨h₁, hlt, -, hold₁⟩
    refine (buildCollection_ensures h₁.1 c name hlt ?_).imp ?_ fun _ _ h => h
    · intro source hsource
      cases owned <;> simp [builtOrigin] at hsource
    · -- The outermost collection is what is answered.
      rintro id r₂ ⟨h₂, hloose, hold₂, -⟩
      have hsince := Loose.since h₁.2 hloose h₂.2
      refine ⟨h₁.trans h₂, hsince.denotes.index_lt rfl, fun _ => hsince, fun a m f ha => ?_⟩
      rw [h₂.2.object? (hold₂ a m f ha)] at ha
      exact hold₁ a m f ha

theorem newCollections_makes (h : r.WellFormed) (element : ObjectId) (q : Qualifier)
    (name : String) (owned : Bool) : MakesCollection (newCollections element q name owned) r := by
  simp only [MakesCollection, newCollections, ensures_bind, ensures_query]
  refine ⟨fun _ hcontent => ⟨fun cs hcs => ?_, fun _ _ => trivial⟩, fun _ _ => trivial⟩
  obtain ⟨o, ho⟩ := checkContent_eq_ok hcontent
  refine (nestCollections_ensures h (Repository.index_lt_of_object? ho) owned cs name).imp ?_
    fun _ _ h => h.elim
  rintro id r' ⟨hgrew, -, hloose, hold⟩
  exact ⟨hgrew, hloose (capacities_ne_nil hcs), hold⟩

end Step

end Metamodel
