import Metamodel.Proofs.Facade
import Metamodel.Proofs.Installing
import Metamodel.Proofs.Tidy

/-!
# Metamodel.Proofs.Lengths -- which collections count their elements

What belongs to a template has symbolic lengths, and what an instance is made with counts its
elements. What an instance gets afterwards, when its template is edited, is made as for a template,
and has symbolic lengths with all that it comes to hold. Main statement: so it is however deep a
collection is found, and whatever has been edited and accessed in between.
-/

namespace Metamodel

open Relation (ReflTransGen)

variable {κ : Type} {ts : TypeSystem κ} {r r' : Repository ts}

/-- Whether what an object holds may have been installed in it. -/
def Object.isComposite : Object → Bool
  | composite .. => true
  | collection .. => false

namespace Repository

/-! ## What an object holds -/

/-- A field, or an element that has been made, refers to the other object. -/
inductive Holds (r : Repository ts) : ObjectId → ObjectId → Prop where
  | field {x y : ObjectId} {role : String} {v : Value} :
      r.field? x role = some v → v.object? = some y → Holds r x y
  | element {x y : ObjectId} {index : Nat} {v : Value} :
      (r.elements? x).bind (·.get? index) = some v → v.object? = some y → Holds r x y

/-- The object is an element of the first one, or in a field that the first one was made with: what
a composite is made with is older than itself. -/
inductive HoldsFirst (r : Repository ts) : ObjectId → ObjectId → Prop where
  | field {x y : ObjectId} {role : String} {v : Value} :
      r.field? x role = some v → v.object? = some y → y.index < x.index → HoldsFirst r x y
  | element {x y : ObjectId} {index : Nat} {v : Value} :
      (r.elements? x).bind (·.get? index) = some v → v.object? = some y → HoldsFirst r x y

/-- The object is in a field that was installed after the first one had been made. -/
def HoldsLater (r : Repository ts) (x y : ObjectId) : Prop :=
  ∃ role v, r.field? x role = some v ∧ v.object? = some y ∧ x.index ≤ y.index

/-- Something on the way from the first object to the other one was installed later. -/
def ReachesLater (r : Repository ts) (x z : ObjectId) : Prop :=
  ∃ a b, ReflTransGen r.HoldsFirst x a ∧ r.HoldsLater a b ∧ ReflTransGen r.Holds b z

theorem first_or_later {x z : ObjectId} (h : ReflTransGen r.Holds x z) :
    ReflTransGen r.HoldsFirst x z ∨ r.ReachesLater x z := by
  induction h with
  | refl => exact Or.inl .refl
  | @tail y z _ hstep ih =>
    rcases ih with hfirst | ⟨a, b, ha, hab, hb⟩
    · cases hstep with
      | @field role v hv hvz =>
        by_cases hlt : z.index < y.index
        · exact Or.inl (hfirst.tail (.field hv hvz hlt))
        · exact Or.inr ⟨y, z, hfirst, ⟨role, v, hv, hvz, Nat.le_of_not_lt hlt⟩, .refl⟩
      | element hv hvz => exact Or.inl (hfirst.tail (.element hv hvz))
    · exact Or.inr ⟨a, b, ha, hab, hb.tail hstep⟩

/-- The collection belongs to a template, and its length is symbolic. -/
def IsSymbolic (r : Repository ts) (id : ObjectId) : Prop :=
  r.origin id = .ok .template ∧ ∃ text, r.length id = .ok (.symbolic text)

/-- The collection belongs to no template, and its length is the number of its elements. -/
def IsCounted (r : Repository ts) (id : ObjectId) : Prop :=
  (∃ origin, r.origin id = .ok origin ∧ origin ≠ .template) ∧
    ∃ n, r.length id = .ok (.count n)

theorem isSymbolic_of_origin {id : ObjectId} {s : Shape} (hs : r.shape id = .ok s)
    (horigin : s.origin = .template) : r.IsSymbolic id := by
  refine ⟨by simp [origin, hs, Except.map, horigin], Path.length s.name, ?_⟩
  simp [length, hs, Except.map, horigin]

theorem isCounted_of_origin {id : ObjectId} {s : Shape} (hs : r.shape id = .ok s)
    (horigin : s.origin ≠ .template) : r.IsCounted id := by
  refine ⟨⟨s.origin, by simp [origin, hs, Except.map], horigin⟩,
    occupiedRun ((r.elements? id).getD Table.empty), ?_⟩
  cases ho : s.origin with
  | template => exact absurd ho horigin
  | derived source => simp [length, hs, Except.map, ho]
  | free => simp [length, hs, Except.map, ho]

/-! ## Objects that belong to a template -/

theorem Preserves.isComposite_eq (h : r.Preserves r') {x : ObjectId} {o o' : Object}
    (ho : r.object? x = some o) (ho' : r'.object? x = some o') :
    o'.isComposite = o.isComposite := by
  cases o with
  | composite m f =>
    obtain ⟨f', hf'⟩ := (h x _ ho).composite ho
    obtain rfl := Option.some.inj (ho'.symm.trans hf')
    rfl
  | collection m es =>
    obtain ⟨es', hes'⟩ := (h x _ ho).collection ho
    obtain rfl := Option.some.inj (ho'.symm.trans hes')
    rfl

variable {owned owned' : ObjectId → Bool}

/-- `owned` tells the objects that belong to a template from the others: templates do, elements go
with their collection, and so does what a composite holds, except that what has been installed in it
belongs to a template in any case. -/
structure Divided (r : Repository ts) (owned : ObjectId → Bool) : Prop where
  wellFormed : r.WellFormed
  held_lt : ∀ {x o y}, r.object? x = some o → y ∈ o.held → y.index < r.objects.size
  held : ∀ {x o y}, r.object? x = some o → y ∈ o.held →
    owned y = (owned x || o.isComposite && decide (x.index ≤ y.index))
  origin : ∀ {x s}, r.shape x = .ok s → (s.origin = .template ↔ owned x = true)
  template : ∀ {m d}, r.model? m = some (.datatype d) → owned d.template = true

namespace Divided

/-- It does not matter what is said of objects that are still to be made. -/
theorem congr (h : r.Divided owned) (hsame : ∀ x, x.index < r.objects.size → owned' x = owned x) :
    r.Divided owned' where
  wellFormed := h.wellFormed
  held_lt := h.held_lt
  held ho hy := by
    rw [hsame _ (h.held_lt ho hy), hsame _ (index_lt_of_object? ho)]
    exact h.held ho hy
  origin hs := by
    obtain ⟨m, es, ho, -⟩ := shape_eq_ok_iff.mp hs
    rw [hsame _ (index_lt_of_object? ho)]
    exact h.origin hs
  template hd := by
    rw [hsame _ (h.wellFormed.template_lt hd)]
    exact h.template hd

/-- What is made together is of one sort. -/
theorem made (h : r.Divided owned) {b : Bool} (hmade : Step.Made b r r')
    (hnew : ∀ x, r.objects.size ≤ x.index → owned x = b) : r'.Divided owned where
  wellFormed := hmade.grew.1
  held_lt {x o y} ho hy := by
    rcases hmade.grew.2.old_or_new ho with hold | hge
    · exact Nat.lt_of_lt_of_le (h.held_lt hold hy) hmade.grew.2.objects_le
    · obtain ⟨v, hv, hvy⟩ := Object.mem_held_iff.mp hy
      exact (hmade.grew.2.held_new ho hge hv).2.index_lt hvy
  held {x o y} ho hy := by
    rcases hmade.grew.2.old_or_new ho with hold | hge
    · exact h.held hold hy
    · obtain ⟨v, hv, hvy⟩ := Object.mem_held_iff.mp hy
      rw [hnew x hge, hnew y ((hmade.grew.2.held_new ho hge hv).1 y hvy)]
      cases o with
      | composite m f =>
        have hlt := hmade.older hge ho hv hvy
        simp [Object.isComposite, Nat.not_le_of_lt hlt]
      | collection m es => simp [Object.isComposite]
  origin {x s} hs := by
    obtain ⟨m, es, ho, -⟩ := shape_eq_ok_iff.mp hs
    rcases hmade.grew.2.old_or_new ho with hold | hge
    · obtain ⟨t, ht⟩ := h.wellFormed.shape_of_collection hold
      obtain rfl := Except.ok.inj (hs.symm.trans (hmade.grew.2.shape_ok ht))
      exact h.origin ht
    · rw [hnew x hge]
      exact hmade.origin hge hs
  template hd' := by
    obtain ⟨d, g, hd, rfl⟩ := hmade.grew.2.datatype_of hd'
    show owned d.template = true
    exact h.template hd

/-- A value may be written where it fits in. -/
theorem write (h : r.Divided owned) (hr' : r'.WellFormed) {id : ObjectId} {value : Option Value}
    (hwrites : r.Writes id value r') (hsize : r'.objects.size = r.objects.size)
    (hvalue : ∀ v y o, value = some v → v.object? = some y → r.object? id = some o →
      y.index < r.objects.size ∧
        owned y = (owned id || o.isComposite && decide (id.index ≤ y.index))) :
    r'.Divided owned := by
  have hold : ∀ {x o'}, r'.object? x = some o' → ∃ o, r.object? x = some o := by
    intro x o' ho'
    have hlt : x.index < r.objects.size := hsize ▸ index_lt_of_object? ho'
    obtain ⟨o, ho, -⟩ := modelOf?_eq_some_iff.mp
      (hwrites.steady.modelOf? hlt (modelOf?_eq_some_iff.mpr ⟨o', ho', rfl⟩))
    exact ⟨o, ho⟩
  refine ⟨hr', fun {x o' y} ho' hy => ?_, fun {x o' y} ho' hy => ?_, fun {x s} hs => ?_,
    fun {m d'} hd' => ?_⟩
  · rw [hsize]
    rcases hwrites.held ho' hy with ⟨o, ho, hy⟩ | ⟨rfl, v, hv, hvy⟩
    · exact h.held_lt ho hy
    · obtain ⟨o, ho⟩ := hold ho'
      exact (hvalue v y o hv hvy ho).1
  · obtain ⟨o, ho⟩ := hold ho'
    rw [hwrites.preserves.isComposite_eq ho ho']
    rcases hwrites.held ho' hy with ⟨p, hp, hy⟩ | ⟨rfl, v, hv, hvy⟩
    · obtain rfl := Option.some.inj (ho.symm.trans hp)
      exact h.held ho hy
    · exact (hvalue v y o hv hvy ho).2
  · obtain ⟨m, es', ho', -⟩ := shape_eq_ok_iff.mp hs
    obtain ⟨o, ho⟩ := hold ho'
    have hsort := hwrites.preserves.isComposite_eq ho ho'
    cases o with
    | composite k f => simp [Object.isComposite] at hsort
    | collection k es =>
      obtain ⟨t, ht⟩ := h.wellFormed.shape_of_collection ho
      obtain rfl := Except.ok.inj (hs.symm.trans ((hwrites.preserves x _ ho).shape ht))
      exact h.origin ht
  · have hlt : d'.template.index < r.objects.size := hsize ▸ hr'.template_lt hd'
    obtain ⟨d, hd, heq⟩ := hwrites.steady.template hd' hlt
    exact heq ▸ h.template hd

theorem mapDatatype (h : r.Divided owned) {k : ModelId} {f : Datatype κ → Datatype κ}
    (hr' : (r.mapDatatype k f).WellFormed)
    (hf : ∀ d, (f d).kind = d.kind ∧ (f d).registry = d.registry ∧ (f d).template = d.template) :
    (r.mapDatatype k f).Divided owned :=
  h.write hr' (writes_mapDatatype hf) rfl (by simp)

theorem addTemplate (h : r.Divided owned) (hnew : owned r.nextObject = true) (name : String)
    (kind : κ) : (r.addTemplate name kind).Divided owned where
  wellFormed := h.wellFormed.addTemplate name kind
  held_lt {x o y} ho hy := by
    rw [object?_addTemplate] at ho
    split at ho
    · obtain rfl := Option.some.inj ho
      simp [Object.held, Table.values, Table.empty] at hy
    · have hlt := h.held_lt ho hy
      simp only [size_objects_addTemplate]
      omega
  held {x o y} ho hy := by
    rw [object?_addTemplate] at ho
    split at ho
    · obtain rfl := Option.some.inj ho
      simp [Object.held, Table.values, Table.empty] at hy
    · exact h.held ho hy
  origin {x s} hs := by
    obtain ⟨m, es, ho, hm⟩ := shape_eq_ok_iff.mp hs
    rw [object?_addTemplate] at ho
    split at ho
    · simp at ho
    · rw [model?_addTemplate] at hm
      split at hm
      · simp at hm
      · exact h.origin (shape_eq_ok_iff.mpr ⟨m, es, ho, hm⟩)
  template {m d} hd := by
    rw [model?_addTemplate] at hd
    split at hd
    · obtain rfl := Model.datatype.inj (Option.some.inj hd)
      exact hnew
    · exact h.template hd

theorem holds (h : r.Divided owned) {x y : ObjectId} (hxy : r.Holds x y) (hx : owned x = true) :
    owned y = true := by
  cases hxy with
  | field hv hvy =>
    obtain ⟨m, f, ho, hv⟩ := field?_eq_some_iff.mp hv
    simp [h.held ho (Object.mem_held_iff.mpr ⟨_, Table.mem_values_of_get? hv, hvy⟩), hx]
  | element hv hvy =>
    obtain ⟨es, hes, hv⟩ := Option.bind_eq_some_iff.mp hv
    obtain ⟨m, ho⟩ := elements?_eq_some_iff.mp hes
    simp [h.held ho (Object.mem_held_iff.mpr ⟨_, Table.mem_values_of_get? hv, hvy⟩), hx]

theorem holdsFirst (h : r.Divided owned) {x y : ObjectId} (hxy : r.HoldsFirst x y) :
    owned y = owned x := by
  cases hxy with
  | field hv hvy hlt =>
    obtain ⟨m, f, ho, hv⟩ := field?_eq_some_iff.mp hv
    rw [h.held ho (Object.mem_held_iff.mpr ⟨_, Table.mem_values_of_get? hv, hvy⟩)]
    simp [Nat.not_le_of_lt hlt]
  | element hv hvy =>
    obtain ⟨es, hes, hv⟩ := Option.bind_eq_some_iff.mp hv
    obtain ⟨m, ho⟩ := elements?_eq_some_iff.mp hes
    rw [h.held ho (Object.mem_held_iff.mpr ⟨_, Table.mem_values_of_get? hv, hvy⟩)]
    simp [Object.isComposite]

theorem holdsLater (h : r.Divided owned) {x y : ObjectId} (hxy : r.HoldsLater x y) :
    owned y = true := by
  obtain ⟨role, v, hv, hvy, hle⟩ := hxy
  obtain ⟨m, f, ho, hv⟩ := field?_eq_some_iff.mp hv
  rw [h.held ho (Object.mem_held_iff.mpr ⟨v, Table.mem_values_of_get? hv, hvy⟩)]
  simp [Object.isComposite, hle]

theorem of_reachable (h : r.Divided owned) {x y : ObjectId} (hxy : ReflTransGen r.Holds x y)
    (hx : owned x = true) : owned y = true := by
  induction hxy with
  | refl => exact hx
  | tail _ hstep ih => exact h.holds hstep ih

theorem of_reachableFirst (h : r.Divided owned) {x y : ObjectId}
    (hxy : ReflTransGen r.HoldsFirst x y) : owned y = owned x := by
  induction hxy with
  | refl => rfl
  | tail _ hstep ih => rw [h.holdsFirst hstep, ih]

theorem shape_of_isCollection (h : r.Divided owned) {c : ObjectId} (hc : r.isCollection c = true) :
    ∃ s, r.shape c = .ok s := by
  obtain ⟨es, hes⟩ := Option.isSome_iff_exists.mp hc
  obtain ⟨m, ho⟩ := elements?_eq_some_iff.mp hes
  exact h.wellFormed.shape_of_collection ho

theorem isSymbolic (h : r.Divided owned) {c : ObjectId} (hc : r.isCollection c = true)
    (howned : owned c = true) : r.IsSymbolic c := by
  obtain ⟨s, hs⟩ := h.shape_of_isCollection hc
  exact isSymbolic_of_origin hs ((h.origin hs).mpr howned)

theorem isCounted (h : r.Divided owned) {c : ObjectId} (hc : r.isCollection c = true)
    (howned : owned c = false) : r.IsCounted c := by
  obtain ⟨s, hs⟩ := h.shape_of_isCollection hc
  refine isCounted_of_origin hs fun horigin => ?_
  simp [(h.origin hs).mp horigin] at howned

end Divided

/-! ## What becomes of it later -/

/-- Objects that were there belong to a template if they did before, and fields that hold one of
them have not been written since. -/
structure Continues (r₀ : Repository ts) (owned₀ : ObjectId → Bool) (r : Repository ts)
    (owned : ObjectId → Bool) : Prop where
  divided : r.Divided owned
  objects_le : r₀.objects.size ≤ r.objects.size
  same : ∀ x, x.index < r₀.objects.size → owned x = owned₀ x
  kept : ∀ {x role v y}, r.field? x role = some v → v.object? = some y →
    x.index < r₀.objects.size → y.index < r₀.objects.size → r₀.field? x role = some v

namespace Continues

variable {r₀ : Repository ts} {owned₀ : ObjectId → Bool}

theorem refl (h : r.Divided owned) : r.Continues owned r owned where
  divided := h
  objects_le := Nat.le_refl _
  same _ _ := rfl
  kept hv _ _ _ := hv

theorem made (h : r₀.Continues owned₀ r owned) {b : Bool} (hmade : Step.Made b r r') :
    ∃ owned', r₀.Continues owned₀ r' owned' ∧ ∀ x, r.objects.size ≤ x.index → owned' x = b := by
  let owned' : ObjectId → Bool := fun x => if x.index < r.objects.size then owned x else b
  have hold : ∀ x, x.index < r.objects.size → owned' x = owned x := fun x hx => if_pos hx
  have hnew : ∀ x, r.objects.size ≤ x.index → owned' x = b := fun x hx =>
    if_neg (Nat.not_lt_of_le hx)
  refine ⟨owned', ⟨(h.divided.congr hold).made hmade hnew, ?_, fun x hx => ?_, ?_⟩, hnew⟩
  · exact Nat.le_trans h.objects_le hmade.grew.2.objects_le
  · rw [hold x (Nat.lt_of_lt_of_le hx h.objects_le), h.same x hx]
  · intro x role v y hv hvy hx hy
    refine h.kept ?_ hvy hx hy
    have hlt : x.index < r.objects.size := Nat.lt_of_lt_of_le hx h.objects_le
    rwa [field?, fields?, hmade.grew.2.object? hlt] at hv

/-- A change that writes no field. -/
theorem unwritten (h : r₀.Continues owned₀ r owned) (hr' : r'.Divided owned)
    (hle : r.objects.size ≤ r'.objects.size)
    (hfield : ∀ x role v, r'.field? x role = some v → r.field? x role = some v) :
    r₀.Continues owned₀ r' owned where
  divided := hr'
  objects_le := Nat.le_trans h.objects_le hle
  same := h.same
  kept hv := h.kept (hfield _ _ _ hv)

theorem mapDatatype (h : r₀.Continues owned₀ r owned) {k : ModelId}
    {f : Datatype κ → Datatype κ} (hr' : (r.mapDatatype k f).WellFormed)
    (hf : ∀ d, (f d).kind = d.kind ∧ (f d).registry = d.registry ∧ (f d).template = d.template) :
    r₀.Continues owned₀ (r.mapDatatype k f) owned :=
  h.unwritten (h.divided.mapDatatype hr' hf) (Nat.le_refl _) fun _ _ _ hv => hv

theorem addTemplate (h : r₀.Continues owned₀ r owned) (name : String) (kind : κ) :
    ∃ owned', r₀.Continues owned₀ (r.addTemplate name kind) owned' := by
  let owned' : ObjectId → Bool := fun x => if x.index < r.objects.size then owned x else true
  have hold : ∀ x, x.index < r.objects.size → owned' x = owned x := fun x hx => if_pos hx
  have h' : r₀.Continues owned₀ r owned' := by
    refine ⟨h.divided.congr hold, h.objects_le, fun x hx => ?_, h.kept⟩
    rw [hold x (Nat.lt_of_lt_of_le hx h.objects_le), h.same x hx]
  refine ⟨owned', h'.unwritten (h'.divided.addTemplate (if_neg (Nat.lt_irrefl _)) name kind) ?_ ?_⟩
  · simp
  · intro x role v hv
    obtain ⟨m, f, ho, hv⟩ := field?_eq_some_iff.mp hv
    rw [object?_addTemplate] at ho
    split at ho
    · obtain rfl := (Object.composite.inj (Option.some.inj ho)).2
      simp at hv
    · exact field?_eq_some_iff.mpr ⟨m, f, ho, hv⟩

/-- A value may be installed in a field that has been made after the object. -/
theorem writeField (h : r₀.Continues owned₀ r owned) {x : ObjectId} (role : String)
    {value : Option Value} {m : ModelId} {f : Table String Value}
    (ho : r.object? x = some (.composite m f))
    (hvalue : ∀ v y, value = some v → v.object? = some y → r₀.objects.size ≤ y.index ∧
      x.index < y.index ∧ y.index < r.objects.size ∧ owned y = true) :
    r₀.Continues owned₀ (r.writeField x role value) owned where
  divided := by
    refine h.divided.write (h.divided.wellFormed.writeField x role value)
      (writes_writeField x role value) (by simp) fun v y p hv hvy hp => ?_
    obtain rfl := Option.some.inj (ho.symm.trans hp)
    obtain ⟨-, hlater, hlt, howned⟩ := hvalue v y hv hvy
    exact ⟨hlt, by simp [howned, Object.isComposite, Nat.le_of_lt hlater]⟩
  objects_le := by simpa using h.objects_le
  same := h.same
  kept {a k v y} hv hvy ha hy := by
    obtain ⟨m, f', ho', hv⟩ := field?_eq_some_iff.mp hv
    obtain ⟨f, hf, rfl⟩ := composite_writeField.mp ho'
    refine h.kept (field?_eq_some_iff.mpr ⟨m, f, hf, ?_⟩) hvy ha hy
    split at hv
    · cases value with
      | none =>
        rw [Option.elim_none, Table.get?_erase] at hv
        split at hv
        · simp at hv
        · exact hv
      | some w =>
        rw [Option.elim_some, Table.get?_insert] at hv
        split at hv
        · obtain rfl := Option.some.inj hv
          exact absurd hy (Nat.not_lt_of_le (hvalue w y rfl hvy).1)
        · exact hv
    · exact hv

/-- An element goes with its collection. -/
theorem writeElement (h : r₀.Continues owned₀ r owned) {c : ObjectId} (index : Nat)
    {m : ModelId} {es : Table Nat Value} (ho : r.object? c = some (.collection m es)) {v : Value}
    (hvalue : ∀ y, v.object? = some y → y.index < r.objects.size ∧ owned y = owned c) :
    r₀.Continues owned₀ (r.writeElement c index v) owned := by
  have hwf := h.divided.wellFormed.writeElement c index v
  refine h.unwritten (h.divided.write hwf (writes_writeElement c index v) (by simp) ?_) (by simp) ?_
  · rintro _ y o ⟨⟩ hvy hc
    obtain rfl := Option.some.inj (ho.symm.trans hc)
    obtain ⟨hlt, howned⟩ := hvalue y hvy
    exact ⟨hlt, by simp [howned, Object.isComposite]⟩
  · intro x role w hw
    obtain ⟨k, f, hf, hw⟩ := field?_eq_some_iff.mp hw
    exact field?_eq_some_iff.mpr ⟨k, f, composite_writeElement.mp hf, hw⟩

end Continues

end Repository

/-! ## Operations -/

namespace Step

open Repository (Loose Continues)

variable {r₀ : Repository ts} {owned₀ : ObjectId → Bool}

/-- Some division goes on with that of an earlier repository. -/
def Continued (r₀ : Repository ts) (owned₀ : ObjectId → Bool) (r : Repository ts) : Prop :=
  ∃ owned, r₀.Continues owned₀ r owned

theorem Continued.made (h : Continued r₀ owned₀ r) {b : Bool} (hmade : Made b r r') :
    Continued r₀ owned₀ r' := by
  obtain ⟨owned, h⟩ := h
  obtain ⟨owned', h', -⟩ := h.made hmade
  exact ⟨owned', h'⟩

theorem Continued.mapEntries (h : Continued r₀ owned₀ r) (m : ModelId)
    (f : List Entry → List Entry) : Continued r₀ owned₀ (r.mapEntries m f) := by
  obtain ⟨owned, h⟩ := h
  exact ⟨owned, h.mapDatatype (h.divided.wellFormed.mapEntries m f) fun _ => ⟨rfl, rfl, rfl⟩⟩

theorem continued_declarative : Repository.Declarative (Continued r₀ owned₀) where
  wellFormed := fun ⟨_, h⟩ => h.divided.wellFormed
  addTemplate name kind := fun ⟨_, h⟩ => h.addTemplate name kind
  mapEntries m f _ h := h.mapEntries m f
  putQualifiers m qs := fun ⟨owned, h⟩ =>
    ⟨owned, h.mapDatatype (h.divided.wellFormed.putQualifiers m qs) fun _ => ⟨rfl, rfl, rfl⟩⟩
  putScope m _ := fun ⟨owned, h⟩ hscope =>
    ⟨owned, h.mapDatatype (h.divided.wellFormed.putScope m hscope) fun _ => ⟨rfl, rfl, rfl⟩⟩

/-- What has just been made for a template may be installed. -/
theorem installs_continued (m : ModelId) (role : String) :
    Installs (fun r => Continued r₀ owned₀ r ∧ ∃ d, r.model? m = some (.datatype d)) m role where
  wellFormed h := continued_declarative.wellFormed h.1
  datatype h := h.2
  made {r r'} h hmade := by
    obtain ⟨h, d, hd⟩ := h
    obtain ⟨g, hg⟩ := hmade.grew.2.datatype hd
    exact ⟨h.made hmade, _, hg⟩
  write {r r' x f v} h hmade hv ho := by
    obtain ⟨⟨owned, h⟩, d, hd⟩ := h
    obtain ⟨owned', h', hnew⟩ := h.made hmade
    obtain ⟨g, hg⟩ := hmade.grew.2.datatype hd
    refine ⟨⟨owned', ?_⟩, _, by simpa using hg⟩
    apply h'.writeField role (hmade.grew.2.object?_some ho)
    rintro _ y ⟨⟩ hvy
    have hlt : x.index < r.objects.size := Repository.index_lt_of_object? ho
    have hle : r.objects.size ≤ y.index := hv.new y hvy
    refine ⟨Nat.le_trans h.objects_le hle, by omega, hv.denotes.index_lt hvy, hnew y hle⟩
  erase h ho := by
    obtain ⟨⟨owned, h⟩, d, hd⟩ := h
    exact ⟨⟨owned, h.writeField role ho (by simp)⟩, d, by simpa using hd⟩

theorem continued_newInstance (template : ObjectId) (under : String) (b : Bool) :
    Keeps (Continued r₀ owned₀) (newInstance template under b) := by
  refine ⟨fun r h => ?_⟩
  exact Ensures.imp (newInstance_made (continued_declarative.wellFormed h) template under b)
    (fun _ _ h' => h.made h'.1) fun _ _ h' => h.made h'

/-- An element is made of the sort of its collection. -/
theorem continued_element (id : ObjectId) (index : Nat) :
    Keeps (Continued r₀ owned₀) (element id index) := by
  refine ⟨fun r h => element_ensures (fun _ => h) (fun _ _ => h) fun s content hs _ => ?_⟩
  refine Ensures.imp (cloneValue_made (continued_declarative.wellFormed h) content _ _) ?_
    fun _ _ hmade => h.made hmade
  rintro v r' ⟨hmade, hv⟩
  obtain ⟨owned, h⟩ := h
  obtain ⟨owned', h', hnew⟩ := h.made hmade
  obtain ⟨m, es, ho, -⟩ := Repository.shape_eq_ok_iff.mp hs
  refine ⟨owned', h'.writeElement index (hmade.grew.2.object?_some ho) fun y hvy => ?_⟩
  refine ⟨hv.denotes.index_lt hvy, ?_⟩
  rw [hnew y (hv.new y hvy), Bool.eq_iff_iff, decide_eq_true_iff]
  exact h'.divided.origin (hmade.grew.2.shape_ok hs)

end Step

namespace Idl

variable {limits : Limits}

/-! ## Runs -/

/-- A constructor or an edit of the facade, the removal of a member, the making of an instance, or
the access to an element. -/
def Operation.Shapes : Operation → Prop
  | repository (.removeMember _ _) => True
  | repository (.newInstance _ _ _) => True
  | repository (.element _ _) => True
  | repository _ => False
  | _ => True

variable {r₀ r : Repository (system limits)} {owned₀ : ObjectId → Bool}

/-- Such an operation keeps what changes of declarations keep, and the making and the installing of
values, if it is kept as well when an instance or an element is made. -/
theorem Operation.perform_shapes {P : Repository (system limits) → Prop}
    (hP : Repository.Declarative P) (hentries : ∀ {r} m f, P r → P (r.mapEntries m f))
    (hinstalls : ∀ m role,
      Step.Installs (fun r => P r ∧ ∃ d, r.model? m = some (.datatype d)) m role)
    (hinstance : ∀ template under b, Step.Keeps P (Step.newInstance template under b))
    (helement : ∀ id index, Step.Keeps P (Step.element id index)) (h : P r)
    {operation : Operation} (hop : operation.Shapes) : P (operation.perform r) := by
  refine operation.perform_editable (editable_of_installs hP hentries hinstalls) ?_ h
  rintro inner rfl
  cases inner with
  | removeMember template role =>
    exact (keeps_removeMember_of_installs hentries hinstalls template role).repo h
  | newInstance template under b => exact (hinstance template under b).repo h
  | element id index => exact (helement id index).repo h
  | _ => exact hop.elim

theorem Operation.perform_continued (h : Step.Continued r₀ owned₀ r) {operation : Operation}
    (hop : operation.Shapes) : Step.Continued r₀ owned₀ (operation.perform r) :=
  Operation.perform_shapes Step.continued_declarative (fun m f h => h.mapEntries m f)
    Step.installs_continued Step.continued_newInstance Step.continued_element h hop

theorem divided_initial (limits : Limits) : ∃ owned, (initial limits).Divided owned := by
  have hempty : (Repository.empty (system limits)).Divided fun _ => false :=
    ⟨Repository.wellFormed_empty, fun ho => by simp at ho, fun ho => by simp at ho,
      fun hs => by simp [Repository.shape] at hs, fun hd => by simp at hd⟩
  have hP : Repository.Declarative
      (Step.Continued (Repository.empty (system limits)) fun _ => false) :=
    Step.continued_declarative
  obtain ⟨owned, h⟩ := initial_of_empty hP ⟨_, .refl hempty⟩
  exact ⟨owned, h.divided⟩

/-- Every collection that a canonical template holds, at whatever depth, has a symbolic length. Let
an instance be made. From then on the collections that it was made with, their elements, and what
these were made with, count their elements. What has been installed in any of these since then has
symbolic lengths, with all that it holds; and that is all that the instance comes to hold. Of what
was made with the instance, a field holds something older if and only if it has not been written
since. -/
theorem lengths_of_reached
    (h₀ : Reached Operation.perform (fun _ operation => operation.Shapes) (initial limits) r₀) :
    (∀ m d c, r₀.model? m = some (.datatype d) → ReflTransGen r₀.Holds d.template c →
      r₀.isCollection c = true → r₀.IsSymbolic c) ∧
    ∀ template under i v r₁ r, ((Step.newInstance template under false).run r₀).answer = .ok v →
      ((Step.newInstance template under false).run r₀).repo = r₁ → v.object? = some i →
      Reached Operation.perform (fun _ operation => operation.Shapes) r₁ r →
        (∀ c, ReflTransGen r.HoldsFirst i c → r.isCollection c = true → r.IsCounted c) ∧
        (∀ c, r.ReachesLater i c → r.isCollection c = true → r.IsSymbolic c) ∧
        (∀ c, ReflTransGen r.Holds i c → ReflTransGen r.HoldsFirst i c ∨ r.ReachesLater i c) ∧
        ∀ x role w y, r₀.objects.size ≤ x.index → r₁.isLive x = true → r.field? x role = some w →
          w.object? = some y → (y.index < x.index ↔ r₁.field? x role = some w) := by
  obtain ⟨owned, hstart⟩ := divided_initial limits
  obtain ⟨owned₀, hcontinues⟩ := h₀.invariant (P := Step.Continued (initial limits) owned)
    ⟨owned, .refl hstart⟩ fun _ _ hr hop => Operation.perform_continued hr hop
  have hdivided := hcontinues.divided
  refine ⟨fun m d c hd hc hcollection => ?_, ?_⟩
  · exact hdivided.isSymbolic hcollection (hdivided.of_reachable hc (hdivided.template hd))
  · intro template under i v r₁ r hanswer hrepo hi h
    -- What is made with the instance belongs to no template.
    obtain ⟨hmade, hloose⟩ := (Step.newInstance_made hdivided.wellFormed template under
      false).ok_of_answer hanswer
    rw [hrepo] at hmade hloose
    obtain ⟨owned₁, h₁, hnew⟩ := (Repository.Continues.refl hdivided).made hmade
    obtain ⟨owned', hlater⟩ := h.invariant (P := Step.Continued r₁ owned₁)
      ⟨owned₁, .refl h₁.divided⟩ fun _ _ hr hop => Operation.perform_continued hr hop
    have hlt : i.index < r₁.objects.size := hloose.denotes.index_lt hi
    have howned : owned' i = false := by rw [hlater.same i hlt, hnew i (hloose.new i hi)]
    refine ⟨fun c hc hcollection => ?_, fun c hc hcollection => ?_, fun c hc => ?_, ?_⟩
    · refine hlater.divided.isCounted hcollection ?_
      rw [hlater.divided.of_reachableFirst hc, howned]
    · obtain ⟨a, b, -, hab, hbc⟩ := hc
      have hb := hlater.divided.holdsLater hab
      exact hlater.divided.isSymbolic hcollection (hlater.divided.of_reachable hbc hb)
    · exact Repository.first_or_later hc
    · intro x role w y hx hlive hw hwy
      obtain ⟨o, ho⟩ := Repository.isLive_iff.mp hlive
      have hxlt : x.index < r₁.objects.size := Repository.index_lt_of_object? ho
      constructor
      · intro hyx
        exact hlater.kept hw hwy hxlt (Nat.lt_trans hyx hxlt)
      · intro hw₁
        obtain ⟨m, f, hf, hv⟩ := Repository.field?_eq_some_iff.mp hw₁
        exact hmade.older hx hf (Table.mem_values_of_get? hv) hwy

/-- An instance holds a collection, whose first element holds one as well; the collection that is
declared later is symbolic. -/
theorem lengths_after_edits :
    let r₀ := Operation.run (initial ⟨4, 4⟩)
      [.newStruct "P" [.member ⟨"x", Atom.long.template, [sequence .unbounded], []⟩],
        .newStruct "S" [.member ⟨"a", ⟨21⟩, [sequence .unbounded], []⟩]]
    let r₁ := ((Step.newInstance ⟨23⟩ "i" false).run r₀).repo
    let r := Operation.run r₁ [.repository (.element ⟨25⟩ 1),
      .defineMember ⟨23⟩ ⟨"b", Atom.long.template, [sequence .unbounded], []⟩]
    r.field? ⟨26⟩ "a" = some (.collection ⟨25⟩) ∧ r.IsCounted ⟨25⟩ ∧
      r.field? ⟨28⟩ "x" = some (.collection ⟨27⟩) ∧ r.IsCounted ⟨27⟩ ∧
      r.field? ⟨26⟩ "b" = some (.collection ⟨30⟩) ∧ r.IsSymbolic ⟨30⟩ := by
  intro r₀ r₁ r
  have ha : r.field? ⟨26⟩ "a" = some (.collection ⟨25⟩) := by decide +kernel
  have helement : (r.elements? ⟨25⟩).bind (·.get? 1) = some (.composite ⟨28⟩) := by decide +kernel
  have hx : r.field? ⟨28⟩ "x" = some (.collection ⟨27⟩) := by decide +kernel
  have hb : r.field? ⟨26⟩ "b" = some (.collection ⟨30⟩) := by decide +kernel
  have hcollections : r.isCollection ⟨25⟩ = true ∧ r.isCollection ⟨27⟩ = true ∧
      r.isCollection ⟨30⟩ = true := by decide +kernel
  have hanswer : ((Step.newInstance ⟨23⟩ "i" false).run r₀).answer = .ok (.composite ⟨26⟩) := by
    decide +kernel
  have h₀ : Reached Operation.perform (fun _ operation => operation.Shapes) (initial ⟨4, 4⟩)
      r₀ := by
    simp only [r₀, Operation.run, List.foldl_cons, List.foldl_nil]
    exact .next (.next .start trivial) trivial
  have h : Reached Operation.perform (fun _ operation => operation.Shapes) r₁ r := by
    simp only [r, Operation.run, List.foldl_cons, List.foldl_nil]
    exact .next (.next .start trivial) trivial
  clear_value r
  obtain ⟨hfirst, hlater, -, -⟩ := (lengths_of_reached h₀).2 ⟨23⟩ "i" ⟨26⟩ _ r₁ r hanswer rfl rfl h
  have hto25 : ReflTransGen r.HoldsFirst ⟨26⟩ ⟨25⟩ := .single (.field ha rfl (by decide))
  have hto27 : ReflTransGen r.HoldsFirst ⟨26⟩ ⟨27⟩ :=
    (hto25.tail (.element helement rfl)).tail (.field hx rfl (by decide))
  exact ⟨ha, hfirst _ hto25 hcollections.1, hx, hfirst _ hto27 hcollections.2.1, hb,
    hlater _ ⟨_, _, .refl, ⟨"b", _, hb, rfl, by decide⟩, .refl⟩ hcollections.2.2⟩

/-- A collection is declared when there is an instance, which gets it with a symbolic length. -/
theorem symbolic_in_instance :
    let r₀ := Operation.run (initial ⟨4, 4⟩) [.newStruct "S" []]
    let r₁ := ((Step.newInstance ⟨21⟩ "i" false).run r₀).repo
    let r := Operation.perform r₁
      (.defineMember ⟨21⟩ ⟨"v", Atom.long.template, [sequence .unbounded], []⟩)
    Reached Operation.perform (fun _ operation => operation.Shapes) (initial ⟨4, 4⟩) r ∧
      ((Step.newInstance ⟨21⟩ "i" false).run r₀).answer = .ok (.composite ⟨22⟩) ∧
      r.Holds ⟨22⟩ ⟨24⟩ ∧ r.isCollection ⟨24⟩ = true ∧ r.IsSymbolic ⟨24⟩ := by
  intro r₀ r₁ r
  have hanswer : ((Step.newInstance ⟨21⟩ "i" false).run r₀).answer = .ok (.composite ⟨22⟩) := by
    decide +kernel
  have hv : r.field? ⟨22⟩ "v" = some (.collection ⟨24⟩) := by decide +kernel
  have hcollection : r.isCollection ⟨24⟩ = true := by decide +kernel
  have horigin : r.origin ⟨24⟩ = .ok .template := by decide +kernel
  have hlength : r.length ⟨24⟩ = .ok (.symbolic "i.v#") := by decide +kernel
  have h₀ : Reached Operation.perform (fun _ operation => operation.Shapes) (initial ⟨4, 4⟩)
      r₀ := by
    simp only [r₀, Operation.run, List.foldl_cons, List.foldl_nil]
    exact .next .start trivial
  clear_value r₀
  have hop : Operation.Shapes (.repository (.newInstance ⟨21⟩ "i" false)) := trivial
  have h₁ : Reached Operation.perform (fun _ operation => operation.Shapes) (initial ⟨4, 4⟩) r₁ :=
    .next h₀ hop
  exact ⟨.next h₁ trivial, hanswer, .field hv rfl, hcollection, horigin, _, hlength⟩

end Idl

end Metamodel
