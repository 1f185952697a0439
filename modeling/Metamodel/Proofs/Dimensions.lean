import Metamodel.Proofs.Cloning
import Metamodel.Proofs.Creating
import Metamodel.Proofs.Forms
import Metamodel.Proofs.Persisting
import Metamodel.Proofs.Remembering

/-!
# Metamodel.Proofs.Dimensions -- elements along several dimensions

Several dimensions are collections nested in each other. At first there are prototypes only of the
inner ones: an element of the outer collection is a copy of the prototype, made when it is asked for
and named for its index, and at the end the element datatype itself is what is copied. Main
statement: whatever has been asked for, indices within the range lead from level to level, each
level has its capacity and is named for the indices, and what different indices lead to has nothing
in common.
-/

namespace Metamodel

open Relation (ReflTransGen)

variable {κ : Type} {ts : TypeSystem κ} {r r' r'' : Repository ts}

/-- The path of what is found in a collection at these indices, one for each dimension. -/
def Path.elements (collection : String) (indices : List Nat) : String :=
  indices.foldl Path.element collection

namespace Step

/-- From `r` on, elements have been asked for, with an answer or not, and nothing else was done. -/
def Accessed (r r' : Repository ts) : Prop :=
  Reached Operation.perform (fun _ operation => ∃ c index, operation = .element c index) r r'

/-- Taking the elements at these indices, each out of the one before, one comes from a value to
another one. -/
inductive Takes : Repository ts → Value → List Nat → Value → Repository ts → Prop
  | here {r : Repository ts} {v : Value} : Takes r v [] v r
  | element {r r' : Repository ts} {c : ObjectId} {index : Nat} {v w : Value} {rest : List Nat}
      (hv : ((element c index).run r).answer = .ok v)
      (hrest : Takes ((element c index).run r).repo v rest w r') :
      Takes r (.collection c) (index :: rest) w r'

/-- What every access keeps holds after all of them. -/
theorem Accessed.keeps {P : Repository ts → Prop} (h : Accessed r r')
    (hP : ∀ c index, Keeps P (element c index)) (hr : P r) : P r' := by
  refine h.invariant hr fun r₁ operation h₁ hoperation => ?_
  obtain ⟨c, index, rfl⟩ := hoperation
  exact (hP c index).repo h₁

theorem Takes.accessed {v w : Value} {indices : List Nat} {start : Repository ts}
    (h : Takes r v indices w r') (hr : Accessed start r) : Accessed start r' := by
  induction h with
  | here => exact hr
  | element _ _ ih => exact ih (.next hr ⟨_, _, rfl⟩)

end Step

/-! ## Objects that are held at one place only -/

namespace Repository

variable {base index : Nat} {c x y : ObjectId} {v w : Value}

/-- Each object from `base` on is held by at most one of them, a collection holds it at one index at
most, and the root is held by none of them. -/
structure Branching (base : Nat) (c : ObjectId) (r : Repository ts) : Prop where
  wellFormed : r.WellFormed
  base_le : base ≤ c.index
  root_lt : c.index < r.objects.size
  inside : ∀ {x y}, base ≤ x.index → r.Holds x y → base ≤ y.index ∧ y.index < r.objects.size
  root : ∀ {x}, base ≤ x.index → ¬ r.Holds x c
  holder : ∀ {x x' y}, base ≤ x.index → base ≤ x'.index → r.Holds x y → r.Holds x' y → x = x'
  place : ∀ {x y i j v w}, base ≤ x.index → (r.elements? x).bind (·.get? i) = some v →
    (r.elements? x).bind (·.get? j) = some w → v.object? = some y → w.object? = some y → i = j

theorem holds_congr (h : r'.object? x = r.object? x) : r'.Holds x y ↔ r.Holds x y := by
  have hfields : r'.fields? x = r.fields? x := by simp only [fields?, h]
  have helements : r'.elements? x = r.elements? x := by simp only [elements?, h]
  constructor
  · rintro (⟨hv, hy⟩ | ⟨hv, hy⟩)
    · exact .field (by rwa [field?, hfields] at hv) hy
    · exact .element (by rwa [helements] at hv) hy
  · rintro (⟨hv, hy⟩ | ⟨hv, hy⟩)
    · exact .field (by rwa [field?, hfields]) hy
    · exact .element (by rwa [helements]) hy

/-- Old objects hold what they held, and new ones hold new ones. -/
theorem Extends.holds_cases (h : r.Extends r') (hxy : r'.Holds x y) :
    x.index < r.objects.size ∧ r.Holds x y ∨
      r.objects.size ≤ x.index ∧ r.objects.size ≤ y.index ∧ y.index < r'.objects.size := by
  rcases Nat.lt_or_ge x.index r.objects.size with hold | hnew
  · exact .inl ⟨hold, (holds_congr (h.object? hold)).mp hxy⟩
  · obtain ⟨o, ho, -⟩ := hxy.mem_held
    obtain ⟨hy, hlive⟩ := h.holds_new hnew (isLive_iff.mpr ⟨o, ho⟩) (.single hxy)
    obtain ⟨p, hp⟩ := isLive_iff.mp hlive
    exact .inr ⟨hnew, hy, index_lt_of_object? hp⟩

/-- What has just been made branches from what nothing holds. -/
theorem branching_of_loose (h : Step.Grew r r') (hc : Loose r r' (.collection c)) :
    r'.Branching r.objects.size c where
  wellFormed := h.1
  base_le := hc.new c rfl
  root_lt := by
    obtain ⟨o, ho⟩ := hc.denotes.object? rfl
    exact index_lt_of_object? ho
  inside hx hxy := by
    rcases h.2.holds_cases hxy with ⟨hold, -⟩ | ⟨-, hy⟩
    · omega
    · exact hy
  root hx hxc := by
    obtain ⟨o, ho, hmem⟩ := hxc.mem_held
    exact hc.free ho hx rfl hmem
  holder hx hx' hxy hxy' := by
    obtain ⟨o, ho, hmem⟩ := hxy.mem_held
    obtain ⟨o', ho', hmem'⟩ := hxy'.mem_held
    exact h.2.held_once ho ho' hx hx' hmem hmem'
  place hx hv := by
    have := (h.2.element_old hv).1
    omega

theorem Branching.grew (h : r.Branching base c) (hgrew : Step.Grew r r') : r'.Branching base c where
  wellFormed := hgrew.1
  base_le := h.base_le
  root_lt := Nat.lt_of_lt_of_le h.root_lt hgrew.2.objects_le
  inside hx hxy := by
    rcases hgrew.2.holds_cases hxy with ⟨-, hxy⟩ | ⟨-, hy, hlt⟩
    · obtain ⟨hy, hlt⟩ := h.inside hx hxy
      exact ⟨hy, Nat.lt_of_lt_of_le hlt hgrew.2.objects_le⟩
    · exact ⟨Nat.le_trans (Nat.le_trans h.base_le h.root_lt.le) hy, hlt⟩
  root hx hxc := by
    rcases hgrew.2.holds_cases hxc with ⟨-, hxc⟩ | ⟨-, hnew, -⟩
    · exact h.root hx hxc
    · exact Nat.not_lt_of_le hnew h.root_lt
  holder {x x' y} hx hx' hxy hxy' := by
    rcases hgrew.2.holds_cases hxy with ⟨-, hold⟩ | ⟨hnew, hy, -⟩
    · have hlt := (h.inside hx hold).2
      rcases hgrew.2.holds_cases hxy' with ⟨-, hold'⟩ | ⟨-, hy', -⟩
      · exact h.holder hx hx' hold hold'
      · omega
    · rcases hgrew.2.holds_cases hxy' with ⟨-, hold'⟩ | ⟨hnew', -, -⟩
      · have hlt := (h.inside hx' hold').2
        omega
      · obtain ⟨o, ho, hmem⟩ := hxy.mem_held
        obtain ⟨o', ho', hmem'⟩ := hxy'.mem_held
        exact hgrew.2.held_once ho ho' hnew hnew' hmem hmem'
  place hx hv hw := h.place hx (hgrew.2.element_old hv).2 (hgrew.2.element_old hw).2

theorem holds_writeElement {a b : ObjectId} (h : (r.writeElement x index v).Holds a b) :
    r.Holds a b ∨ a = x ∧ v.object? = some b := by
  cases h with
  | field hv hb =>
    obtain ⟨m, f, ho, hv⟩ := field?_eq_some_iff.mp hv
    exact .inl (.field (field?_eq_some_iff.mpr ⟨m, f, composite_writeElement.mp ho, hv⟩) hb)
  | element hv hb =>
    rcases element_writeElement hv with hold | ⟨ha, -, rfl⟩
    · exact .inl (.element hold hb)
    · exact .inr ⟨ha, hb⟩

/-- A new element is one that nothing holds yet. -/
theorem Branching.writeElement (h : r.Branching base c)
    (hin : ∀ {y}, v.object? = some y → base ≤ y.index ∧ y.index < r.objects.size)
    (hroot : v.object? ≠ some c)
    (hfree : ∀ {z y}, v.object? = some y → base ≤ z.index → ¬ r.Holds z y) (x : ObjectId)
    (index : Nat) : (r.writeElement x index v).Branching base c where
  wellFormed := h.wellFormed.writeElement x index v
  base_le := h.base_le
  root_lt := by simpa using h.root_lt
  inside hx hxy := by
    rcases holds_writeElement hxy with hold | ⟨-, hy⟩
    · simpa using h.inside hx hold
    · simpa using hin hy
  root hx hxc := by
    rcases holds_writeElement hxc with hold | ⟨-, hc⟩
    · exact h.root hx hold
    · exact hroot hc
  holder hx hx' hxy hxy' := by
    rcases holds_writeElement hxy with hold | ⟨rfl, hy⟩
    · rcases holds_writeElement hxy' with hold' | ⟨-, hy'⟩
      · exact h.holder hx hx' hold hold'
      · exact (hfree hy' hx hold).elim
    · rcases holds_writeElement hxy' with hold' | ⟨rfl, -⟩
      · exact (hfree hy hx' hold').elim
      · rfl
  place hx hv hw hvy hwy := by
    rcases element_writeElement hv with hold | ⟨-, rfl, rfl⟩
    · rcases element_writeElement hw with hold' | ⟨-, -, rfl⟩
      · exact h.place hx hold hold' hvy hwy
      · exact (hfree hwy hx (.element hold hvy)).elim
    · rcases element_writeElement hw with hold' | ⟨-, rfl, -⟩
      · exact (hfree hvy hx (.element hold' hwy)).elim
      · rfl

theorem keeps_branching (c x : ObjectId) (index : Nat) :
    Step.Keeps (Branching base c : Repository ts → Prop) (Step.element x index) := by
  refine Step.keeps_element ⟨Branching.wellFormed, Branching.grew⟩ ?_ x index
  intro r r' x index v h hgrew hloose
  have h' := h.grew hgrew
  refine h'.writeElement (fun hy => ?_) (fun hc => ?_) (fun {z y} hy hz hzy => ?_) x index
  · obtain ⟨o, ho⟩ := hloose.denotes.object? hy
    exact ⟨Nat.le_trans (Nat.le_trans h.base_le h.root_lt.le) (hloose.new _ hy),
      index_lt_of_object? ho⟩
  · exact Nat.not_lt_of_le (hloose.new c hc) h.root_lt
  · have hnew := hloose.new y hy
    rcases hgrew.2.holds_cases hzy with ⟨-, hold⟩ | ⟨hz, -, -⟩
    · exact Nat.not_lt_of_le hnew (h.inside hz hold).2
    · obtain ⟨o, ho, hmem⟩ := hzy.mem_held
      exact hloose.free ho hz hy hmem

/-! ## Places below a collection -/

/-- The object is found below the collection at these indices. -/
inductive FoundAt (r : Repository ts) (c : ObjectId) : List Nat → ObjectId → Prop
  | root : FoundAt r c [] c
  | element {indices : List Nat} {x y : ObjectId} {index : Nat} {v : Value}
      (hx : FoundAt r c indices x) (hv : (r.elements? x).bind (·.get? index) = some v)
      (hy : v.object? = some y) : FoundAt r c (indices ++ [index]) y

variable {p q : List Nat}

theorem FoundAt.base_le (h : r.Branching base c) (hx : r.FoundAt c p x) : base ≤ x.index := by
  induction hx with
  | root => exact h.base_le
  | element _ hv hy ih => exact (h.inside ih (.element hv hy)).1

/-- No object is found at two places. -/
theorem FoundAt.unique (h : r.Branching base c) (hp : r.FoundAt c p x) (hq : r.FoundAt c q x) :
    p = q := by
  induction hp generalizing q with
  | root =>
    cases hq with
    | root => rfl
    | element hx hv hy => exact (h.root (hx.base_le h) (.element hv hy)).elim
  | @element p x y i v hx hv hy ih =>
    cases hq with
    | root => exact (h.root (hx.base_le h) (.element hv hy)).elim
    | @element q x' _ j w hx' hw hwy =>
      obtain rfl := h.holder (hx.base_le h) (hx'.base_le h) (.element hv hy) (.element hw hwy)
      rw [ih hx', h.place (hx.base_le h) hv hw hy hwy]

theorem Branching.reaches (h : r.Branching base c) (hx : base ≤ x.index)
    (hxy : ReflTransGen r.Holds x y) : base ≤ y.index := by
  induction hxy with
  | refl => exact hx
  | tail _ hstep ih => exact (h.inside ih hstep).1

/-- Whatever leads to an object that is found at a place is found on the way to it. -/
theorem FoundAt.of_reaches (h : r.Branching base c) (hq : r.FoundAt c q y) (hx : base ≤ x.index)
    (hxy : ReflTransGen r.Holds x y) : ∃ p, p <+: q ∧ r.FoundAt c p x := by
  induction hq generalizing x with
  | root =>
    rcases ReflTransGen.cases_tail hxy with rfl | ⟨z, hxz, hzc⟩
    · exact ⟨[], List.prefix_rfl, .root⟩
    · exact (h.root (h.reaches hx hxz) hzc).elim
  | @element q z y i v hz hv hy ih =>
    rcases ReflTransGen.cases_tail hxy with rfl | ⟨u, hxu, huy⟩
    · exact ⟨_, List.prefix_rfl, .element hz hv hy⟩
    · obtain rfl := h.holder (h.reaches hx hxu) (hz.base_le h) huy (.element hv hy)
      obtain ⟨p, hp, hfound⟩ := ih hx hxu
      exact ⟨p, hp.trans (List.prefix_append q [i]), hfound⟩

/-- Of two objects from which one comes to a third, one comes from the first to the second or back.
-/
theorem Branching.total {z : ObjectId} (h : r.Branching base c) (hx : base ≤ x.index)
    (hy : base ≤ y.index) (hxz : ReflTransGen r.Holds x z) (hyz : ReflTransGen r.Holds y z) :
    ReflTransGen r.Holds x y ∨ ReflTransGen r.Holds y x := by
  induction hxz generalizing y with
  | refl => exact .inr hyz
  | @tail u z hxu huz ih =>
    rcases ReflTransGen.cases_tail hyz with rfl | ⟨u', hyu, hu'z⟩
    · exact .inl (hxu.tail huz)
    · obtain rfl := h.holder (h.reaches hx hxu) (h.reaches hy hyu) huz hu'z
      exact ih hy hyu

/-- What is found at two places of which none is above the other holds nothing in common. -/
theorem FoundAt.comparable {z : ObjectId} (h : r.Branching base c) (hp : r.FoundAt c p x)
    (hq : r.FoundAt c q y) (hxz : ReflTransGen r.Holds x z) (hyz : ReflTransGen r.Holds y z) :
    p <+: q ∨ q <+: p := by
  rcases h.total (hp.base_le h) (hq.base_le h) hxz hyz with hxy | hyx
  · obtain ⟨p', hp', hfound⟩ := hq.of_reaches h (hp.base_le h) hxy
    exact .inl (hp.unique h hfound ▸ hp')
  · obtain ⟨q', hq', hfound⟩ := hp.of_reaches h (hq.base_le h) hyx
    exact .inr (hq.unique h hfound ▸ hq')

/-- All elements stay. -/
def KeepsElements (r r' : Repository ts) : Prop :=
  ∀ {x i v}, (r.elements? x).bind (·.get? i) = some v → (r'.elements? x).bind (·.get? i) = some v

theorem FoundAt.later (hp : r.FoundAt c p x) (h : r.KeepsElements r') : r'.FoundAt c p x := by
  induction hp with
  | root => exact .root
  | element _ hv hy ih => exact .element ih (h hv) hy

theorem Extends.keepsElements (h : r.Extends r') : r.KeepsElements r' := by
  intro x i v hv
  obtain ⟨es, hes, -⟩ := Option.bind_eq_some_iff.mp hv
  obtain ⟨m, ho⟩ := elements?_eq_some_iff.mp hes
  rwa [h.elements? (index_lt_of_object? ho)]

theorem keepsElements_writeElement (hnone : (r.elements? x).bind (·.get? index) = none)
    (v : Value) : r.KeepsElements (r.writeElement x index v) := by
  intro a i w hw
  obtain ⟨es, hes, hget⟩ := Option.bind_eq_some_iff.mp hw
  rw [elements?_writeElement, hes, Option.map_some, Option.bind_some]
  split
  · next ha =>
    subst ha
    have hne : index ≠ i := by
      rintro rfl
      simp [hw] at hnone
    rw [Table.get?_insert, if_neg hne, hget]
  · exact hget

end Repository

namespace Step

open Repository (Branching FoundAt KeepsElements)

variable {c : ObjectId} {index : Nat} {v w : Value} {indices : List Nat}

/-- No element is lost when another one is made, and what is answered is an element. -/
theorem element_keepsElements (hr : r.WellFormed) (c : ObjectId) (index : Nat) :
    (element c index).Ensures r
      (fun v r' => r.KeepsElements r' ∧ (r'.elements? c).bind (·.get? index) = some v)
      fun _ r' => r.KeepsElements r' := by
  cases hs : r.shape c with
  | error e =>
    simp only [element, ensures_bind, ensures_query, hs]
    exact ⟨fun s hs' => by simp at hs', fun _ _ => id⟩
  | ok s =>
    obtain ⟨m, es, ho, -⟩ := Repository.shape_eq_ok_iff.mp hs
    apply ensures_element hs
    case hbounds => exact fun _ => id
    case hpresent => exact fun v _ hv => ⟨id, hv⟩
    case hcontent => exact fun _ _ => id
    case hmake =>
      intro content hadmits hnone _
      refine (cloneValue_makes hr content _ _).imp ?_ fun _ _ h => h.2.keepsElements
      rintro v r₁ ⟨hgrew, -⟩
      have hnone₁ : (r₁.elements? c).bind (·.get? index) = none := by
        rwa [hgrew.2.elements? (Repository.index_lt_of_object? ho)]
      have hkeeps : r₁.KeepsElements (r₁.writeElement c index v) :=
        Repository.keepsElements_writeElement hnone₁ v
      refine ⟨fun hw => hkeeps (hgrew.2.keepsElements hw), ?_⟩
      exact (stored_writeElement (hgrew.2.shape_ok hs) hadmits v).value

theorem Takes.foundAt {base : Nat} {root : ObjectId} (h : Takes r v indices w r')
    (hr : r.Branching base root) {p : List Nat} {x y : ObjectId} (hx : r.FoundAt root p x)
    (hv : v.object? = some x) (hw : w.object? = some y) : r'.FoundAt root (p ++ indices) y := by
  induction h generalizing p x with
  | here =>
    obtain rfl := Option.some.inj (hv.symm.trans hw)
    rwa [List.append_nil]
  | @element r r' c index u w rest hu hrest ih =>
    obtain rfl : c = x := by simpa [Value.object?] using hv
    obtain ⟨hkeeps, hstored⟩ := (element_keepsElements hr.wellFormed c index).ok_of_answer hu
    have hr₁ := (Repository.keeps_branching root c index).repo hr
    cases ho : u.object? with
    | none =>
      -- A leaf has no elements.
      cases hrest with
      | here => simp [ho] at hw
      | element => simp [Value.object?] at ho
    | some z =>
      rw [List.append_cons]
      exact ih hr₁ (.element (hx.later hkeeps) hstored ho) ho hw

end Step

/-! ## Levels -/

namespace Repository

variable {template c : ObjectId} {m : ModelId} {leaf owned : Bool} {capacity : Option Nat}
  {cs inner : List (Option Nat)} {name path : String} {index : Nat} {v w : Value}

/-- The canonical template of a datatype whose instances are no collections. -/
structure Cell (r : Repository ts) (template : ObjectId) (m : ModelId) (leaf : Bool) : Prop where
  wellFormed : r.WellFormed
  datatype : ∃ d, r.model? m = some (.datatype d) ∧ d.template = template ∧
    ts.isTemplate d.kind = true ∧ ts.isAlias d.kind = false ∧ ts.isLeaf d.kind = leaf

/-- The value has been made for these dimensions under the path, and so have all elements below it.
-/
def Laid (r : Repository ts) (template : ObjectId) (m : ModelId) (leaf owned : Bool) :
    List (Option Nat) → String → Value → Prop
  | [], path, v => r.HasForm (if leaf then .leaf path else .composite m path) v
  | capacity :: inner, name, v => ∃ c s, v = .collection c ∧ r.shape c = .ok s ∧ s.name = name ∧
      s.capacity = capacity ∧ decide (s.origin = .template) = owned ∧
      r.Nests template inner "" s.element ∧
      ∀ index w, (r.elements? c).bind (·.get? index) = some w →
        Laid r template m leaf owned inner (Path.element name index) w

theorem Cell.grew (h : r.Cell template m leaf) (hgrew : Step.Grew r r') :
    r'.Cell template m leaf := by
  obtain ⟨-, d, hd, hdatatype⟩ := h
  obtain ⟨g, hd'⟩ := hgrew.2.datatype hd
  exact ⟨hgrew.1, _, hd', hdatatype⟩

theorem keeps_cell (x : ObjectId) (index : Nat) :
    Step.Keeps (fun r : Repository ts => r.Cell template m leaf) (Step.element x index) := by
  refine Step.keeps_element ⟨Cell.wellFormed, Cell.grew⟩ (fun x index v h h' _ => ?_) x index
  obtain ⟨hr', d, hd, hdatatype⟩ := h.grew h'
  exact ⟨hr'.writeElement x index v, d, by rwa [model?_writeElement], hdatatype⟩

theorem Cell.valueOf (h : r.Cell template m leaf) :
    r.valueOf template = .ok (.composite template) := by
  obtain ⟨d, hd, rfl, -⟩ := h.datatype
  obtain ⟨f, ho⟩ := h.wellFormed.template hd
  rw [Repository.valueOf, object_eq_ok_iff.mpr ho]
  rfl

/-- There is what elements are copied from: a prototype, or the element datatype itself. -/
theorem Cell.content (h : r.Cell template m leaf) {source : ObjectId}
    (hnests : r.Nests template inner "" source) : ∃ content, r.valueOf source = .ok content := by
  cases inner with
  | nil =>
    obtain rfl : source = template := hnests
    exact ⟨_, h.valueOf⟩
  | cons capacity rest => exact ⟨_, hnests.valueOf (List.cons_ne_nil capacity rest)⟩

/-- What has been made stays, if elements are added that are made in the same way. -/
theorem Laid.later (h : r.Laid template m leaf owned cs name v) (hpreserves : r.Preserves r')
    (hmade : ∀ {c s inner index w}, r.shape c = .ok s → decide (s.origin = .template) = owned →
      r.Nests template inner "" s.element → (r'.elements? c).bind (·.get? index) = some w →
      (r.elements? c).bind (·.get? index) = some w ∨
        r'.Laid template m leaf owned inner (Path.element s.name index) w) :
    r'.Laid template m leaf owned cs name v := by
  induction cs generalizing name v with
  | nil => exact HasForm.preserves hpreserves h
  | cons capacity inner ih =>
    obtain ⟨c, s, rfl, hs, rfl, hcapacity, horigin, hnests, helements⟩ := h
    obtain ⟨k, es, ho, -⟩ := shape_eq_ok_iff.mp hs
    refine ⟨c, s, rfl, (hpreserves c _ ho).shape hs, rfl, hcapacity, horigin,
      hnests.preserves hpreserves, fun index w hw => ?_⟩
    rcases hmade hs horigin hnests hw with hold | hnew
    · exact ih (helements index w hold)
    · exact hnew

/-- What has no elements yet needs no elements. -/
theorem Laid.of_empty (h : r.Laid template m leaf owned cs name v) (hpreserves : r.Preserves r')
    (hempty : ∀ c, v = .collection c → r'.elements? c = some Table.empty) :
    r'.Laid template m leaf owned cs name v := by
  cases cs with
  | nil => exact HasForm.preserves hpreserves h
  | cons capacity inner =>
    obtain ⟨c, s, rfl, hs, hname, hcapacity, horigin, hnests, -⟩ := h
    obtain ⟨k, es, ho, -⟩ := shape_eq_ok_iff.mp hs
    refine ⟨c, s, rfl, (hpreserves c _ ho).shape hs, hname, hcapacity, horigin,
      hnests.preserves hpreserves, fun index w hw => ?_⟩
    simp [hempty c rfl] at hw

/-- A new element is written that is what the shape of its collection asks for. -/
theorem Laid.writeElement {x : ObjectId} {s : Shape} {i : Nat}
    (h : r.Laid template m leaf owned cs name v) (hgrew : Step.Grew r r') (hloose : Loose r r' w)
    (hs : r.shape x = .ok s)
    (hmade : ∀ {inner}, decide (s.origin = .template) = owned →
      r.Nests template inner "" s.element →
        r'.Laid template m leaf owned inner (Path.element s.name i) w) :
    (r'.writeElement x i w).Laid template m leaf owned cs name v := by
  have hwrite := r'.preserves_writeElement x i w
  refine h.later (hgrew.2.preserves.trans hwrite) ?_
  intro c t inner j u ht horigin hnests hu
  rcases element_writeElement hu with hold | ⟨rfl, rfl, rfl⟩
  · exact .inl (hgrew.2.element_old hold).2
  · obtain rfl := Except.ok.inj (ht.symm.trans hs)
    refine .inr ((hmade horigin hnests).of_empty hwrite fun y hy => ?_)
    subst hy
    obtain ⟨k, es, ho⟩ := hloose.denotes
    obtain rfl := hgrew.2.empty_new ho (hloose.new y rfl)
    have hne : y ≠ c := by
      rintro rfl
      obtain ⟨_, _, hold, -⟩ := shape_eq_ok_iff.mp hs
      exact Nat.not_lt_of_le (hloose.new y rfl) (index_lt_of_object? hold)
    rw [elements?_writeElement, elements?_eq_some_iff.mpr ⟨k, ho⟩, Option.map_some, if_neg hne]

end Repository

namespace Step

open Repository (Cell Laid)

variable {template c : ObjectId} {m : ModelId} {leaf owned : Bool} {capacity : Option Nat}
  {cs inner : List (Option Nat)} {name path : String} {index : Nat} {v w : Value}

theorem Made.decide_origin (h : Made owned r r') {x : ObjectId} {s : Shape}
    (hx : r.objects.size ≤ x.index) (hs : r'.shape x = .ok s) :
    decide (s.origin = .template) = owned := by
  rw [← Bool.coe_iff_coe, decide_eq_true_iff]
  exact h.origin hx hs

/-- What an element is copied from is the next prototype, or the element datatype itself, of which
only an instance may fail to be made. -/
theorem cloneValue_laid (hcell : r.Cell template m leaf) {source : ObjectId} {content : Value}
    (hnests : r.Nests template inner "" source) (hcontent : r.valueOf source = .ok content)
    (path : String) (owned : Bool) :
    (cloneValue content path owned).Ensures r
      (fun w r' => r'.Laid template m leaf owned inner path w)
      fun e _ => inner = [] ∧ leaf = false ∧
        ((newInstance template path owned).run r).answer = .error e := by
  have hr := hcell.wellFormed
  cases inner with
  | nil =>
    obtain rfl : source = template := hnests
    obtain ⟨d, hd, rfl, htemplate, halias, hleaf⟩ := hcell.datatype
    obtain rfl := Except.ok.inj (hcell.valueOf.symm.trans hcontent)
    have hisLeaf : r.isLeaf m = leaf := by rw [Repository.isLeaf_datatype hd, hleaf]
    refine ((newInstance_madeInstance hr hd htemplate halias path owned).and
      (ensures_answer _ r)).imp ?_ fun e _ he => ⟨rfl, hisLeaf ▸ he.1, he.2⟩
    rintro w r' ⟨hmade, -⟩
    cases leaf with
    | true =>
      obtain ⟨rfl, -⟩ := hmade.leaf hisLeaf
      exact .leaf path
    | false =>
      obtain ⟨x, g, rfl, -, hx, hname⟩ := hmade.composite hisLeaf
      exact .composite hx hname
  | cons capacity rest =>
    rw [hnests.valueOf (List.cons_ne_nil capacity rest)] at hcontent
    obtain rfl := Except.ok.inj hcontent
    obtain ⟨s, hs, hname, hcapacity, hrest⟩ := hnests
    rw [cloneValue, cloneWith, ensures_map]
    refine ((copyCollection_ensures hr hs path owned).and (made_copyCollection hr source path)).imp
      ?_ fun _ _ h => h.1.elim
    rintro c r' ⟨⟨hgrew, hloose, -, t, ht, htname, helement, htcapacity⟩, hmade⟩
    have hnew := hloose.new c rfl
    refine ⟨c, t, rfl, ht, ?_, htcapacity.trans hcapacity, hmade.decide_origin hnew ht,
      helement ▸ hrest.preserves hgrew.2.preserves, fun index w hw => ?_⟩
    · rw [htname, hname, Path.join_empty_right]
    · exact (Nat.not_lt_of_le hnew (hgrew.2.element_old hw).1).elim

/-- Wherever an element is made, what has been made for the dimensions goes on to be so. -/
theorem element_laid (hcell : r.Cell template m leaf)
    (hlaid : r.Laid template m leaf owned cs name v) (x : ObjectId) (i : Nat) :
    (element x i).Ensures r (fun _ r' => r'.Laid template m leaf owned cs name v)
      fun _ r' => r'.Laid template m leaf owned cs name v := by
  cases hs : r.shape x with
  | error e =>
    simp only [element, ensures_bind, ensures_query, hs]
    exact ⟨fun s hs' => by simp at hs', fun _ _ => hlaid⟩
  | ok s =>
    apply ensures_element hs
    case hbounds => exact fun _ => hlaid
    case hpresent => exact fun _ _ _ => hlaid
    case hcontent => exact fun _ _ => hlaid
    case hmake =>
      intro content _ _ hcontent
      have hmakes := cloneValue_makes hcell.wellFormed content (Path.element s.name i)
        (decide (s.origin = .template))
      refine ensures_of_answer (fun w hw => ?_) fun e he => ?_
      · obtain ⟨hgrew, hloose⟩ := hmakes.ok_of_answer hw
        refine hlaid.writeElement hgrew hloose hs fun horigin hnests => ?_
        subst horigin
        exact (cloneValue_laid hcell hnests hcontent _ _).ok_of_answer hw
      · have hgrew := hmakes.fails_of_answer he
        exact hlaid.later hgrew.2.preserves fun _ _ _ hw => .inl (hgrew.2.element_old hw).2

theorem keeps_laid (x : ObjectId) (i : Nat) :
    Keeps (fun r : Repository ts => r.Cell template m leaf ∧ r.Laid template m leaf owned cs name v)
      (element x i) :=
  ⟨fun r h => ((Repository.keeps_cell x i).ensures r h.1).and (element_laid h.1 h.2 x i)⟩

/-- An element within the range is made, unless there is no instance of the element datatype. -/
theorem element_fails (hcell : r.Cell template m leaf)
    (h : r.Laid template m leaf owned (capacity :: inner) name (.collection c))
    (hin : WithinCapacity capacity index) :
    (element c index).Ensures r (fun _ _ => True) fun e _ => inner = [] ∧ leaf = false ∧
      ((newInstance template (Path.element name index) owned).run r).answer = .error e := by
  obtain ⟨_, s, hc, hs, rfl, rfl, rfl, hnests, -⟩ := h
  obtain rfl := Value.collection.inj hc
  apply ensures_element hs
  case hbounds => exact fun hno => (hno hin).elim
  case hpresent => exact fun _ _ _ => trivial
  case hcontent =>
    intro e he
    obtain ⟨content, hcontent⟩ := hcell.content hnests
    simp [hcontent] at he
  case hmake =>
    intro content _ _ hcontent
    exact (cloneValue_laid hcell hnests hcontent _ _).imp (fun _ _ _ => trivial) fun _ _ h => h

variable {outer : List (Option Nat)} {indices : List Nat}

/-- What one comes to has been made for the dimensions that are left, under the path of the indices.
-/
theorem Takes.laid (h : Takes r v indices w r') (hcell : r.Cell template m leaf)
    (hv : r.Laid template m leaf owned cs name v) : r'.Cell template m leaf ∧
      r'.Laid template m leaf owned (cs.drop indices.length) (Path.elements name indices) w := by
  induction h generalizing cs name with
  | here => exact ⟨hcell, hv⟩
  | @element r r' c index u w rest hu hrest ih =>
    cases cs with
    | nil =>
      -- What is left is no collection.
      cases leaf <;> simp only [Laid, Bool.false_eq_true, if_true, if_false] at hv <;> nomatch hv
    | cons capacity inner =>
      obtain ⟨hcell₁, d, s, hd, -, -, -, -, -, helements⟩ :=
        (keeps_laid c index).repo ⟨hcell, hv⟩
      obtain rfl := Value.collection.inj hd
      have hstored := ((element_keepsElements hcell.wellFormed c index).ok_of_answer hu).2
      exact ih hcell₁ (helements index u hstored)

/-- Indices within the range lead to a collection, if they are less than there are dimensions. -/
theorem takes_of_withinCapacity (hcell : r.Cell template m leaf)
    (hv : r.Laid template m leaf owned (outer ++ capacity :: inner) name v)
    (hindices : List.Forall₂ WithinCapacity outer indices) :
    ∃ d r', Takes r v indices (.collection d) r' := by
  induction hindices generalizing r name v with
  | nil =>
    obtain ⟨d, -, rfl, -⟩ := hv
    exact ⟨d, r, .here⟩
  | @cons bound index outer rest hin hrest ih =>
    obtain ⟨c, s, rfl, -⟩ := id hv
    have hfails := element_fails hcell hv hin
    obtain ⟨u, hu, -⟩ := (hfails.imp (fun _ _ h => h) fun _ _ h => by simp at h).answers
    obtain ⟨hcell₁, hlaid⟩ := (Takes.element hu .here).laid hcell hv
    obtain ⟨d, r', htakes⟩ := ih hcell₁ hlaid
    exact ⟨d, r', .element hu htakes⟩

end Step

/-! ## What nested collections come to -/

namespace Repository

open Step (Accessed Takes)

variable {template c d : ObjectId} {m : ModelId} {owned : Bool} {capacity : Option Nat}
  {inner : List (Option Nat)} {path : String}

/-- A collection at one of several levels, with the capacities that are left below it: its name and
its capacity, which indices are refused, and what the elements of the last level are. -/
structure Level (r r' : Repository ts) (template : ObjectId) (m : ModelId) (owned : Bool)
    (path : String) (capacity : Option Nat) (inner : List (Option Nat)) (d : ObjectId) : Prop where
  shape : ∃ s, r'.shape d = .ok s ∧ s.name = path ∧ s.capacity = capacity
  refused : ∀ index, ¬ WithinCapacity capacity index →
    (Step.element d index).run r' = ⟨.error (.bounds path index (capacity.getD 0)), r', []⟩
  leaf : inner = [] → r'.isLeaf m = true → ∀ index, WithinCapacity capacity index →
    ((Step.element d index).run r').answer = .ok (.accessor (Path.element path index))
  /-- An instance of the element datatype is made under the path of the element. Unless it was
  established in `r` that there is one, it may be that none can be made. -/
  composite : inner = [] → r'.isLeaf m = false → ∀ index, WithinCapacity capacity index →
    let made := (Step.element d index).run r'
    (∃ x f, made.answer = .ok (.composite x) ∧ made.repo.object? x = some (.composite m f) ∧
      made.repo.registeredName x = Path.element path index) ∨
    ¬ r.Established template ∧ ∃ e, made.answer = .error e ∧
      ((Step.newInstance template (Path.element path index) owned).run r').answer = .error e

theorem Laid.level {leaf : Bool} (hr : r.Annotated) (hundisturbed : r.Undisturbed r')
    (hcell : r'.Cell template m leaf)
    (h : r'.Laid template m leaf owned (capacity :: inner) path (.collection d)) :
    r.Level r' template m owned path capacity inner d := by
  have hleaf : r'.isLeaf m = leaf := by
    obtain ⟨e, he, -, -, -, rfl⟩ := hcell.datatype
    exact isLeaf_datatype he
  -- What is answered for an element is what has been made for it.
  have hlaid : ∀ {index u}, ((Step.element d index).run r').answer = .ok u →
      ((Step.element d index).run r').repo.Laid template m leaf owned inner
        (Path.element path index) u := fun hu => ((Takes.element hu .here).laid hcell h).2
  constructor
  case shape =>
    obtain ⟨_, s, hd, hs, hname, hcapacity, -⟩ := h
    obtain rfl := Value.collection.inj hd
    exact ⟨s, hs, hname, hcapacity⟩
  case refused =>
    obtain ⟨_, s, hd, hs, rfl, rfl, -⟩ := h
    obtain rfl := Value.collection.inj hd
    exact fun index hno => Step.run_element_of_not_admits hs hno
  case leaf =>
    rintro rfl hisLeaf index hin
    obtain rfl := hleaf.symm.trans hisLeaf
    obtain ⟨u, hu, -⟩ := ((Step.element_fails hcell h hin).imp (fun _ _ h => h)
      fun _ _ h => by simp at h).answers
    cases hlaid hu
    exact hu
  case composite =>
    rintro rfl hisLeaf index hin made
    obtain rfl := hleaf.symm.trans hisLeaf
    cases hu : made.answer with
    | ok u =>
      cases hlaid hu with
      | composite hx hname => exact .inl ⟨_, _, rfl, hx, hname⟩
    | error e =>
      have he := ((Step.element_fails hcell h hin).fails_of_answer hu).2.2
      refine .inr ⟨fun hestablished => ?_, e, rfl, he⟩
      exact (Step.newInstance_of_established hr hestablished hundisturbed hcell.wellFormed _
        owned).fails_of_answer he

/-- The collection has been built for these capacities and this element datatype under a name: what
one comes to at indices within the range, whatever elements have been asked for before; and what one
comes to at different indices has nothing in common. -/
structure BuiltFor (r made : Repository ts) (template : ObjectId) (m : ModelId) (owned : Bool)
    (capacities : List (Option Nat)) (name : String) (c : ObjectId) : Prop where
  level : ∀ {r₁ outer capacity inner indices}, Accessed made r₁ →
    capacities = outer ++ capacity :: inner → List.Forall₂ WithinCapacity outer indices →
    ∃ d r₂, Takes r₁ (.collection c) indices (.collection d) r₂ ∧
      r.Level r₂ template m owned (Path.elements name indices) capacity inner d
  unique : ∀ {r₀ r₁ r₂ r₃ p q v w x}, Accessed made r₀ → Takes r₀ (.collection c) p v r₁ →
    Accessed r₁ r₂ → Takes r₂ (.collection c) q w r₃ → v.object? = some x → w.object? = some x →
    p = q
  /-- They do not even hold anything in common, unless one leads on to the other. -/
  comparable : ∀ {r₀ r₁ r₂ r₃ p q v w x y z}, Accessed made r₀ → Takes r₀ (.collection c) p v r₁ →
    Accessed r₁ r₂ → Takes r₂ (.collection c) q w r₃ → v.object? = some x → w.object? = some y →
    ReflTransGen r₃.Holds x z → ReflTransGen r₃.Holds y z → p <+: q ∨ q <+: p

variable {capacities : List (Option Nat)} {name : String} {leaf : Bool} {base : Nat}

theorem keeps_foundAt {p : List Nat} {x : ObjectId} (y : ObjectId) (index : Nat) :
    Step.Keeps (fun r : Repository ts => r.Branching base c ∧ r.FoundAt c p x)
      (Step.element y index) := by
  refine ⟨fun r ⟨hr, hx⟩ => ?_⟩
  refine (((keeps_branching c y index).ensures r hr).and
    (Step.element_keepsElements hr.wellFormed y index)).imp ?_ ?_
  · exact fun _ _ h => ⟨h.1, hx.later h.2.1⟩
  · exact fun _ _ h => ⟨h.1, hx.later h.2⟩

/-- Two walks from the root, one after the other, come to places. -/
theorem Branching.foundAt {made r₀ r₁ r₂ r₃ : Repository ts} (h : made.Branching base c)
    {p q : List Nat} {v w : Value} {x y : ObjectId} (h₀ : Accessed made r₀)
    (hp : Takes r₀ (.collection c) p v r₁) (h₂ : Accessed r₁ r₂)
    (hq : Takes r₂ (.collection c) q w r₃) (hx : v.object? = some x) (hy : w.object? = some y) :
    r₃.Branching base c ∧ r₃.FoundAt c p x ∧ r₃.FoundAt c q y := by
  have hb₀ : r₀.Branching base c := h₀.keeps (keeps_branching c) h
  have hb₁ : r₁.Branching base c := (hp.accessed .start).keeps (keeps_branching c) hb₀
  have hx₁ : r₁.FoundAt c p x := by simpa using hp.foundAt hb₀ .root rfl hx
  obtain ⟨hb₃, hx₃⟩ := (hq.accessed h₂).keeps keeps_foundAt ⟨hb₁, hx₁⟩
  have hb₂ : r₂.Branching base c := h₂.keeps (keeps_branching c) hb₁
  exact ⟨hb₃, hx₃, by simpa using hq.foundAt hb₂ .root rfl hy⟩

theorem Laid.builtFor {made : Repository ts} (hr : r.Annotated) (hundisturbed : r.Undisturbed made)
    (hcell : made.Cell template m leaf)
    (hlaid : made.Laid template m leaf owned capacities name (.collection c))
    (hbranching : made.Branching base c) :
    r.BuiltFor made template m owned capacities name c where
  level {r₁ outer capacity inner indices} h₁ hcapacities hindices := by
    obtain ⟨hcell₁, hlaid₁⟩ := h₁.keeps Step.keeps_laid ⟨hcell, hlaid⟩
    subst hcapacities
    obtain ⟨d, r₂, htakes⟩ := Step.takes_of_withinCapacity hcell₁ hlaid₁ hindices
    obtain ⟨hcell₂, hd⟩ := htakes.laid hcell₁ hlaid₁
    rw [← hindices.length_eq, List.drop_left] at hd
    obtain ⟨-, hundisturbed₂⟩ := (htakes.accessed h₁).keeps Step.keeps_undisturbed
      ⟨hcell.wellFormed, hundisturbed⟩
    exact ⟨d, r₂, htakes, hd.level hr hundisturbed₂ hcell₂⟩
  unique h₀ hp h₂ hq hx hy := by
    obtain ⟨hb, hfound, hfound'⟩ := hbranching.foundAt h₀ hp h₂ hq hx hy
    exact hfound.unique hb hfound'
  comparable h₀ hp h₂ hq hx hy hxz hyz := by
    obtain ⟨hb, hfound, hfound'⟩ := hbranching.foundAt h₀ hp h₂ hq hx hy
    exact hfound.comparable hb hfound' hxz hyz

theorem capacities_eq_ok_iff {q : Qualifier} : r.capacities q = .ok capacities ↔
    List.Forall₂ (fun bound capacity => r.resolveBound bound = .ok capacity) q.bounds capacities ∧
      capacities.length ≤ ts.limits.dimensions := by
  constructor
  · intro h
    refine ⟨forall₂_of_capacities h, ?_⟩
    obtain ⟨bounds, -, hlimit⟩ := bind_eq_ok_iff.mp h
    split at hlimit
    · simp at hlimit
    · next hle =>
      obtain rfl := Except.ok.inj hlimit
      exact Nat.not_lt.mp hle
  · rintro ⟨hbounds, hlimit⟩
    refine bind_eq_ok_iff.mpr ⟨capacities, mapM_eq_ok_iff.mpr hbounds, ?_⟩
    rw [if_neg (Nat.not_lt.mpr hlimit)]

/-- Collections of the dimensions of the qualifier can have the canonical template for elements: it
is no alias, all dimensions have capacities, and they are not too many. -/
structure Dimensioned (r : Repository ts) (template : ObjectId) (m : ModelId) (q : Qualifier)
    (capacities : List (Option Nat)) : Prop where
  canonical : r.canonicalModel template = .ok m
  template : r.assertTemplateKind template = .ok template
  plain : r.isAlias m = false
  resolved :
    List.Forall₂ (fun bound capacity => r.resolveBound bound = .ok capacity) q.bounds capacities
  within : capacities.length ≤ ts.limits.dimensions

theorem Dimensioned.cell {q : Qualifier} (h : r.Dimensioned template m q capacities)
    (hr : r.WellFormed) : r.Cell template m (r.isLeaf m) := by
  obtain ⟨hm, d, hd, rfl⟩ := canonicalModel_eq_ok_iff.mp h.canonical
  obtain ⟨-, k, f, e, ho, he, htemplate⟩ := assertTemplateKind_eq_ok_iff.mp h.template
  obtain rfl := Option.some.inj (hm.symm.trans (modelOf?_of_object? ho))
  obtain rfl := datatype_unique hd he
  exact ⟨hr, d, hd, rfl, htemplate, (isAlias_datatype hd).symm.trans h.plain,
    (isLeaf_datatype hd).symm⟩

end Repository

namespace Step

variable {template : ObjectId} {m : ModelId} {capacities : List (Option Nat)} {q : Qualifier}

/-- The collections of a qualifier are made, and come to what it describes. -/
theorem newCollections_builtFor (ha : r.Annotated) (h : r.Dimensioned template m q capacities)
    (name : String) (owned : Bool) :
    (newCollections template q name owned).Ensures r
      (fun c r' => r.BuiltFor r' template m owned capacities name c) fun _ _ => False := by
  have hr := ha.wellFormed
  have hcapacities := Repository.capacities_eq_ok_iff.mpr ⟨h.resolved, h.within⟩
  have hform : r.nestedForm template q name = .ok (.nested template capacities name) :=
    Repository.nestedForm_ok_iff.mpr
      ⟨Repository.checkContent_eq_ok_iff.mpr (.inr h.template), capacities, hcapacities, rfl⟩
  refine ((newCollections_answers hr hform).and ((newCollections_makes hr template q name owned).and
    ((newCollections_hasForm hr template q name owned).and
      (made_newCollections hr template q name)))).imp ?_ fun _ _ h => h.1
  rintro c r' ⟨-, ⟨hgrew, hloose, -⟩, ⟨form, hform', hc⟩, hmade⟩
  obtain rfl := Except.ok.inj (hform.symm.trans hform')
  have hcell : r'.Cell template m (r.isLeaf m) := (h.cell hr).grew hgrew
  refine Repository.Laid.builtFor ha ((Repository.Undisturbed.refl r).extend hgrew.2) hcell ?_
    (Repository.branching_of_loose hgrew hloose)
  have hnew := hloose.new c rfl
  cases hc with
  | nested hne hnests =>
    obtain ⟨capacity, inner, rfl⟩ := List.exists_cons_of_ne_nil hne
    obtain ⟨s, hs, hname, hcapacity, hinner⟩ := hnests
    refine ⟨c, s, rfl, hs, hname, hcapacity, hmade.decide_origin hnew hs, hinner, ?_⟩
    exact fun index w hw => (Nat.not_lt_of_le hnew (hgrew.2.element_old hw).1).elim

/-- So it is for every step that makes these collections and nothing else. -/
theorem collection_builtFor (hr : r.Annotated) (h : r.Dimensioned template m q capacities)
    {name : String} {owned : Bool} {x : Step ts Value}
    (hx : x.run r = (Value.collection <$> newCollections template q name owned).run r) :
    ∃ c, (x.run r).answer = .ok (.collection c) ∧
      r.BuiltFor (x.run r).repo template m owned capacities name c := by
  have hbuilt : (Value.collection <$> newCollections template q name owned).Ensures r
      (fun v r' => ∃ c, v = .collection c ∧ r.BuiltFor r' template m owned capacities name c)
      fun _ _ => False :=
    ensures_map.mpr ((newCollections_builtFor hr h name owned).imp (fun c _ hc => ⟨c, rfl, hc⟩)
      fun _ _ h => h)
  obtain ⟨v, hv, c, rfl, hc⟩ := hbuilt.answers
  rw [hx]
  exact ⟨c, hv, hc⟩

end Step

/-! ## Reached repositories -/

namespace Repository

variable {template : ObjectId} {m : ModelId} {q : Qualifier} {capacities : List (Option Nat)}

/-- What is built of a template along the dimensions of a qualifier: for a member that has the
qualifier, and as an instance of an alias that stands for it. -/
structure Builds (r : Repository ts) (template : ObjectId) (m : ModelId) (q : Qualifier)
    (capacities : List (Option Nat)) : Prop where
  member : ∀ role {qualifiers}, qualifiers.find? r.isCollectionQualifier = some q →
    let made := (Step.createRoleInstance template role qualifiers).run r
    ∃ c, made.answer = .ok (.collection c) ∧
      r.BuiltFor made.repo template m true capacities role c
  typedef : ∀ {id} name owned, r.seed id = .ok (.nested template q) →
    let made := (Step.newInstance id name owned).run r
    ∃ c, made.answer = .ok (.collection c) ∧
      r.BuiltFor made.repo template m owned capacities name c

theorem Dimensioned.builds (h : r.Dimensioned template m q capacities) (hr : r.Annotated) :
    r.Builds template m q capacities where
  member role qualifiers hq := by
    refine Step.collection_builtFor hr h ?_
    rw [Step.createRoleInstance, Step.run_query_bind, h.template]
    show Step.run (Step.ask _ >>= _) r = _
    rw [Step.run_ask_bind, hq]
  typedef _ _ hseed := Step.collection_builtFor hr h (Step.run_newInstance_of_nested hseed)

end Repository

/-- In every state of every run from the empty repository, and of every run of the facade: if the
dimensions of a qualifier have capacities and are not too many, collections are built of a canonical
template that is no alias, for a member as well as through an alias. Whatever elements are asked
for, indices within the range lead from level to level, and each has its capacity, is named for the
indices, and refuses all others; on the last level there is the path of a leaf, or a composite that
is registered under its path, provided that an instance of the template could be made before, of
what had been made by then. Otherwise it may be refused, as the instance then is. What different
indices lead to has nothing in common. -/
theorem builds_of_reached (ts : TypeSystem κ) (limits : Limits) :
    (∀ operations : List (Operation κ),
      let r := Operation.run (Repository.empty ts) operations
      ∀ {template m q capacities}, r.Dimensioned template m q capacities →
        r.Builds template m q capacities) ∧
    (∀ operations : List Idl.Operation,
      let r := Idl.Operation.run (Idl.initial limits) operations
      ∀ {template m q capacities}, r.Dimensioned template m q capacities →
        r.Builds template m q capacities) := by
  constructor
  · intro operations r template m q capacities h
    exact h.builds (Operation.annotated_run ts operations)
  · intro operations r template m q capacities h
    exact h.builds (Idl.Operation.annotated_run limits operations)

open Idl in
/-- Two rows of points without end: the second row is named for its index, and refuses zero only. -/
theorem builds_rows :
    let r := Idl.Operation.run (initial ⟨4, 4⟩)
      [.newStruct "Point" [.member ⟨"x", Atom.long.template, [], []⟩]]
    let rows := array [.size 2, .unbounded]
    let made := (Step.createRoleInstance ⟨21⟩ "s" [rows]).run r
    r.Dimensioned ⟨21⟩ ⟨21⟩ rows [some 2, none] ∧ r.Established ⟨21⟩ ∧
      made.answer = .ok (.collection ⟨23⟩) ∧
      ∃ d r', Step.Takes made.repo (.collection ⟨23⟩) [2] (.collection d) r' ∧
        r.Level r' ⟨21⟩ ⟨21⟩ true "s[2]" none [] d := by
  intro r rows made
  have hdimensions : r.Dimensioned ⟨21⟩ ⟨21⟩ rows [some 2, none] := by
    refine ⟨by decide +kernel, by decide +kernel, by decide +kernel, ?_, by decide +kernel⟩
    exact .cons (by decide +kernel) (.cons (by decide +kernel) .nil)
  -- A point holds a leaf only.
  have hsources : r.sources ⟨21⟩ = [] := by decide +kernel
  have hgrounded : r.Grounded ⟨21⟩ :=
    Repository.grounded_of_sources (by decide +kernel) fun x hx => by simp [hsources] at hx
  have hinstance : ((Step.newInstance ⟨21⟩ "p" false).run r).answer = .ok (.composite ⟨22⟩) := by
    decide +kernel
  have hmade : made.answer = .ok (.collection ⟨23⟩) := by decide +kernel
  have hrows : [rows].find? r.isCollectionQualifier = some rows := by decide +kernel
  obtain ⟨c, hc, hbuilt⟩ :=
    ((builds_of_reached (system ⟨4, 4⟩) ⟨4, 4⟩).2 _ hdimensions).member "s" hrows
  obtain rfl := Value.collection.inj (Except.ok.inj (hc.symm.trans hmade))
  have hsplit : [some 2, none] = [some 2] ++ none :: ([] : List (Option Nat)) := rfl
  have hin : List.Forall₂ WithinCapacity [some 2] [2] := .cons ⟨by decide, by simp⟩ .nil
  obtain ⟨d, r', htakes, hlevel⟩ := hbuilt.level .start hsplit hin
  exact ⟨hdimensions, ⟨hgrounded, "p", false, _, hinstance⟩, hmade, d, r', htakes, hlevel⟩

open Idl in
/-- All lines hold what is no object yet. Where the instance of a line finds a point that has just
been made for it, the elements of a new collection find this collection, and are not made. -/
theorem element_refused_of_unborn :
    let r := Idl.Operation.run (initial ⟨4, 4⟩)
      [.newStruct "Point" [.member ⟨"x", Atom.long.template, [], []⟩],
        .newStruct "Line" [.member ⟨"end", ⟨21⟩, [], []⟩],
        .repository (.updateInstances ⟨22⟩ "via" (some (.composite ⟨24⟩)))]
    let made := (Step.createRoleInstance ⟨22⟩ "s" [array [.size 2]]).run r
    r.Dimensioned ⟨22⟩ ⟨22⟩ (array [.size 2]) [some 2] ∧
      ((Step.newInstance ⟨22⟩ "i" true).run r).answer = .ok (.composite ⟨26⟩) ∧
      made.answer = .ok (.collection ⟨24⟩) ∧
      ((Step.element ⟨24⟩ 1).run made.repo).answer = .error (.template (.unsuited "s")) := by
  intro r made
  refine ⟨⟨by decide +kernel, by decide +kernel, by decide +kernel, ?_, by decide +kernel⟩,
    by decide +kernel, by decide +kernel, by decide +kernel⟩
  exact .cons (by decide +kernel) .nil

end Metamodel
