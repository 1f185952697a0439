import Metamodel.Proofs.Invariant

/-!
# Metamodel.Proofs.Ownership -- what goes with an object that is released

`r.GoesWith root x` says that `x` is the object to be released or is held, in a field or as an
element, by something that goes with it, where canonical templates are passed by. Main statement:
the traversal of a release finds exactly these objects, and each of them once. They may hold each
other in circles: each round meets an object that was not met before, so that the rounds are never
used up.
-/

namespace Metamodel.Repository

variable {κ : Type} {ts : TypeSystem κ} {r : Repository ts}

/-! ## What goes with an object -/

/-- What is released together with `root`: the object itself, and every live object but a canonical
template that is held, in a field or as an element, by something that is released. -/
inductive GoesWith (r : Repository ts) (root : ObjectId) : ObjectId → Prop
  | root : GoesWith r root root
  | held {a x : ObjectId} {o : Object} : GoesWith r root a → r.object? a = some o → x ∈ o.held →
      r.isLive x = true → r.isTemplate x = false → GoesWith r root x

theorem GoesWith.live {root x : ObjectId} (h : r.GoesWith root x) (hroot : r.isLive root = true) :
    r.isLive x = true := by
  cases h with
  | root => exact hroot
  | held _ _ _ hlive _ => exact hlive

/-- The traversal passes by what is gone and every template that it does not start from. -/
theorem isSpared_eq_false_iff {root x : ObjectId} :
    r.isSpared root x = false ↔ r.isLive x = true ∧ (x = root ∨ r.isTemplate x = false) := by
  unfold isSpared
  by_cases hx : x = root <;> cases r.isLive x <;> cases r.isTemplate x <;> simp [hx]

/-! ## The traversal -/

/-- What holds before a round of the traversal: there are rounds enough for all objects that have
not been found, what has been found is live, and whatever that holds has been found, is still on the
stack or is spared. -/
structure Collecting (r : Repository ts) (root : ObjectId) (rounds : Nat)
    (found stack : List ObjectId) : Prop where
  rounds_lt : r.objects.size < rounds + found.length
  nodup : found.Nodup
  live : ∀ x ∈ found, r.isLive x = true
  closed : ∀ a ∈ found, ∀ o x, r.object? a = some o → x ∈ o.held → r.isSpared root x = false →
    x ∈ found ∨ x ∈ stack

variable {root id : ObjectId} {rounds : Nat} {found stack rest : List ObjectId}

/-- Distinct live objects are not more than there are, so that the rounds are never used up. -/
theorem not_collecting_zero : ¬ r.Collecting root 0 found stack := by
  intro h
  have hlt : ∀ x ∈ found, x.index < r.objects.size := by
    intro x hx
    obtain ⟨o, ho⟩ := isLive_iff.mp (h.live x hx)
    exact index_lt_of_object? ho
  have hle := length_le_of_nodup (fun _ _ h => ObjectId.eq_iff.mpr h) h.nodup hlt
  have hrounds := h.rounds_lt
  omega

/-- What had been found or was on the stack, and is not spared, has been found or is on the stack
after a round. -/
theorem mem_of_dropWhile_spared {held : List ObjectId}
    (hdrop : (stack.dropWhile fun id => found.contains id || r.isSpared root id) = id :: rest)
    {x : ObjectId} (hx : x ∈ found ∨ x ∈ stack) (hspared : r.isSpared root x = false) :
    x ∈ id :: found ∨ x ∈ held ++ rest := by
  rcases hx with hx | hx
  · exact Or.inl (List.mem_cons_of_mem id hx)
  · rcases (of_dropWhile_eq_cons hdrop).2 x hx with hskip | rfl | hx
    · exact Or.inl (List.mem_cons_of_mem id (by simpa [hspared] using hskip))
    · exact Or.inl List.mem_cons_self
    · exact Or.inr (List.mem_append_right held hx)

/-- A round in which an object is found. -/
theorem Collecting.round (h : r.Collecting root (rounds + 1) found stack)
    (hdrop : (stack.dropWhile fun id => found.contains id || r.isSpared root id) = id :: rest) :
    r.Collecting root rounds (id :: found) (((r.object? id).elim [] Object.held) ++ rest) := by
  have htaken := (of_dropWhile_eq_cons hdrop).1
  rw [Bool.or_eq_false_iff, isSpared_eq_false_iff] at htaken
  obtain ⟨hnew, hlive, -⟩ := htaken
  constructor
  case rounds_lt =>
    have hlt := h.rounds_lt
    rw [List.length_cons]
    omega
  case nodup => exact List.nodup_cons.mpr ⟨by simpa using hnew, h.nodup⟩
  case live =>
    intro x hx
    rcases List.mem_cons.mp hx with rfl | hx
    · exact hlive
    · exact h.live x hx
  case closed =>
    intro a ha o x ho hx hspared
    rcases List.mem_cons.mp ha with rfl | ha
    · rw [ho]
      exact Or.inr (List.mem_append_left rest hx)
    · exact mem_of_dropWhile_spared hdrop (h.closed a ha o x ho hx hspared) hspared

/-- The traversal finds nothing twice, it finds what it starts with, and it finds whatever is held
by what it finds, apart from what is spared. -/
theorem Collecting.ownedFrom (h : r.Collecting root rounds found stack) :
    (r.ownedFrom root rounds found stack).Nodup ∧
      (∀ x, x ∈ found ∨ x ∈ stack → r.isSpared root x = false →
        x ∈ r.ownedFrom root rounds found stack) ∧
      ∀ a ∈ r.ownedFrom root rounds found stack, ∀ o x, r.object? a = some o → x ∈ o.held →
        r.isSpared root x = false → x ∈ r.ownedFrom root rounds found stack := by
  induction rounds generalizing found stack with
  | zero => exact (not_collecting_zero h).elim
  | succ rounds ih =>
    unfold Repository.ownedFrom
    split
    · next hdrop =>
      -- Nothing is left on the stack but what has been found or is spared.
      have hleft : ∀ x ∈ stack, r.isSpared root x = false → x ∈ found := by
        intro x hx hspared
        have hskip := List.dropWhile_eq_nil_iff.mp hdrop x hx
        simpa [hspared] using hskip
      refine ⟨h.nodup, ?_, ?_⟩
      · intro x hx hspared
        exact hx.elim (fun hx => hx) fun hx => hleft x hx hspared
      · intro a ha o x ho hx hspared
        exact (h.closed a ha o x ho hx hspared).elim (fun hx => hx) fun hx => hleft x hx hspared
    · next id rest hdrop =>
      obtain ⟨hnodup, hstart, hclosed⟩ := ih (h.round hdrop)
      refine ⟨hnodup, ?_, hclosed⟩
      intro x hx hspared
      exact hstart x (mem_of_dropWhile_spared hdrop hx hspared) hspared

/-- Before the first round nothing has been found. -/
theorem collecting_start (r : Repository ts) (root : ObjectId) :
    r.Collecting root (r.objects.size + 1) [] [root] :=
  ⟨by simp, List.nodup_nil, by simp, by simp⟩

theorem nodup_owned (r : Repository ts) (root : ObjectId) : (r.owned root).Nodup :=
  (collecting_start r root).ownedFrom.1

/-- The traversal finds exactly what goes with a live object. -/
theorem mem_owned_iff {x : ObjectId} :
    x ∈ r.owned root ↔ r.isLive root = true ∧ r.GoesWith root x := by
  constructor
  · apply ownedFrom_induction
    · intro a o x ha ho hx hspared
      obtain ⟨hlive, rfl | htemplate⟩ := isSpared_eq_false_iff.mp hspared
      · exact ⟨ha.1, .root⟩
      · exact ⟨ha.1, ha.2.held ho hx hlive htemplate⟩
    · simp
    · intro x hx hspared
      rw [List.mem_singleton.mp hx] at hspared ⊢
      exact ⟨(isSpared_eq_false_iff.mp hspared).1, .root⟩
  · intro h
    obtain ⟨hroot, hx⟩ := h
    obtain ⟨-, hstart, hclosed⟩ := (collecting_start r root).ownedFrom
    induction hx with
    | root =>
      exact hstart root (Or.inr List.mem_cons_self)
        (isSpared_eq_false_iff.mpr ⟨hroot, Or.inl rfl⟩)
    | @held a x o _ ho hx hlive htemplate ih =>
      exact hclosed a ih o x ho hx (isSpared_eq_false_iff.mpr ⟨hlive, Or.inr htemplate⟩)

end Metamodel.Repository
