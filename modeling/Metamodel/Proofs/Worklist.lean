import Mathlib.Data.List.Nodup
import Mathlib.Data.List.Perm.Subperm
import Mathlib.Data.List.TakeWhile

/-!
# Metamodel.Proofs.Worklist -- searches that remember what they have seen

Two functions walk a graph with a stack and a list of what has been seen, for at most as many rounds
as there are nodes and one more. What they share is stated here: how an item is taken from the
stack, and that distinct numbers below a bound are not more than the bound, so that the rounds are
never used up.
-/

namespace Metamodel

variable {α : Type} {p : α → Bool} {xs rest : List α} {a : α}

/-- The first item that is not skipped; what comes before it is. -/
theorem of_dropWhile_eq_cons (h : xs.dropWhile p = a :: rest) :
    p a = false ∧ ∀ x ∈ xs, p x = true ∨ x = a ∨ x ∈ rest := by
  induction xs with
  | nil => simp at h
  | cons b bs ih =>
    cases hb : p b with
    | true =>
      rw [List.dropWhile_cons_of_pos hb] at h
      obtain ⟨ha, hbs⟩ := ih h
      refine ⟨ha, fun x hx => ?_⟩
      rcases List.mem_cons.mp hx with rfl | hx
      · exact Or.inl hb
      · exact hbs x hx
    | false =>
      rw [List.dropWhile_cons_of_neg (by simp [hb])] at h
      obtain ⟨rfl, rfl⟩ := List.cons.inj h
      exact ⟨hb, fun x hx => Or.inr (List.mem_cons.mp hx)⟩

/-- What comes after the first item that is not skipped was there. -/
theorem mem_of_dropWhile_eq_cons (h : xs.dropWhile p = a :: rest) :
    a ∈ xs ∧ ∀ x ∈ rest, x ∈ xs := by
  have hsub := (List.dropWhile_sublist (l := xs) p).subset
  rw [h] at hsub
  exact ⟨hsub List.mem_cons_self, fun x hx => hsub (List.mem_cons_of_mem a hx)⟩

/-- Items with distinct numbers below a bound are not more than the bound. -/
theorem length_le_of_nodup {number : α → Nat} (hnumber : ∀ x y, number x = number y → x = y)
    {n : Nat} (hxs : xs.Nodup) (hlt : ∀ x ∈ xs, number x < n) : xs.length ≤ n := by
  have hnodup : (xs.map number).Nodup := List.Nodup.map (fun x y hxy => hnumber x y hxy) hxs
  have hsub : xs.map number ⊆ List.range n := by
    intro k hk
    obtain ⟨x, hx, rfl⟩ := List.mem_map.mp hk
    exact List.mem_range.mpr (hlt x hx)
  have hle := (hnodup.subperm hsub).length_le
  simpa using hle

end Metamodel
