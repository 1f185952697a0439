import Mathlib.Data.List.Forall2
import Metamodel.Proofs.Lookup

/-!
# Metamodel.Proofs.Fieldwise -- tables with the same keys

`t.Fieldwise R u` says that two tables have the same keys in the same order, and that the values of
each key are related. Binding a key to related values in both, and removing it from both, keeps
tables fieldwise related.
-/

namespace Metamodel.Table

variable {κ ν μ ξ : Type}

/-- The tables have the same keys in the same order, with related values. -/
def Fieldwise (R : ν → μ → Prop) (t : Table κ ν) (u : Table κ μ) : Prop :=
  List.Forall₂ (fun a b => b.1 = a.1 ∧ R a.2 b.2) t.entries u.entries

variable {R S : ν → μ → Prop} {t : Table κ ν} {u : Table κ μ}

namespace Fieldwise

theorem imp (h : t.Fieldwise R u) (hRS : ∀ v w, v ∈ t.values → w ∈ u.values → R v w → S v w) :
    t.Fieldwise S u := by
  obtain ⟨es⟩ := t
  obtain ⟨fs⟩ := u
  change List.Forall₂ _ es fs at h ⊢
  change ∀ v w, v ∈ es.map (·.2) → w ∈ fs.map (·.2) → _ at hRS
  induction h with
  | nil => exact .nil
  | cons hab _ ih =>
    refine .cons ⟨hab.1, hRS _ _ (by simp) (by simp) hab.2⟩ (ih fun v w hv hw => ?_)
    exact hRS v w (List.mem_cons_of_mem _ hv) (List.mem_cons_of_mem _ hw)

theorem keys_eq (h : t.Fieldwise R u) : u.keys = t.keys := by
  obtain ⟨es⟩ := t
  obtain ⟨fs⟩ := u
  change List.Forall₂ _ es fs at h
  show fs.map (·.1) = es.map (·.1)
  induction h with
  | nil => rfl
  | cons hab _ ih => rw [List.map_cons, List.map_cons, hab.1, ih]

theorem of_mem_right (h : t.Fieldwise R u) {w : μ} (hw : w ∈ u.values) :
    ∃ v ∈ t.values, R v w := by
  obtain ⟨es⟩ := t
  obtain ⟨fs⟩ := u
  change List.Forall₂ _ es fs at h
  change w ∈ fs.map (·.2) at hw
  show ∃ v ∈ es.map (·.2), _
  induction h with
  | nil => simp at hw
  | cons hab _ ih =>
    rcases List.mem_cons.mp hw with rfl | hw
    · exact ⟨_, List.mem_cons_self, hab.2⟩
    · obtain ⟨v, hv, hR⟩ := ih hw
      exact ⟨v, List.mem_cons_of_mem _ hv, hR⟩

/-- A table is fieldwise related to itself if each value is. -/
theorem of_self {R : ν → ν → Prop} (h : ∀ v ∈ t.values, R v v) : t.Fieldwise R t := by
  refine List.forall₂_same.mpr fun e he => ⟨rfl, h e.2 ?_⟩
  exact List.mem_map.mpr ⟨e, he, rfl⟩

theorem symm (h : t.Fieldwise R u) : u.Fieldwise (fun w v => R v w) t :=
  List.Forall₂.flip (List.Forall₂.imp (fun _ _ hab => ⟨hab.1.symm, hab.2⟩) h)

/-- Two tables that are related to the same one are related to each other. -/
theorem join {w : Table κ ξ} {S : ν → ξ → Prop} {Q : μ → ξ → Prop} (h : t.Fieldwise R u)
    (h' : t.Fieldwise S w) (hQ : ∀ v a b, R v a → S v b → Q a b) : u.Fieldwise Q w := by
  obtain ⟨es⟩ := t
  obtain ⟨fs⟩ := u
  obtain ⟨gs⟩ := w
  change List.Forall₂ _ es fs at h
  change List.Forall₂ _ es gs at h'
  show List.Forall₂ _ fs gs
  induction h generalizing gs with
  | nil =>
    cases h'
    exact .nil
  | cons hab _ ih =>
    cases h' with
    | cons hac hrest =>
      exact .cons ⟨hac.1.trans hab.1.symm, hQ _ _ _ hab.2 hac.2⟩ (ih _ hrest)

variable [DecidableEq κ]

/-- What the two tables have for a key is related. -/
theorem of_get? (h : t.Fieldwise R u) {k : κ} {v : ν} (hv : t.get? k = some v) :
    ∃ w, u.get? k = some w ∧ R v w := by
  obtain ⟨es⟩ := t
  obtain ⟨fs⟩ := u
  change List.Forall₂ _ es fs at h
  change find? k es = some v at hv
  show ∃ w, find? k fs = some w ∧ _
  induction h with
  | nil => simp [find?] at hv
  | @cons a b _ _ hab _ ih =>
    by_cases ha : a.1 = k
    · obtain rfl : a.2 = v := by simpa [find?, ha] using hv
      exact ⟨b.2, by simp [find?, hab.1, ha], hab.2⟩
    · simp only [find?, ha, if_false, hab.1] at hv ⊢
      exact ih hv

theorem insert (h : t.Fieldwise R u) (k : κ) {v : ν} {w : μ} (hvw : R v w) :
    (t.insert k v).Fieldwise R (u.insert k w) := by
  obtain ⟨es⟩ := t
  obtain ⟨fs⟩ := u
  change List.Forall₂ _ es fs at h
  show List.Forall₂ _ (put k v es) (put k w fs)
  induction h with
  | nil => exact .cons ⟨rfl, hvw⟩ .nil
  | @cons a b _ _ hab hrest ih =>
    by_cases ha : a.1 = k
    · simp only [put, hab.1, ha, if_true]
      exact .cons ⟨rfl, hvw⟩ hrest
    · simp only [put, hab.1, ha, if_false]
      exact .cons hab ih

theorem erase (h : t.Fieldwise R u) (k : κ) : (t.erase k).Fieldwise R (u.erase k) := by
  obtain ⟨es⟩ := t
  obtain ⟨fs⟩ := u
  change List.Forall₂ _ es fs at h
  show List.Forall₂ _ (es.filter _) (fs.filter _)
  induction h with
  | nil => exact .nil
  | @cons a b _ _ hab _ ih =>
    by_cases ha : a.1 = k
    · rw [List.filter_cons_of_neg (by simp [ha]), List.filter_cons_of_neg (by simp [hab.1, ha])]
      exact ih
    · rw [List.filter_cons_of_pos (by simp [ha]), List.filter_cons_of_pos (by simp [hab.1, ha])]
      exact .cons hab ih

/-- Binding a key to related values in both, or removing it from both. -/
theorem change (h : t.Fieldwise R u) (k : κ) {v : Option ν} {w : Option μ}
    (hvw : Option.Rel R v w) :
    (v.elim (t.erase k) (t.insert k)).Fieldwise R (w.elim (u.erase k) (u.insert k)) := by
  cases hvw with
  | none => exact h.erase k
  | some hvw => exact h.insert k hvw

end Fieldwise

end Metamodel.Table
