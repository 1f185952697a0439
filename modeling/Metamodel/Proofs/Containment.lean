import Mathlib.Logic.Relation
import Metamodel.Containment
import Metamodel.Proofs.Alias
import Metamodel.Proofs.Answers
import Metamodel.Proofs.WellFormed
import Metamodel.Proofs.Worklist

/-!
# Metamodel.Proofs.Containment -- what the search for a model finds out

`r.Contains m n` is the relation that must not run in circles: a field of the canonical template of
`m` is a composite of `n`. Main statement: if `reachesModel` says that a datatype does not come to a
model, then no chain of `Contains` leads from one to the other. The number of rounds that the search
is given is enough for that, since each round meets a model that was not met before.
-/

namespace Metamodel.Repository

open Relation (ReflTransGen TransGen)

variable {κ : Type} {ts : TypeSystem κ} {r : Repository ts}

/-- A field of the canonical template of the one model is a composite of the other. -/
def Contains (r : Repository ts) (m n : ModelId) : Prop :=
  ∃ d f role id, r.model? m = some (.datatype d) ∧ r.fields? d.template = some f ∧
    f.get? role = some (.composite id) ∧ r.modelOf? id = some n

/-- No datatype contains itself, directly or through others. -/
def Acyclic (r : Repository ts) : Prop :=
  ∀ m, ¬ TransGen r.Contains m m

/-! ## One step of the search -/

/-- The models that are found in a template are those that it contains. -/
theorem mem_heldModels {m n : ModelId} {held : List ModelId} (h : r.heldModels m = .ok held)
    (hmn : r.Contains m n) : n ∈ held := by
  obtain ⟨d, f, role, id, hd, hf, hid, hn⟩ := hmn
  simp only [heldModels, template?_datatype hd, Option.bind_some, hf] at h
  have hmem : id ∈ f.values.filterMap Value.composite? :=
    List.mem_filterMap.mpr ⟨_, Table.mem_values_of_get? hid, rfl⟩
  obtain ⟨n', hn', hok⟩ := (mapM_eq_ok_iff.mp h).exists_right hmem
  rw [modelOf_eq_ok_iff, hn] at hok
  exact Option.some.inj hok ▸ hn'

theorem heldModels_lt (hr : r.WellFormed) {m n : ModelId} {held : List ModelId}
    (h : r.heldModels m = .ok held) (hn : n ∈ held) : n.index < r.models.size := by
  unfold heldModels at h
  split at h
  · obtain ⟨id, -, hok⟩ := (mapM_eq_ok_iff.mp h).exists_left hn
    exact hr.model_lt_of_modelOf? (modelOf_eq_ok_iff.mp hok)
  · obtain rfl : [] = held := by simpa using h
    simp at hn

/-- A template tells what it contains if every composite in it is bound to a model. -/
theorem exists_heldModels {m : ModelId} {t : ObjectId} {f : Table String Value}
    {S : ModelId → Prop} (ht : r.template? m = some t) (hf : r.fields? t = some f)
    (hS : ∀ x, .composite x ∈ f.values → ∃ n, r.modelOf? x = some n ∧ S n) :
    ∃ held, r.heldModels m = .ok held ∧ ∀ n ∈ held, S n := by
  have hmodels : ∀ id ∈ f.values.filterMap Value.composite?, ∃ n, r.modelOf id = .ok n ∧ S n := by
    intro id hid
    obtain ⟨v, hv, hcomposite⟩ := List.mem_filterMap.mp hid
    cases v with
    | composite x =>
      obtain rfl : x = id := by simpa [Value.composite?] using hcomposite
      obtain ⟨n, hn, hSn⟩ := hS x hv
      exact ⟨n, modelOf_eq_ok_iff.mpr hn, hSn⟩
    | _ => simp [Value.composite?] at hcomposite
  obtain ⟨held, hheld⟩ := exists_mapM_eq_ok fun id hid => (hmodels id hid).imp fun _ => And.left
  refine ⟨held, ?_, fun n hn => ?_⟩
  · simp only [heldModels, ht, Option.bind_some, hf, hheld]
  · obtain ⟨id, hid, hok⟩ := (mapM_eq_ok_iff.mp hheld).exists_left hn
    obtain ⟨k, hk, hSk⟩ := hmodels id hid
    obtain rfl := Except.ok.inj (hk.symm.trans hok)
    exact hSk

/-! ## The search -/

/-- What holds before a round of a search: there are rounds enough for all models that have not been
seen, the goal has not been seen, and what has been seen contains only what has been seen or is on
the stack. -/
structure Searching (r : Repository ts) (goal : ModelId) (rounds : Nat)
    (seen stack : List ModelId) : Prop where
  rounds_lt : r.models.size < rounds + seen.length
  nodup : seen.Nodup
  seen_lt : ∀ m ∈ seen, m.index < r.models.size
  stack_lt : ∀ m ∈ stack, m.index < r.models.size
  ne_goal : ∀ m ∈ seen, m ≠ goal
  closed : ∀ m ∈ seen, ∀ n, r.Contains m n → n ∈ seen ∨ n ∈ stack

variable {goal m : ModelId} {rounds : Nat} {seen stack rest held : List ModelId}

/-- Distinct models are not more than there are, so that the rounds are never used up. -/
theorem not_searching_zero : ¬ r.Searching goal 0 seen stack := by
  intro h
  have hle := length_le_of_nodup (fun _ _ h => ModelId.eq_iff.mpr h) h.nodup h.seen_lt
  have hlt := h.rounds_lt
  omega

/-- What has been seen or is on the stack before a round has been seen or is there afterwards. -/
theorem mem_of_dropWhile_contains (hdrop : stack.dropWhile seen.contains = m :: rest)
    {n : ModelId} (hn : n ∈ seen ∨ n ∈ stack) : n ∈ m :: seen ∨ n ∈ held.reverse ++ rest := by
  rcases hn with hn | hn
  · exact Or.inl (List.mem_cons_of_mem m hn)
  · rcases (of_dropWhile_eq_cons hdrop).2 n hn with hn | rfl | hn
    · exact Or.inl (List.mem_cons_of_mem m (by simpa using hn))
    · exact Or.inl List.mem_cons_self
    · exact Or.inr (List.mem_append_right _ hn)

/-- A round in which a model is seen that is not the goal. -/
theorem Searching.round (h : r.Searching goal (rounds + 1) seen stack) (hr : r.WellFormed)
    (hdrop : stack.dropWhile seen.contains = m :: rest) (hne : m ≠ goal)
    (hheld : r.heldModels m = .ok held) :
    r.Searching goal rounds (m :: seen) (held.reverse ++ rest) := by
  obtain ⟨hmem, hrest⟩ := mem_of_dropWhile_eq_cons hdrop
  constructor
  case rounds_lt =>
    have hlt := h.rounds_lt
    rw [List.length_cons]
    omega
  case nodup =>
    have hnew : m ∉ seen := by simpa using (of_dropWhile_eq_cons hdrop).1
    exact List.nodup_cons.mpr ⟨hnew, h.nodup⟩
  case seen_lt =>
    intro n hn
    rcases List.mem_cons.mp hn with rfl | hn
    · exact h.stack_lt n hmem
    · exact h.seen_lt n hn
  case stack_lt =>
    intro n hn
    rcases List.mem_append.mp hn with hn | hn
    · exact heldModels_lt hr hheld (List.mem_reverse.mp hn)
    · exact h.stack_lt n (hrest n hn)
  case ne_goal =>
    intro n hn
    rcases List.mem_cons.mp hn with rfl | hn
    · exact hne
    · exact h.ne_goal n hn
  case closed =>
    intro n hn k hk
    rcases List.mem_cons.mp hn with rfl | hn
    · exact Or.inr (List.mem_append_left _ (List.mem_reverse.mpr (mem_heldModels hheld hk)))
    · exact mem_of_dropWhile_contains hdrop (h.closed n hn k hk)

/-- A search that does not find its goal leaves a set of models behind that the goal is not in and
that `Contains` does not lead out of. -/
theorem search_eq_false (hr : r.WellFormed) (hsearching : r.Searching goal rounds seen stack)
    (h : r.search goal rounds seen stack = .ok false) :
    ∃ S : ModelId → Prop, (∀ m, m ∈ seen ∨ m ∈ stack → S m) ∧
      ∀ m, S m → m ≠ goal ∧ ∀ n, r.Contains m n → S n := by
  induction rounds generalizing seen stack with
  | zero => exact (not_searching_zero hsearching).elim
  | succ rounds ih =>
    unfold search at h
    split at h
    · next hdrop =>
      -- Nothing is left on the stack that has not been seen.
      have hsub : ∀ m ∈ stack, m ∈ seen := by simpa [List.dropWhile_eq_nil_iff] using hdrop
      refine ⟨(· ∈ seen), fun m hm => hm.elim id (hsub m), fun m hm => ?_⟩
      exact ⟨hsearching.ne_goal m hm, fun n hmn =>
        (hsearching.closed m hm n hmn).elim id (hsub n)⟩
    · next m rest hdrop =>
      split at h
      · simp at h
      · next hne =>
        obtain ⟨held, hheld, h⟩ := bind_eq_ok_iff.mp h
        obtain ⟨S, hS, hclosed⟩ := ih (hsearching.round hr hdrop hne hheld) h
        exact ⟨S, fun n hn => hS n (mem_of_dropWhile_contains hdrop hn), hclosed⟩

/-- A search among models that hold only each other does not find another one. -/
theorem search_of_closed {S : ModelId → Prop} (hstack : ∀ m ∈ stack, S m)
    (hS : ∀ m, S m → m ≠ goal ∧ ∃ held, r.heldModels m = .ok held ∧ ∀ n ∈ held, S n) :
    r.search goal rounds seen stack = .ok false := by
  induction rounds generalizing seen stack with
  | zero => rfl
  | succ rounds ih =>
    unfold search
    split
    · rfl
    · next m rest hdrop =>
      obtain ⟨hmem, hrest⟩ := mem_of_dropWhile_eq_cons hdrop
      obtain ⟨hne, held, hheld, hclosed⟩ := hS m (hstack m hmem)
      rw [if_neg hne, hheld]
      refine ih fun n hn => ?_
      rcases List.mem_append.mp hn with hn | hn
      · exact hclosed n (List.mem_reverse.mp hn)
      · exact hstack n (hrest n hn)

theorem searching_start {start : ModelId} (hstart : start.index < r.models.size) :
    r.Searching goal (r.models.size + 1) [] [start] :=
  ⟨by simp, List.nodup_nil, by simp, by simpa using hstart, by simp, by simp⟩

/-- Where the search answers no, there is no way. -/
theorem not_reaches_of_search (hr : r.WellFormed) {start : ModelId}
    (hstart : start.index < r.models.size)
    (h : r.search goal (r.models.size + 1) [] [start] = .ok false) :
    ¬ ReflTransGen r.Contains start goal := by
  obtain ⟨S, hS, hclosed⟩ := search_eq_false hr (searching_start hstart) h
  have hreached : ∀ m, ReflTransGen r.Contains start m → S m := by
    intro m hpath
    induction hpath with
    | refl => exact hS start (Or.inr List.mem_cons_self)
    | tail _ hstep ih => exact (hclosed _ ih).2 _ hstep
  exact fun hpath => (hclosed goal (hreached goal hpath)).1 rfl

/-- If a datatype does not come to a model outside of collections, no chain of fields does. -/
theorem not_reaches_of_reachesModel (hr : r.WellFormed) {datatype t : ObjectId}
    (hresolve : r.resolve datatype = .ok ⟨[], t⟩) (hm : r.modelOf? t = some m)
    (h : r.reachesModel datatype goal = .ok false) : ¬ ReflTransGen r.Contains m goal := by
  simp only [reachesModel, hresolve, bind, Except.bind, if_true,
    modelOf_eq_ok_iff.mpr hm] at h
  exact not_reaches_of_search hr (hr.model_lt_of_modelOf? hm) h

end Metamodel.Repository
