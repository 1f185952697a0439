import Mathlib.Data.Nat.Find
import Metamodel.Proofs.Copies
import Metamodel.Proofs.Operation

/-!
# Metamodel.Proofs.Transparency -- an alias without dimensions stands for its target

`resolve` and `newInstance` follow a chain of aliases apart from each other: the one collects the
dimensions of all of them, the other stops at the first alias that has any. `Unwraps` numbers the
aliases of a chain without a limit on its length, so that both can be compared with it. Main
statement: where no alias has dimensions both come to the same target or to the same error, and an
instance is a collection exactly if some alias on the chain has dimensions. It holds of every
repository, well formed or not.
-/

namespace Metamodel

variable {κ : Type} {ts : TypeSystem κ} {r : Repository ts}

namespace Repository

/-! ## The aliases of a chain -/

/-- The template of an alias, with what it refers to and the qualifiers that give dimensions. -/
structure AliasOf (r : Repository ts) (id target : ObjectId) (qualifiers : List Qualifier) :
    Prop where
  template : r.assertTemplateKind id = .ok id
  definition : ∃ m, r.modelOf id = .ok m ∧ r.isAlias m = true ∧
    r.aliasDefinition m = .ok (target, qualifiers)

/-- After `n` aliases the chain comes to an alias of `target` with these qualifiers. -/
inductive Unwraps (r : Repository ts) : ObjectId → Nat → ObjectId → List Qualifier → Prop where
  | first {id target : ObjectId} {qs : List Qualifier} (h : r.AliasOf id target qs) :
      Unwraps r id 0 target qs
  | next {id target element : ObjectId} {qs later : List Qualifier} {n : Nat}
      (h : r.AliasOf id target qs) (hnext : Unwraps r target n element later) :
      Unwraps r id (n + 1) element later

namespace AliasOf

variable {id target target' : ObjectId} {qs qs' : List Qualifier}

theorem unique (h : r.AliasOf id target qs) (h' : r.AliasOf id target' qs') :
    target' = target ∧ qs' = qs := by
  obtain ⟨m, hm, -, hdefinition⟩ := h.definition
  obtain ⟨n, hn, -, hdefinition'⟩ := h'.definition
  obtain rfl := Except.ok.inj (hm.symm.trans hn)
  exact Prod.mk.inj (Except.ok.inj (hdefinition'.symm.trans hdefinition))

theorem resolveWithin (h : r.AliasOf id target qs) (depth : Nat) :
    r.resolveWithin (depth + 1) id = (do
      let next ← r.assertTemplateKind target
      let rest ← r.resolveWithin depth next
      .ok ⟨qs ++ rest.qualifiers, rest.target⟩) := by
  obtain ⟨m, hm, halias, hdefinition⟩ := h.definition
  rw [resolveWithin_succ hm, if_pos halias, hdefinition]
  rfl

/-- The first alias with dimensions is where instances are made from. -/
theorem seedWithin_cons {q : Qualifier} (h : r.AliasOf id target (q :: qs)) (depth : Nat) :
    r.seedWithin (depth + 1) id = .ok (.nested target q) := by
  obtain ⟨m, hm, halias, hdefinition⟩ := h.definition
  rw [seedWithin_succ hm, if_pos halias, hdefinition]
  rfl

theorem seedWithin_nil (h : r.AliasOf id target []) (depth : Nat) :
    r.seedWithin (depth + 1) id = (do
      let next ← r.assertTemplateKind target
      r.seedWithin depth next) := by
  obtain ⟨m, hm, halias, hdefinition⟩ := h.definition
  rw [seedWithin_succ hm, if_pos halias, hdefinition]
  rfl

end AliasOf

variable {id : ObjectId} {depth : Nat}

/-- Both walks come to the same target, or to the same error. -/
def EndAlike (r : Repository ts) (depth : Nat) (id : ObjectId) : Prop :=
  (∃ t, r.resolveWithin depth id = .ok ⟨[], t⟩ ∧ r.seedWithin depth id = .ok (.plain t)) ∨
    ∃ e, r.resolveWithin depth id = .error e ∧ r.seedWithin depth id = .error e

/-- A chain goes on with an alias, or it ends. -/
theorem aliasOf_or_endAlike (hid : r.assertTemplateKind id = .ok id) (depth : Nat) :
    (∃ target qs, r.AliasOf id target qs) ∨ r.EndAlike (depth + 1) id := by
  obtain ⟨-, m, f, d, ho, -⟩ := assertTemplateKind_eq_ok_iff.mp hid
  have hm : r.modelOf id = .ok m := modelOf_of_object? ho
  rw [EndAlike, resolveWithin_succ hm, seedWithin_succ hm]
  cases halias : r.isAlias m with
  | false => exact .inr (.inl ⟨id, rfl, rfl⟩)
  | true =>
    cases hdefinition : r.aliasDefinition m with
    | ok definition => exact .inl ⟨_, _, hid, m, hm, halias, hdefinition⟩
    | error e => exact .inr (.inr ⟨e, rfl, rfl⟩)

/-- Where the depth is used up a further alias is refused by both. -/
theorem endAlike_zero (hid : r.assertTemplateKind id = .ok id) : r.EndAlike 0 id := by
  obtain ⟨-, m, f, d, ho, -⟩ := assertTemplateKind_eq_ok_iff.mp hid
  have hm : r.modelOf id = .ok m := modelOf_of_object? ho
  rw [EndAlike, resolveWithin_zero hm, seedWithin_zero hm]
  cases r.isAlias m with
  | false => exact .inl ⟨id, rfl, rfl⟩
  | true => exact .inr ⟨_, rfl, rfl⟩

/-! ## Both walks along a chain -/

/-- As long as no alias has dimensions, the walks go the same way. -/
theorem endAlike_of_bare (hid : r.assertTemplateKind id = .ok id)
    (hbare : ∀ n element qs, n < depth → r.Unwraps id n element qs → qs = []) :
    r.EndAlike depth id := by
  induction depth generalizing id with
  | zero => exact endAlike_zero hid
  | succ depth ih =>
    rcases aliasOf_or_endAlike hid depth with ⟨target, qs, halias⟩ | hend
    · obtain rfl := hbare 0 target qs (Nat.succ_pos depth) (.first halias)
      rw [EndAlike, halias.resolveWithin, halias.seedWithin_nil]
      cases hnext : r.assertTemplateKind target with
      | error e => exact .inr ⟨e, rfl, rfl⟩
      | ok next =>
        obtain rfl := (assertTemplateKind_eq_ok_iff.mp hnext).1
        have hrest : r.EndAlike depth next := ih hnext fun n element qs hn hunwraps =>
          hbare (n + 1) element qs (Nat.succ_lt_succ hn) (.next halias hunwraps)
        rcases hrest with ⟨t, hresolve, hseed⟩ | ⟨e, hresolve, hseed⟩
        · exact .inl ⟨t, by simp [hresolve, bind, Except.bind], hseed⟩
        · exact .inr ⟨e, by simp [hresolve, bind, Except.bind], hseed⟩
    · exact hend

namespace Unwraps

variable {element : ObjectId} {n : Nat} {qs : List Qualifier}

theorem template (h : r.Unwraps id n element qs) : r.assertTemplateKind id = .ok id := by
  cases h with
  | first halias => exact halias.template
  | next halias _ => exact halias.template

/-- A chain that has been resolved was within the depth, and its dimensions are all in the answer.
-/
theorem of_resolveWithin (h : r.Unwraps id n element qs) {resolved : Resolved}
    (hresolve : r.resolveWithin depth id = .ok resolved) :
    n < depth ∧ ∀ q ∈ qs, q ∈ resolved.qualifiers := by
  induction h generalizing depth resolved with
  | first halias =>
    cases depth with
    | zero =>
      obtain ⟨m, hm, hm', -⟩ := halias.definition
      simp [resolveWithin_zero hm, hm'] at hresolve
    | succ depth =>
      rw [halias.resolveWithin] at hresolve
      obtain ⟨next, -, hresolve⟩ := bind_eq_ok_iff.mp hresolve
      obtain ⟨rest, -, hresolve⟩ := bind_eq_ok_iff.mp hresolve
      obtain rfl := Except.ok.inj hresolve
      exact ⟨Nat.succ_pos depth, fun q hq => List.mem_append_left _ hq⟩
  | next halias hnext ih =>
    cases depth with
    | zero =>
      obtain ⟨m, hm, hm', -⟩ := halias.definition
      simp [resolveWithin_zero hm, hm'] at hresolve
    | succ depth =>
      rw [halias.resolveWithin] at hresolve
      obtain ⟨target, htarget, hresolve⟩ := bind_eq_ok_iff.mp hresolve
      obtain rfl := Except.ok.inj (hnext.template.symm.trans htarget)
      obtain ⟨rest, hrest, hresolve⟩ := bind_eq_ok_iff.mp hresolve
      obtain rfl := Except.ok.inj hresolve
      obtain ⟨hlt, hmem⟩ := ih hrest
      exact ⟨Nat.succ_lt_succ hlt, fun q hq => List.mem_append_right _ (hmem q hq)⟩

/-- Instances are made from the first alias with dimensions, if it is met within the depth. -/
theorem seedWithin {q : Qualifier} (h : r.Unwraps id n element (q :: qs)) (hn : n < depth)
    (hbare : ∀ k target qs', k < n → r.Unwraps id k target qs' → qs' = []) :
    r.seedWithin depth id = .ok (.nested element q) := by
  induction depth generalizing id n with
  | zero => exact absurd hn (Nat.not_lt_zero n)
  | succ depth ih =>
    cases h with
    | first halias => exact halias.seedWithin_cons depth
    | @next _ target _ qs' _ k halias hnext =>
      obtain rfl := hbare 0 target qs' (Nat.succ_pos k) (.first halias)
      rw [halias.seedWithin_nil, hnext.template]
      exact ih hnext (Nat.lt_of_succ_lt_succ hn) fun j target' qs' hj hunwraps =>
        hbare (j + 1) target' qs' (Nat.succ_lt_succ hj) (.next halias hunwraps)

end Unwraps

/-- Where some alias has dimensions, there is a first one. -/
theorem exists_first_unwraps {n : Nat} {element : ObjectId} {q : Qualifier} {qs : List Qualifier}
    (h : r.Unwraps id n element (q :: qs)) :
    ∃ k target q' qs', k ≤ n ∧ r.Unwraps id k target (q' :: qs') ∧
      ∀ j target qs', j < k → r.Unwraps id j target qs' → qs' = [] := by
  classical
  have hsome : ∃ k target q' qs', r.Unwraps id k target (q' :: qs') := ⟨n, element, q, qs, h⟩
  obtain ⟨target, q', qs', hfirst⟩ := Nat.find_spec hsome
  refine ⟨Nat.find hsome, target, q', qs', Nat.find_min' hsome ⟨element, q, qs, h⟩, hfirst, ?_⟩
  intro j target qs' hj hunwraps
  cases qs' with
  | nil => rfl
  | cons q' qs' => exact (Nat.find_min hsome hj ⟨target, q', qs', hunwraps⟩).elim

/-! ## `resolve` and `seed` -/

theorem resolve_of_template (hid : r.assertTemplateKind id = .ok id) :
    r.resolve id = r.resolveWithin ts.limits.aliasDepth id := by
  rw [resolve, hid]
  rfl

theorem seed_of_template (hid : r.assertTemplateKind id = .ok id) :
    r.seed id = r.seedWithin ts.limits.aliasDepth id := by
  rw [seed, hid]
  rfl

/-- An alias that resolves without dimensions is made from what its target is made from. -/
theorem seed_of_resolve {t : ObjectId} (h : r.resolve id = .ok ⟨[], t⟩) :
    r.seed id = .ok (.plain t) ∧ r.seed t = .ok (.plain t) := by
  obtain ⟨x, hid, hresolve⟩ := bind_eq_ok_iff.mp h
  obtain rfl := (assertTemplateKind_eq_ok_iff.mp hid).1
  have hbare : ∀ n element qs, n < ts.limits.aliasDepth → r.Unwraps x n element qs → qs = [] :=
    fun n element qs _ hunwraps => List.eq_nil_iff_forall_not_mem.mpr fun q hq => by
      simpa using (hunwraps.of_resolveWithin hresolve).2 q hq
  have hseed : r.seed x = .ok (.plain t) := by
    rw [seed_of_template hid]
    rcases endAlike_of_bare hid hbare with ⟨t', hresolve', hseed⟩ | ⟨e, hresolve', -⟩
    · obtain rfl := congrArg Resolved.target (Except.ok.inj (hresolve'.symm.trans hresolve))
      exact hseed
    · simp [hresolve] at hresolve'
  obtain ⟨⟨m, hplain⟩, -⟩ := seed_plain hseed
  exact ⟨hseed, hplain.seed⟩

/-- A chain that cannot be resolved has no instances for the same reason, if no alias within the
depth has dimensions. -/
theorem seed_of_resolve_error {e : Error} (h : r.resolve id = .error e)
    (hbare : ∀ n element qs, n < ts.limits.aliasDepth → r.Unwraps id n element qs → qs = []) :
    r.seed id = .error e := by
  cases hid : r.assertTemplateKind id with
  | error e' =>
    rw [resolve, hid] at h
    rw [seed, hid]
    exact congrArg Except.error (Except.error.inj h)
  | ok x =>
    obtain rfl := (assertTemplateKind_eq_ok_iff.mp hid).1
    rw [resolve_of_template hid] at h
    rw [seed_of_template hid]
    rcases endAlike_of_bare hid hbare with ⟨t, hresolve, -⟩ | ⟨e', hresolve, hseed⟩
    · simp [h] at hresolve
    · rw [hseed, Except.error.inj (hresolve.symm.trans h)]

/-- A seed with dimensions is that of the first alias that has any. -/
theorem unwraps_of_nested {element : ObjectId} {q : Qualifier}
    (h : r.seed id = .ok (.nested element q)) :
    ∃ n qs, r.Unwraps id n element (q :: qs) ∧
      ∀ k target qs', k < n → r.Unwraps id k target qs' → qs' = [] := by
  obtain ⟨x, hid, hseed⟩ := bind_eq_ok_iff.mp h
  obtain rfl := (assertTemplateKind_eq_ok_iff.mp hid).1
  by_cases hbare : ∀ n target qs, n < ts.limits.aliasDepth → r.Unwraps x n target qs → qs = []
  · rcases endAlike_of_bare hid hbare with ⟨t, -, hplain⟩ | ⟨e, -, herror⟩
    · simp [hseed] at hplain
    · simp [hseed] at herror
  · push Not at hbare
    obtain ⟨n, target, qs, hn, hunwraps, hne⟩ := hbare
    obtain ⟨q', qs, rfl⟩ := List.exists_cons_of_ne_nil hne
    obtain ⟨k, target', q', qs', hle, hfirst, hbare⟩ := exists_first_unwraps hunwraps
    rw [hfirst.seedWithin (Nat.lt_of_le_of_lt hle hn) hbare] at hseed
    obtain ⟨rfl, rfl⟩ := Seed.nested.inj (Except.ok.inj hseed)
    exact ⟨k, qs', hfirst, hbare⟩

/-- Where the seed is no alias, no alias on the chain has dimensions. -/
theorem Unwraps.of_plain {element t : ObjectId} {n : Nat} {qs : List Qualifier}
    (h : r.Unwraps id n element qs) (hseed : r.seed id = .ok (.plain t)) : qs = [] := by
  have hresolve := (seed_plain hseed).2
  rw [resolve_of_template h.template] at hresolve
  refine List.eq_nil_iff_forall_not_mem.mpr fun q hq => ?_
  simpa using (h.of_resolveWithin hresolve).2 q hq

end Repository

namespace Step

variable {id : ObjectId} {under : String} {owned : Bool}

/-! ## Instances -/

/-- Nothing but the seed of a template matters for its instances. -/
theorem run_newInstance_of_seed {t : ObjectId} (h : r.seed id = r.seed t) :
    (newInstance id under owned).run r = (newInstance t under owned).run r := by
  rw [run_newInstance, run_newInstance, instantiate, instantiate, run_query_bind, run_query_bind, h]

theorem run_newInstance_of_error {e : Error} (h : r.seed id = .error e) :
    (newInstance id under owned).run r = ⟨.error e, r, []⟩ := by
  rw [run_newInstance, instantiate, run_query_bind, h]

/-- Where the seed is an alias with dimensions, nested collections are made and nothing else. -/
theorem run_newInstance_of_nested {element : ObjectId} {q : Qualifier}
    (h : r.seed id = .ok (.nested element q)) :
    (newInstance id under owned).run r =
      (Value.collection <$> newCollections element q under owned).run r := by
  rw [run_newInstance, instantiate, run_query_bind, h]

theorem answer_of_nested {element : ObjectId} {q : Qualifier} {v : Value}
    (h : r.seed id = .ok (.nested element q))
    (hv : ((newInstance id under owned).run r).answer = .ok v) :
    ∃ c, v = .collection c ∧ ((newCollections element q under owned).run r).answer = .ok c ∧
      ((newCollections element q under owned).run r).repo =
        ((newInstance id under owned).run r).repo := by
  have hmade : (Value.collection <$> newCollections element q under owned).Ensures r
      (fun v r' => ∃ c, v = .collection c ∧
        ((newCollections element q under owned).run r).answer = .ok c ∧
        ((newCollections element q under owned).run r).repo = r') fun _ _ => True :=
    ensures_map.mpr (ensures_of_answer (fun c hc => ⟨c, rfl, hc, rfl⟩) fun _ _ => trivial)
  rw [run_newInstance_of_nested h] at hv ⊢
  exact hmade.ok_of_answer hv

/-- Where the seed is no alias, no collection is made of it. -/
theorem newInstance_of_plain {t : ObjectId} (h : r.seed id = .ok (.plain t)) :
    (newInstance id under owned).Ensures r (fun v _ => ∀ c, v ≠ .collection c)
      fun _ _ => True := by
  rw [newInstance_ensures_iff]
  simp only [instantiate, ensures_bind, ensures_query, h]
  refine ⟨fun seed hseed => ?_, fun _ _ => trivial⟩
  obtain rfl := Except.ok.inj hseed
  simp only [ensures_bind, ensures_query, ensures_ask]
  refine ⟨fun m _ => ?_, fun _ _ => trivial⟩
  split
  · exact fun c => by simp
  · simp only [ensures_bind, ensures_query, ensures_map]
    exact ⟨fun fields _ => (ensures_true _ _).imp
      (fun copies _ _ => (ensures_true _ _).imp (fun _ _ _ c => by simp) fun _ _ h => h)
      fun _ _ h => h, fun _ _ => trivial⟩

end Step

open Step in
/-- An alias that resolves without dimensions has the instances of its target, made with the same
changes or refused for the same reason. An alias that cannot be resolved is refused for the same
reason and without a change, as long as no alias that is met within the limit has dimensions. What
is made of an alias is a collection exactly if some alias on its chain has dimensions, and then it
is made by unwrapping the first of these. -/
theorem alias_transparent (r : Repository ts) (id : ObjectId) (under : String) (owned : Bool) :
    (∀ t, r.resolve id = .ok ⟨[], t⟩ →
      (newInstance id under owned).run r = (newInstance t under owned).run r) ∧
    (∀ e, r.resolve id = .error e →
      (∀ n element qs, n < ts.limits.aliasDepth → r.Unwraps id n element qs → qs = []) →
        (newInstance id under owned).run r = ⟨.error e, r, []⟩) ∧
    ∀ v, ((newInstance id under owned).run r).answer = .ok v →
      ((∃ c, v = .collection c) ↔ ∃ n element qs, r.Unwraps id n element qs ∧ qs ≠ []) ∧
      ∀ c, v = .collection c → ∃ n element q qs, r.Unwraps id n element (q :: qs) ∧
        (∀ k target qs', k < n → r.Unwraps id k target qs' → qs' = []) ∧
        ((newCollections element q under owned).run r).answer = .ok c ∧
        ((newCollections element q under owned).run r).repo =
          ((newInstance id under owned).run r).repo := by
  refine ⟨fun t h => ?_, fun e h hbare => ?_, fun v hv => ?_⟩
  · obtain ⟨hid, ht⟩ := Repository.seed_of_resolve h
    exact run_newInstance_of_seed (hid.trans ht.symm)
  · exact run_newInstance_of_error (Repository.seed_of_resolve_error h hbare)
  · cases hseed : r.seed id with
    | error e => simp [run_newInstance_of_error hseed] at hv
    | ok seed =>
      cases seed with
      | nested element q =>
        obtain ⟨c, rfl, hc, hrepo⟩ := answer_of_nested hseed hv
        obtain ⟨n, qs, hunwraps, hbare⟩ := Repository.unwraps_of_nested hseed
        refine ⟨⟨fun _ => ⟨n, element, q :: qs, hunwraps, List.cons_ne_nil q qs⟩,
          fun _ => ⟨c, rfl⟩⟩, fun c' hc' => ?_⟩
        obtain rfl := Value.collection.inj hc'
        exact ⟨n, element, q, qs, hunwraps, hbare, hc, hrepo⟩
      | plain t =>
        have hplain := (newInstance_of_plain hseed).ok_of_answer hv
        refine ⟨⟨fun ⟨c, hc⟩ => (hplain c hc).elim, fun h => ?_⟩, fun c hc => (hplain c hc).elim⟩
        obtain ⟨n, element, qs, hunwraps, hne⟩ := h
        exact (hne (hunwraps.of_plain hseed)).elim

/-- With two aliases as the limit: the alias of an alias of an atom stands for the atom, a third one
is too many, and one with dimensions has collections. -/
theorem alias_transparent_chain :
    let long := Idl.Atom.long.template
    let rename := Idl.Operation.newTypedef
    let r := Idl.Operation.run (Idl.initial ⟨2, 4⟩)
      [rename "A" long [], rename "B" ⟨21⟩ [], rename "C" ⟨22⟩ [],
        rename "S" ⟨21⟩ [Idl.sequence (.size 3)]]
    (r.resolve ⟨22⟩ = .ok ⟨[], long⟩ ∧
      (Step.newInstance ⟨22⟩ "x" true).run r = (Step.newInstance long "x" true).run r) ∧
    (r.resolve ⟨23⟩ = .error (.aliasDepth 2) ∧
      (Step.newInstance ⟨23⟩ "x" true).run r = ⟨.error (.aliasDepth 2), r, []⟩) ∧
    ((Step.newInstance ⟨24⟩ "x" true).run r).answer = .ok (.collection ⟨25⟩) ∧
      ∃ n element qs, r.Unwraps ⟨24⟩ n element qs ∧ qs ≠ [] := by
  intro long rename r
  have hplain : r.resolve ⟨22⟩ = .ok ⟨[], long⟩ := by decide +kernel
  have hdeep : r.resolve ⟨23⟩ = .error (.aliasDepth 2) := by decide +kernel
  have hanswer : ((Step.newInstance ⟨24⟩ "x" true).run r).answer = .ok (.collection ⟨25⟩) := by
    decide +kernel
  have hlast : r.AliasOf ⟨23⟩ ⟨22⟩ [] :=
    ⟨by decide +kernel, ⟨23⟩, by decide +kernel, by decide +kernel, by decide +kernel⟩
  have hmiddle : r.AliasOf ⟨22⟩ ⟨21⟩ [] :=
    ⟨by decide +kernel, ⟨22⟩, by decide +kernel, by decide +kernel, by decide +kernel⟩
  clear_value r
  refine ⟨⟨hplain, (alias_transparent r ⟨22⟩ "x" true).1 long hplain⟩,
    ⟨hdeep, (alias_transparent r ⟨23⟩ "x" true).2.1 _ hdeep fun n element qs hn hunwraps => ?_⟩,
    hanswer, ((alias_transparent r ⟨24⟩ "x" true).2.2 _ hanswer).1.mp ⟨⟨25⟩, rfl⟩⟩
  -- Only the first two aliases of the chain are met within the limit.
  cases hunwraps with
  | first h => exact (hlast.unique h).2
  | next h hunwraps =>
    obtain ⟨rfl, -⟩ := hlast.unique h
    cases hunwraps with
    | first h => exact (hmiddle.unique h).2
    | next h hunwraps =>
      have hlimit : (Idl.system ⟨2, 4⟩).limits.aliasDepth = 2 := rfl
      omega

end Metamodel
