import Metamodel.Proofs.Acyclic
import Metamodel.Proofs.Facade

/-!
# Metamodel.Proofs.Termination -- making an instance comes to an end

`instantiate` goes from a datatype to those that its template contains, with nothing to stop it but
the given depth. Where no datatype contains itself, the datatypes on the way are all different, so
that one more than there are models is never reached; and a depth that is not used up does not
matter. Main statement: in every state of every run that keeps to the rules for bases, instances and
copies are made, or refused, for a reason of their own, and any larger depth leaves the same.
-/

namespace Metamodel

open Relation (TransGen)

variable {κ : Type} {ts : TypeSystem κ} {r : Repository ts}

/-! ## Errors of look-ups -/

/-- The error is not that the depth is used up. -/
def Error.Proper (e : Error) : Prop := ∀ id, e ≠ .endlessContainment id

/-- The error is one of a look-up: neither is the depth used up nor an index out of bounds. -/
def Error.OfLookUp : Error → Prop
  | .endlessContainment _ => False
  | .bounds .. => False
  | _ => True

theorem Error.OfLookUp.proper {e : Error} (h : e.OfLookUp) : e.Proper := by
  rintro id rfl
  exact h

theorem Error.OfLookUp.ne_bounds {e : Error} (h : e.OfLookUp) (name : String) (index n : Nat) :
    e ≠ .bounds name index n := by
  rintro rfl
  exact h

/-- A look-up that never finds the depth used up or an index out of bounds. -/
def Quiet {α : Type} (x : Except Error α) : Prop := ∀ e, x = .error e → e.OfLookUp

namespace Quiet

variable {α β : Type}

theorem ok (a : α) : Quiet (.ok a) := by
  intro e he
  simp at he

theorem error {e : Error} (he : e.OfLookUp) : Quiet (.error e : Except Error α) := by
  intro e' he'
  obtain rfl := Except.error.inj he'
  exact he

theorem bind {x : Except Error α} {f : α → Except Error β} (hx : Quiet x)
    (hf : ∀ a, Quiet (f a)) : Quiet (x >>= f) := by
  cases x with
  | error e => exact error (hx e rfl)
  | ok a => exact hf a

theorem map {x : Except Error α} (hx : Quiet x) (f : α → β) : Quiet (x.map f) := by
  cases x with
  | error e => exact error (hx e rfl)
  | ok a => exact ok (f a)

theorem mapM {f : α → Except Error β} {xs : List α} (hf : ∀ a, Quiet (f a)) :
    Quiet (xs.mapM f) := by
  induction xs with
  | nil => exact ok []
  | cons a rest ih =>
    rw [List.mapM_cons]
    exact (hf a).bind fun b => ih.bind fun bs => ok _

end Quiet

namespace Repository

theorem quiet_object (id : ObjectId) : Quiet (r.object id) := by
  unfold object
  split
  · exact .ok _
  · exact .error trivial

theorem quiet_modelOf (id : ObjectId) : Quiet (r.modelOf id) :=
  (quiet_object id).map _

theorem quiet_assertTemplateKind (id : ObjectId) : Quiet (r.assertTemplateKind id) := by
  unfold assertTemplateKind
  split
  · split
    · exact .ok _
    · exact .error trivial
  · exact .error trivial
  · exact .error trivial

theorem quiet_aliasDefinition (m : ModelId) : Quiet (r.aliasDefinition m) := by
  unfold aliasDefinition
  split
  · exact .ok _
  · exact .error trivial

theorem quiet_seedWithin (depth : Nat) (id : ObjectId) : Quiet (r.seedWithin depth id) := by
  induction depth generalizing id with
  | zero =>
    unfold seedWithin
    refine (quiet_modelOf id).bind fun m => ?_
    split
    · exact .error trivial
    · exact .ok _
  | succ depth ih =>
    unfold seedWithin
    refine (quiet_modelOf id).bind fun m => ?_
    split
    · refine (quiet_aliasDefinition m).bind fun definition => ?_
      obtain ⟨target, qualifiers⟩ := definition
      cases qualifiers with
      | cons q qs => exact .ok _
      | nil => exact (quiet_assertTemplateKind target).bind fun next => ih next
    · exact .ok _

theorem quiet_seed (id : ObjectId) : Quiet (r.seed id) :=
  (quiet_assertTemplateKind id).bind fun _ => quiet_seedWithin _ _

theorem quiet_shape (id : ObjectId) : Quiet (r.shape id) := by
  unfold shape
  split
  · split
    · exact .ok _
    · exact .error trivial
  · exact .error trivial
  · exact .error trivial

theorem quiet_checkContent (id : ObjectId) : Quiet (r.checkContent id) := by
  unfold checkContent
  split
  · exact .ok _
  · split
    · exact .ok _
    · exact .error trivial
  · exact .error trivial

theorem quiet_resolveBound (bound : Bound) : Quiet (r.resolveBound bound) := by
  unfold resolveBound
  split
  · exact .ok _
  · split
    · exact .error trivial
    · exact .ok _
  · split
    · exact .error trivial
    · split
      · split
        · exact .ok _
        · exact .error trivial
      · exact .error trivial

theorem quiet_capacities (q : Qualifier) : Quiet (r.capacities q) := by
  refine Quiet.bind (.mapM fun bound => quiet_resolveBound bound) fun cs => ?_
  split
  · exact .error trivial
  · exact .ok _

end Repository

namespace Step

/-! ## Collections and copies -/

theorem nestCollections_answers (element : ObjectId) (owned : Bool) (cs : List (Option Nat))
    (name : String) :
    (nestCollections element owned cs name).Ensures r (fun _ _ => True) fun _ _ => False := by
  induction cs generalizing name with
  | nil => exact trivial
  | cons c inner ih =>
    rw [nestCollections, ensures_bind]
    exact (ih "").imp (fun _ _ _ => trivial) fun _ _ h => h

theorem newCollections_quiet (element : ObjectId) (q : Qualifier) (name : String) (owned : Bool) :
    (newCollections element q name owned).Ensures r (fun _ _ => True) fun e _ => e.OfLookUp := by
  simp only [newCollections, ensures_bind, ensures_query]
  refine ⟨fun _ _ => ⟨fun cs _ => ?_, Repository.quiet_capacities q⟩,
    Repository.quiet_checkContent element⟩
  exact (nestCollections_answers element owned cs name).imp (fun _ _ h => h) fun _ _ h => h.elim

theorem copyCollection_quiet (source : ObjectId) (under : String) (owned : Bool) :
    (copyCollection source under owned).Ensures r (fun _ _ => True) fun e _ => e.OfLookUp := by
  simp only [copyCollection, ensures_bind, ensures_query]
  exact ⟨fun _ _ => trivial, Repository.quiet_shape source⟩

/-- A copy fails like a look-up, or like the instance that it is. -/
theorem cloneWith_quiet {make : ObjectId → String → Step ts Value} {owned : Bool} {value : Value}
    {under : String} {E : Error → Prop} (hE : ∀ e, e.OfLookUp → E e)
    (hmake : ∀ id, value = .composite id →
      (make id under).Ensures r (fun _ _ => True) fun e _ => E e) :
    (cloneWith make owned value under).Ensures r (fun _ _ => True) fun e _ => E e := by
  cases value with
  | accessor path => exact trivial
  | scalar s => exact trivial
  | composite id => exact hmake id rfl
  | collection id =>
    rw [cloneWith, ensures_map]
    exact (copyCollection_quiet id under owned).imp (fun _ _ h => h) fun e _ => hE e

/-! ## The depth is not used up -/

/-- A step that, if it fails, fails for a reason of its own. -/
def Settles {α : Type} (x : Step ts α) (r : Repository ts) : Prop :=
  x.Ensures r (fun _ _ => True) fun e _ => e.Proper

/-- The depth that is left exceeds the number of datatypes that are not yet on the way: `chain` are
those that are, all different, and each of them leads to what is made next. -/
theorem settles_instantiate (h : r.Orderly) (owned : Bool) {depth : Nat} {chain : List ModelId}
    {id : ObjectId} {under : String} {r₁ : Repository ts} (hr₁ : Grew r r₁)
    (hnodup : chain.Nodup) (hlt : ∀ a ∈ chain, a.index < r.models.size)
    (hchain : ∀ a ∈ chain, ∀ t n, r₁.seed id = .ok (.plain t) → r₁.modelOf? t = some n →
      TransGen r.Contains a n)
    (hdepth : r.models.size < depth + chain.length) :
    Settles (instantiate owned depth id under) r₁ := by
  induction depth generalizing chain id under r₁ with
  | zero =>
    -- More datatypes would be on the way than there are.
    have hle := length_le_of_nodup (fun _ _ h => ModelId.eq_iff.mpr h) hnodup hlt
    omega
  | succ depth ih =>
    have hbounded := h.bounded.grew hr₁
    apply instantiate_ensures hr₁.1
    case hrefused => exact fun e he => (Repository.quiet_seed id e he).proper
    case hnested =>
      exact fun element q _ => (newCollections_quiet element q under owned).imp (fun _ _ h => h)
        fun _ _ h => h.proper
    case hleaf => exact fun _ _ _ _ _ => trivial
    case hcomposite =>
      intro t m d f hseed hplain hd _ ho
      have hreach : ∀ a ∈ chain, TransGen r.Contains a m :=
        fun a ha => hchain a ha t m hseed hplain.modelOf?
      -- The datatype is not on the way yet, since none leads back to itself.
      have hnodup' : (m :: chain).Nodup :=
        List.nodup_cons.mpr ⟨fun hm => h.acyclic m (hreach m hm), hnodup⟩
      have hlt' : ∀ a ∈ m :: chain, a.index < r.models.size := by
        intro a ha
        rcases List.mem_cons.mp ha with rfl | ha
        · exact hr₁.2.datatype_old hd
        · exact hlt a ha
      have hdepth' : r.models.size < depth + (m :: chain).length := by
        rw [List.length_cons]
        omega
      rw [cloneFieldsWith, ensures_bind]
      refine (ensures_mapEach (P := Grew r₁) (R := fun _ _ _ => True) f.entries ?_
        (grew_refl hr₁.1)).imp (fun _ _ _ => trivial) fun _ _ h => h
      intro field hfield r₂ hr₂
      rw [ensures_bind]
      have hmake : ∀ x, field.2 = .composite x →
          Settles (instantiate owned depth x (Path.join under (r₁.registeredName t))) r₂ := by
        intro x hx
        have hrole := Table.get?_of_mem (hr₁.1.roles_nodup ho) hfield
        rw [hx] at hrole
        have hplaced := (hbounded.placed hd ho hrole).steady hr₂.2.steady
        refine ih (hr₁.trans hr₂) hnodup' hlt' ?_ hdepth'
        intro a ha t' n hseed' hn
        obtain rfl := hr₂.1.seed_of_noTemplate hplaced.noTemplate hseed'
        rcases List.mem_cons.mp ha with rfl | ha
        · exact .single (hplaced.model n hn)
        · exact (hreach a ha).tail (hplaced.model n hn)
      refine ((cloneWith_makes hr₂.1 fun x _ => instantiate_makes hr₂.1 owned depth x _).and
        (cloneWith_quiet (fun _ h => h.proper) hmake)).imp ?_ fun _ _ h => h.2
      exact fun copy r₃ hcopy => ⟨hr₂.trans hcopy.1.1, fun _ _ _ => trivial, trivial⟩

/-- An instance is made, or refused, without using up the depth. -/
theorem settles_newInstance (h : r.Orderly) (id : ObjectId) (under : String) (owned : Bool) :
    Settles (newInstance id under owned) r := by
  rw [Settles, newInstance_ensures_iff]
  exact settles_instantiate h owned (grew_refl h.bounded.wellFormed) List.nodup_nil (by simp)
    (by simp) (by simp)

theorem settles_cloneValue (h : r.Orderly) (value : Value) (under : String) (owned : Bool) :
    Settles (cloneValue value under owned) r :=
  cloneWith_quiet (fun _ h => h.proper) fun id _ => settles_newInstance h id under owned

/-! ## A larger depth -/

variable {α β : Type}

/-- The second step leaves what the first one does, unless the first one uses up its depth. -/
def Deepens (x y : Step ts α) (r : Repository ts) : Prop :=
  (∀ e, (x.run r).answer = .error e → e.Proper) → y.run r = x.run r

theorem deepens_refl (x : Step ts α) (r : Repository ts) : Deepens x x r := fun _ => rfl

theorem Deepens.bind {x y : Step ts α} {f g : α → Step ts β} (hxy : Deepens x y r)
    (hfg : ∀ a r, Deepens (f a) (g a) r) : Deepens (x >>= f) (y >>= g) r := by
  intro hproper
  cases hx : (x.run r).answer with
  | error e =>
    have hsame := hxy fun e' he' => by
      obtain rfl := Except.error.inj (hx.symm.trans he')
      exact hproper e (by rw [run_bind_of_error hx])
    rw [run_bind_of_error hx, run_bind_of_error (hsame ▸ hx), hsame]
  | ok a =>
    have hsame := hxy fun e' he' => by simp [hx] at he'
    have hnext := hfg a (x.run r).repo fun e' he' => hproper e' (by rw [run_bind_of_ok hx, he'])
    rw [run_bind_of_ok hx, run_bind_of_ok (hsame ▸ hx), hsame, hnext]

theorem deepens_mapEach {f g : α → Step ts β} (hfg : ∀ a r, Deepens (f a) (g a) r) (xs : List α)
    (r : Repository ts) : Deepens (mapEach xs f) (mapEach xs g) r := by
  induction xs generalizing r with
  | nil => exact deepens_refl _ r
  | cons a rest ih =>
    exact (hfg a r).bind fun b r₁ => (ih r₁).bind fun bs r₂ => deepens_refl _ r₂

theorem deepens_instantiate (owned : Bool) (depth : Nat) (id : ObjectId) (under : String)
    (r : Repository ts) :
    Deepens (instantiate owned depth id under) (instantiate owned (depth + 1) id under) r := by
  induction depth generalizing id under r with
  | zero =>
    intro hproper
    exact (hproper (.endlessContainment id) rfl id rfl).elim
  | succ depth ih =>
    -- The two do the same except where a composite is copied.
    rw [instantiate, instantiate]
    refine (deepens_refl _ r).bind fun seed r₁ => ?_
    cases seed with
    | nested element q => exact deepens_refl _ r₁
    | plain t =>
      refine (deepens_refl _ r₁).bind fun m r₂ => (deepens_refl _ r₂).bind fun name r₃ =>
        (deepens_refl _ r₃).bind fun isLeaf r₄ => ?_
      cases isLeaf with
      | true => exact deepens_refl _ r₄
      | false =>
        refine (deepens_refl _ r₄).bind fun fields r₅ => Deepens.bind ?_ fun copies r₆ =>
          deepens_refl _ r₆
        rw [cloneFieldsWith, cloneFieldsWith]
        refine (deepens_mapEach (fun field r₇ => ?_) _ r₅).bind fun _ r₈ => deepens_refl _ r₈
        refine Deepens.bind ?_ fun _ r₉ => deepens_refl _ r₉
        cases field.2 with
        | composite x => exact ih x _ r₇
        | collection x => exact deepens_refl _ r₇
        | accessor path => exact deepens_refl _ r₇
        | scalar s => exact deepens_refl _ r₇

/-- A depth that is not used up may be any larger one. -/
theorem instantiate_of_le {owned : Bool} {depth deeper : Nat} {id : ObjectId} {under : String}
    (hle : depth ≤ deeper) (h : Settles (instantiate owned depth id under) r) :
    (instantiate owned deeper id under).run r = (instantiate owned depth id under).run r := by
  induction hle with
  | refl => rfl
  | step _ ih =>
    rw [← ih]
    exact deepens_instantiate owned _ id under r fun e he => h.fails_of_answer (ih ▸ he)

end Step

/-! ## Runs -/

/-- An operation that keeps to the rule leaves no datatype containing itself. -/
theorem Operation.perform_orderly (h : r.Orderly) {operation : Operation κ}
    (hrule : operation.KeepsBases r) : (operation.perform r).Orderly := by
  refine operation.perform_closed Repository.orderly_closed Step.orderly_defineMember
    Step.orderly_remove ?_ ?_ h
  · rintro template base rfl
    refine (Step.orderly_setBase h template ?_).repo
    rintro b m rfl hm
    exact hrule m hm
  · rintro m role value rfl
    exact hrule.elim

theorem orderly_empty : (Repository.empty ts).Orderly :=
  Repository.Bounded.orderly (E := fun _ _ => False)
    ⟨Repository.wellFormed_empty, fun hd => by simp at hd⟩ fun _ hm => by
      cases hm with
      | single h => exact h
      | tail _ h => exact h

/-- In every state of a run that keeps to the rule, no datatype contains itself, directly or through
others. So no instance and no copy, of whatever is given, runs into itself, and the depth to which
datatypes may nest does not matter once it exceeds the number of models. -/
theorem acyclic_of_reached (h : Reached Operation.perform Operation.KeepsBases (.empty ts) r) :
    r.Acyclic ∧
      (∀ template under owned id,
        ((Step.newInstance template under owned).run r).answer ≠ .error (.endlessContainment id)) ∧
      (∀ value under owned id,
        ((Step.cloneValue value under owned).run r).answer ≠ .error (.endlessContainment id)) ∧
      ∀ template under owned depth, r.models.size < depth →
        (Step.instantiate owned depth template under).run r =
          (Step.newInstance template under owned).run r := by
  have horderly : r.Orderly :=
    h.invariant orderly_empty fun _ _ hr hrule => Operation.perform_orderly hr hrule
  refine ⟨horderly.acyclic, ?_, ?_, ?_⟩
  · intro template under owned id he
    exact (Step.settles_newInstance horderly template under owned).fails_of_answer he id rfl
  · intro value under owned id he
    exact (Step.settles_cloneValue horderly value under owned).fails_of_answer he id rfl
  · intro template under owned depth hdepth
    rw [Step.run_newInstance]
    refine Step.instantiate_of_le hdepth ?_
    exact Step.newInstance_ensures_iff.mp (Step.settles_newInstance horderly template under owned)

/-- A run that keeps to the rule: a line gets a point as its start. -/
theorem acyclic_line :
    let r : Repository (Idl.system ⟨4, 4⟩) := Operation.run (.empty _)
      [.newTemplate "Point" .struct, .newTemplate "Line" .struct,
        .defineMember ⟨1⟩ ⟨"start", ⟨0⟩, [], []⟩]
    (r.object? ⟨1⟩ = some (.composite ⟨1⟩ ⟨[("start", .composite ⟨2⟩)]⟩) ∧
      r.modelOf? ⟨2⟩ = some ⟨0⟩) ∧ r.Acyclic := by
  refine ⟨by decide, (acyclic_of_reached ?_).1⟩
  simp only [Operation.run, List.foldl_cons, List.foldl_nil]
  exact .next (.next (.next .start trivial) trivial) trivial

namespace Idl

open Repository (Orderly orderly_closed)

variable {limits : Limits} {r : Repository (system limits)}

theorem orderly_editable : Editable (Orderly : Repository (system limits) → Prop) where
  toDeclarative := orderly_closed.toDeclarative
  leaf m role v hleaf := by
    refine ⟨fun r h => ?_⟩
    obtain ⟨h, d, hd⟩ := h
    have hwithin : ∀ r', Step.Within r.Contains r r' →
        r'.Orderly ∧ ∃ d', r'.model? m = some (.datatype d') := by
      intro r' h'
      obtain ⟨d', hd', -⟩ := h'.steady.datatype hd
      exact ⟨h'.bounded.orderly h.acyclic, d', hd'⟩
    refine (Step.updateInstances_within role (Step.within_refl h.bounded) fun y hy => ?_).imp
      (fun _ => hwithin) fun _ => hwithin
    obtain rfl := Option.some.inj hy
    exact absurd hleaf.object?_eq_none (by simp [Value.object?])
  member := Step.orderly_defineMember
  base template _ _ h hbase :=
    Step.orderly_setBase h template fun b _ hb hm => isAlias_of_struct (hbase b hb) hm

/-- The facade keeps to the rule by itself. -/
def Operation.KeepsBases (r : Repository (system limits)) : Operation → Prop
  | repository operation => operation.KeepsBases r
  | _ => True

/-- In no state of a run of the facade that keeps to the rule a datatype contains itself. -/
theorem orderly_of_reached
    (h : Reached Operation.perform Operation.KeepsBases (initial limits) r) : r.Orderly := by
  refine h.invariant (initial_of_empty orderly_editable.toDeclarative orderly_empty)
    fun r operation hr hrule => operation.perform_editable orderly_editable ?_ hr
  rintro inner rfl
  exact inner.perform_orderly hr hrule

end Idl

end Metamodel
