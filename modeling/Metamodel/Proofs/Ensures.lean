import Mathlib.Data.List.Forall2
import Metamodel.Step

/-!
# Metamodel.Proofs.Ensures -- what a step leaves behind

`x.Ensures r ok fails` says of the run of `x` on `r`: an answer comes with a repository that
satisfies `ok`, an error with one that satisfies `fails`. Both ends are described because a step
that fails keeps what it had done. The rules follow the way steps are composed, so that a proof
about an operation walks through it once, from the first query to the last edit.
-/

namespace Metamodel.Step

variable {κ : Type} {ts : TypeSystem κ} {α β : Type}

/-- A look-up that comes first decides how a step goes on. -/
theorem run_query_bind (f : Repository ts → Except Error α) (g : α → Step ts β)
    (r : Repository ts) :
    (query f >>= g).run r = match f r with
      | .ok a => (g a).run r
      | .error e => ⟨.error e, r, []⟩ := by
  cases h : f r with
  | ok a => exact run_bind_of_ok h
  | error e => exact run_bind_of_error h

theorem run_ask_bind (f : Repository ts → α) (g : α → Step ts β) (r : Repository ts) :
    (ask f >>= g).run r = (g (f r)).run r :=
  run_bind_of_ok rfl

/-- What is left when the step ends in an answer, and when it ends in an error. -/
def Ensures (x : Step ts α) (r : Repository ts) (ok : α → Repository ts → Prop)
    (fails : Error → Repository ts → Prop) : Prop :=
  match (x.run r).answer with
  | .ok a => ok a (x.run r).repo
  | .error e => fails e (x.run r).repo

variable {r : Repository ts} {ok ok' : α → Repository ts → Prop}
  {fails fails' : Error → Repository ts → Prop}

theorem Ensures.ok_of_answer {x : Step ts α} (h : x.Ensures r ok fails) {a : α}
    (ha : (x.run r).answer = .ok a) : ok a (x.run r).repo := by
  simpa only [Ensures, ha] using h

theorem Ensures.fails_of_answer {x : Step ts α} (h : x.Ensures r ok fails) {e : Error}
    (he : (x.run r).answer = .error e) : fails e (x.run r).repo := by
  simpa only [Ensures, he] using h

theorem ensures_of_answer {x : Step ts α}
    (hok : ∀ a, (x.run r).answer = .ok a → ok a (x.run r).repo)
    (hfails : ∀ e, (x.run r).answer = .error e → fails e (x.run r).repo) :
    x.Ensures r ok fails := by
  unfold Ensures
  cases h : (x.run r).answer with
  | ok a => exact hok a h
  | error e => exact hfails e h

/-- A fact about the repository alone holds however the step ends. -/
theorem Ensures.repo {x : Step ts α} {P : Repository ts → Prop}
    (h : x.Ensures r (fun _ => P) (fun _ => P)) : P (x.run r).repo := by
  cases ha : (x.run r).answer with
  | ok a => exact h.ok_of_answer ha
  | error e => exact h.fails_of_answer ha

/-- A step that cannot fail answers. -/
theorem Ensures.answers {x : Step ts α} (h : x.Ensures r ok fun _ _ => False) :
    ∃ a, (x.run r).answer = .ok a ∧ ok a (x.run r).repo := by
  cases ha : (x.run r).answer with
  | ok a => exact ⟨a, rfl, h.ok_of_answer ha⟩
  | error e => exact (h.fails_of_answer ha).elim

theorem Ensures.imp {x : Step ts α} (h : x.Ensures r ok fails)
    (hok : ∀ a r', ok a r' → ok' a r') (hfails : ∀ e r', fails e r' → fails' e r') :
    x.Ensures r ok' fails' :=
  ensures_of_answer (fun a ha => hok a _ (h.ok_of_answer ha))
    fun e he => hfails e _ (h.fails_of_answer he)

theorem ensures_true (x : Step ts α) (r : Repository ts) :
    x.Ensures r (fun _ _ => True) fun _ _ => True :=
  ensures_of_answer (fun _ _ => trivial) fun _ _ => trivial

theorem ensures_answer (x : Step ts α) (r : Repository ts) :
    x.Ensures r (fun a _ => (x.run r).answer = .ok a) fun e _ => (x.run r).answer = .error e :=
  ensures_of_answer (fun _ ha => ha) fun _ he => he

theorem Ensures.and {x : Step ts α} (h : x.Ensures r ok fails) (h' : x.Ensures r ok' fails') :
    x.Ensures r (fun a r' => ok a r' ∧ ok' a r') (fun e r' => fails e r' ∧ fails' e r') :=
  ensures_of_answer (fun _ ha => ⟨h.ok_of_answer ha, h'.ok_of_answer ha⟩)
    fun _ he => ⟨h.fails_of_answer he, h'.fails_of_answer he⟩

/-! ## Rules for single steps -/

@[simp] theorem ensures_pure (a : α) : (pure a : Step ts α).Ensures r ok fails ↔ ok a r := Iff.rfl

@[simp] theorem ensures_fail (e : Error) :
    (fail e : Step ts α).Ensures r ok fails ↔ fails e r := Iff.rfl

@[simp] theorem ensures_ask (f : Repository ts → α) :
    (ask f).Ensures r ok fails ↔ ok (f r) r := Iff.rfl

@[simp] theorem ensures_edit {ok : Unit → Repository ts → Prop}
    (f : Repository ts → Repository ts) : (edit f).Ensures r ok fails ↔ ok () (f r) := Iff.rfl

@[simp] theorem ensures_note {ok : Unit → Repository ts → Prop} (f : Repository ts → Notice) :
    (note f).Ensures r ok fails ↔ ok () r := Iff.rfl

@[simp] theorem ensures_query (f : Repository ts → Except Error α) :
    (query f).Ensures r ok fails ↔
      (∀ a, f r = .ok a → ok a r) ∧ ∀ e, f r = .error e → fails e r := by
  show (match f r with | .ok a => ok a r | .error e => fails e r) ↔ _
  cases f r with
  | ok a => simp
  | error e => simp

/-! ## Rules for composed steps -/

@[simp] theorem ensures_bind {x : Step ts α} {f : α → Step ts β} {ok : β → Repository ts → Prop} :
    (x >>= f).Ensures r ok fails ↔ x.Ensures r (fun a r' => (f a).Ensures r' ok fails) fails := by
  cases h : (x.run r).answer with
  | ok a =>
    have hrun := run_bind_of_ok (f := f) h
    simp only [Ensures, hrun, h]
  | error e =>
    have hrun := run_bind_of_error (f := f) h
    simp only [Ensures, hrun, h]

@[simp] theorem ensures_map {x : Step ts α} {f : α → β} {ok : β → Repository ts → Prop} :
    (f <$> x).Ensures r ok fails ↔ x.Ensures r (fun a => ok (f a)) fails :=
  ensures_bind

/-- A step for each item keeps what each of them keeps. -/
theorem ensures_forEach {P : Repository ts → Prop} (xs : List α) {f : α → Step ts Unit}
    (hf : ∀ a ∈ xs, ∀ r, P r → (f a).Ensures r (fun _ => P) fails) (hr : P r) :
    (forEach xs f).Ensures r (fun _ => P) fails := by
  induction xs generalizing r with
  | nil => exact hr
  | cons a rest ih =>
    rw [forEach, ensures_bind]
    refine (hf a List.mem_cons_self r hr).imp ?_ fun _ _ h => h
    intro _ r' hr'
    exact ih (fun b hb => hf b (List.mem_cons_of_mem a hb)) hr'

/-- A step for each item keeps an invariant, and relates each item to the answer for it. The
relation may speak of the repository, if later steps keep it. -/
theorem ensures_mapEach {P : Repository ts → Prop} {R : Repository ts → α → β → Prop} (xs : List α)
    {f : α → Step ts β}
    (hf : ∀ a ∈ xs, ∀ r, P r → (f a).Ensures r
      (fun b r' => P r' ∧ (∀ a b, R r a b → R r' a b) ∧ R r' a b) fails) (hr : P r) :
    (mapEach xs f).Ensures r
      (fun bs r' => P r' ∧ (∀ a b, R r a b → R r' a b) ∧ List.Forall₂ (R r') xs bs) fails := by
  induction xs generalizing r with
  | nil => exact ⟨hr, fun _ _ h => h, .nil⟩
  | cons a rest ih =>
    rw [mapEach, ensures_bind]
    refine (hf a List.mem_cons_self r hr).imp ?_ fun _ _ h => h
    rintro b r₁ ⟨h₁, hmono₁, hb⟩
    rw [ensures_bind]
    refine (ih (fun c hc => hf c (List.mem_cons_of_mem a hc)) h₁).imp ?_ fun _ _ h => h
    rintro bs r₂ ⟨h₂, hmono₂, hbs⟩
    exact ⟨h₂, fun c d h => hmono₂ c d (hmono₁ c d h), .cons (hmono₂ a b hb) hbs⟩

/-- A step for each item keeps an invariant that speaks of the answers so far. -/
theorem ensures_mapEach_answers {P : List β → Repository ts → Prop} (xs : List α)
    {f : α → Step ts β} (done : List β)
    (hf : ∀ a ∈ xs, ∀ done r, P done r →
      (f a).Ensures r (fun b r' => P (done ++ [b]) r') fails) (hr : P done r) :
    (mapEach xs f).Ensures r (fun bs r' => P (done ++ bs) r') fails := by
  induction xs generalizing r done with
  | nil => simpa [mapEach] using hr
  | cons a rest ih =>
    rw [mapEach, ensures_bind]
    refine (hf a List.mem_cons_self done r hr).imp ?_ fun _ _ h => h
    intro b r₁ h₁
    rw [ensures_bind]
    refine (ih _ (fun c hc => hf c (List.mem_cons_of_mem a hc)) h₁).imp ?_ fun _ _ h => h
    intro bs r₂ h₂
    simpa using h₂

/-! ## Steps that keep a property -/

/-- The step keeps a property of repositories, whether it answers or fails. -/
structure Keeps (P : Repository ts → Prop) (x : Step ts α) : Prop where
  ensures : ∀ r, P r → x.Ensures r (fun _ => P) fun _ => P

variable {P : Repository ts → Prop}

theorem Keeps.repo {x : Step ts α} (hx : Keeps P x) {r : Repository ts} (h : P r) :
    P (x.run r).repo :=
  (hx.ensures r h).repo

theorem keeps_pure (a : α) : Keeps P (pure a : Step ts α) := ⟨fun _ h => h⟩

theorem keeps_fail (e : Error) : Keeps P (fail e : Step ts α) := ⟨fun _ h => h⟩

theorem keeps_ask (f : Repository ts → α) : Keeps P (ask f) := ⟨fun _ h => h⟩

theorem keeps_note (f : Repository ts → Notice) : Keeps P (note f) := ⟨fun _ h => h⟩

theorem keeps_query (f : Repository ts → Except Error α) : Keeps P (query f) := by
  refine ⟨fun r h => ?_⟩
  rw [ensures_query]
  exact ⟨fun _ _ => h, fun _ _ => h⟩

theorem keeps_edit {f : Repository ts → Repository ts} (h : ∀ r, P r → P (f r)) :
    Keeps P (edit f) := ⟨h⟩

theorem Keeps.bind {x : Step ts α} {f : α → Step ts β} (hx : Keeps P x) (hf : ∀ a, Keeps P (f a)) :
    Keeps P (x >>= f) := by
  refine ⟨fun r h => ?_⟩
  rw [ensures_bind]
  exact (hx.ensures r h).imp (fun a r' h' => (hf a).ensures r' h') fun _ _ h' => h'

theorem keeps_forEach (xs : List α) {f : α → Step ts Unit} (hf : ∀ a ∈ xs, Keeps P (f a)) :
    Keeps P (forEach xs f) :=
  ⟨fun _ h => ensures_forEach xs (fun a ha => (hf a ha).ensures) h⟩

end Metamodel.Step
