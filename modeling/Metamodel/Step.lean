import Metamodel.Notice
import Metamodel.Repository

/-!
# Metamodel.Step -- operations that change a repository

A step takes a repository to an outcome: an answer or an error, the repository afterwards, and what
was reported on the way. A step that fails keeps what it had done before; whether an operation
leaves nothing half done is therefore a statement about it and no convention. Steps are composed as
a monad: after an error nothing more is done.
-/

namespace Metamodel

/-- What a step leaves. -/
structure Outcome {κ : Type} (ts : TypeSystem κ) (α : Type) where
  answer : Except Error α
  repo : Repository ts
  log : List Notice

/-- An operation on a repository. -/
def Step {κ : Type} (ts : TypeSystem κ) (α : Type) : Type :=
  Repository ts → Outcome ts α

namespace Step

variable {κ : Type} {ts : TypeSystem κ} {α β : Type}

/-- The outcome of a step on a repository. -/
def run (x : Step ts α) (r : Repository ts) : Outcome ts α := x r

/-- Answers and changes nothing. -/
protected def pure (a : α) : Step ts α :=
  fun r => ⟨.ok a, r, []⟩

/-- Goes on with the answer of a step, unless it failed. -/
protected def bind (x : Step ts α) (f : α → Step ts β) : Step ts β :=
  fun r => match x r with
    | ⟨.error e, r', log⟩ => ⟨.error e, r', log⟩
    | ⟨.ok a, r', log⟩ =>
      let o := f a r'
      ⟨o.answer, o.repo, log ++ o.log⟩

instance : Monad (Step ts) where
  pure := Step.pure
  bind := Step.bind

/-- Fails and changes nothing. -/
def fail (e : Error) : Step ts α :=
  fun r => ⟨.error e, r, []⟩

/-- Answers from the repository and changes nothing. -/
def query (f : Repository ts → Except Error α) : Step ts α :=
  fun r => ⟨f r, r, []⟩

/-- Looks something up that has an answer in every repository. -/
def ask (f : Repository ts → α) : Step ts α :=
  fun r => ⟨.ok (f r), r, []⟩

/-- Changes the repository. -/
def edit (f : Repository ts → Repository ts) : Step ts Unit :=
  fun r => ⟨.ok (), f r, []⟩

/-- Reports something. -/
def note (f : Repository ts → Notice) : Step ts Unit :=
  fun r => ⟨.ok (), r, [f r]⟩

/-- Does a step for each item, in order. -/
def forEach : List α → (α → Step ts Unit) → Step ts Unit
  | [], _ => pure ()
  | a :: rest, f => do
    f a
    forEach rest f

/-- Does a step for each item, in order, and collects the answers. -/
def mapEach : List α → (α → Step ts β) → Step ts (List β)
  | [], _ => pure []
  | a :: rest, f => do
    let b ← f a
    let bs ← mapEach rest f
    pure (b :: bs)

/-! ## Outcomes of composed steps -/

@[simp] theorem run_pure (a : α) (r : Repository ts) :
    (pure a : Step ts α).run r = ⟨.ok a, r, []⟩ := rfl

@[simp] theorem run_fail (e : Error) (r : Repository ts) :
    (fail e : Step ts α).run r = ⟨.error e, r, []⟩ := rfl

@[simp] theorem run_query (f : Repository ts → Except Error α) (r : Repository ts) :
    (query f).run r = ⟨f r, r, []⟩ := rfl

@[simp] theorem run_ask (f : Repository ts → α) (r : Repository ts) :
    (ask f).run r = ⟨.ok (f r), r, []⟩ := rfl

@[simp] theorem run_edit (f : Repository ts → Repository ts) (r : Repository ts) :
    (edit f).run r = ⟨.ok (), f r, []⟩ := rfl

@[simp] theorem run_note (f : Repository ts → Notice) (r : Repository ts) :
    (note f).run r = ⟨.ok (), r, [f r]⟩ := rfl

/-- A step that succeeds is followed by the next one. -/
theorem run_bind_of_ok {x : Step ts α} {f : α → Step ts β} {r : Repository ts} {a : α}
    (h : (x.run r).answer = .ok a) :
    (x >>= f).run r =
      ⟨((f a).run (x.run r).repo).answer, ((f a).run (x.run r).repo).repo,
        (x.run r).log ++ ((f a).run (x.run r).repo).log⟩ := by
  show Step.bind x f r = _
  unfold Step.bind
  revert h
  simp only [run]
  cases x r with
  | mk answer repo log =>
    intro h
    cases h
    rfl

/-- A step that fails is the last one. -/
theorem run_bind_of_error {x : Step ts α} {f : α → Step ts β} {r : Repository ts} {e : Error}
    (h : (x.run r).answer = .error e) :
    (x >>= f).run r = ⟨.error e, (x.run r).repo, (x.run r).log⟩ := by
  show Step.bind x f r = _
  unfold Step.bind
  revert h
  simp only [run]
  cases x r with
  | mk answer repo log =>
    intro h
    cases h
    rfl

end Step

end Metamodel
