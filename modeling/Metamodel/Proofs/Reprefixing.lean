import Metamodel.Proofs.Likeness
import Metamodel.Proofs.Segments
import Metamodel.Proofs.Unreleased

/-!
# Metamodel.Proofs.Reprefixing -- copies of copies

A copy of a value goes under a path, and so does a copy of this copy. What there is of a value under
two paths, one after the other, follows it under the two joined: the three rules for the paths of
leaves, of composites and of collections agree in this. Two repositories that have grown out of the
same one by copies alone still have the same templates, so that copies which follow one value under
one path look alike in both. Main statement: whatever a composite has in a field, a copy of its copy
looks like the one copy under the joined path, and a copy under no path looks like the value.
-/

namespace Metamodel

variable {κ : Type} {ts : TypeSystem κ} {r r₁ r₂ : Repository ts} {under a b : String}
  {v w u : Value}

namespace Repository

/-! ## One path after the other -/

/-- What follows under `b` what follows a value under `a` follows the value under the two joined. -/
theorem Follows.trans (h : r.Follows a v w) (h' : r.Follows b w u) :
    r.Follows (Path.join b a) v u := by
  cases h with
  | accessor leaf =>
    cases h'
    rw [Path.leaf_leaf]
    exact .accessor leaf
  | scalar s =>
    cases h'
    exact .scalar s
  | composite hx hy hname =>
    cases h' with
    | composite hy' hz hname' =>
      obtain ⟨rfl, -⟩ := composite_unique hy hy'
      exact .composite hx hz (by rw [hname', hname, Path.join_assoc])
  | collection hx hy hname helement hcapacity =>
    cases h' with
    | collection hy' hz hname' helement' hcapacity' =>
      obtain rfl := Except.ok.inj (hy.symm.trans hy')
      exact .collection hx hz (by rw [hname', hname, Path.join_assoc])
        (helement'.trans helement) (hcapacity'.trans hcapacity)

/-! ## Copies in two repositories -/

/-- Repositories that have grown out of one by copies have the templates of that one. -/
theorem Consistent.parallel (h : r.Consistent) (hlive : r.HasContents) (h₁ : Step.Copied r r₁)
    (h₂ : Step.Copied r r₂) : Parallel r r₁ r₂ where
  origin := h.wellFormed
  contents := hlive
  left := h.copied h₁
  right := h.copied h₂
  preserves_left := h₁.grew.2.preserves
  preserves_right := h₂.grew.2.preserves
  template {m d} hd := by
    obtain ⟨d₀, g, hd₀, rfl⟩ := h₁.grew.2.datatype_of hd
    obtain ⟨f, hT⟩ := h.wellFormed.template hd₀
    have hfields : ∀ {r'}, r.Extends r' → r'.templateFields? m = some f := by
      intro r' hext
      have hsame : r.SameBut (fun _ => False) (fun _ => False) r' := hext.sameBut
      rw [hsame.templateFields? h.wellFormed hd₀ not_false, templateFields?_eq hd₀ hT]
    refine ⟨?_, f, f, hfields h₁.grew.2, hfields h₂.grew.2, .of_self fun v hv => ?_⟩
    · rw [h₁.grew.2.nameOf hd₀, h₂.grew.2.nameOf hd₀]
    · exact hlive.alike h.wellFormed h₁.grew.2.preserves h₂.grew.2.preserves
        (h.tidy.denotes hT hv)

/-- `w` is what a copy of `v` under a path is, in a repository to which it has been added. -/
structure CopiedTo (r : Repository ts) (under : String) (v w : Value) (r' : Repository ts) :
    Prop where
  copied : Step.Copied r r'
  copyable : r'.Copyable w
  follows : r'.Follows under v w

theorem CopiedTo.trans (h : r.CopiedTo a v w r₁) (h' : r₁.CopiedTo b w u r₂) :
    r.CopiedTo (Path.join b a) v u r₂ where
  copied := h.copied.trans h'.copied
  copyable := h'.copyable
  follows := (h.follows.preserves h'.copied.grew.2.preserves).trans h'.follows

/-- A copy that is made after other copies is one of the repository before these. -/
theorem CopiedTo.since (h : r₁.CopiedTo under v w r₂) (h₁ : Step.Copied r r₁) :
    r.CopiedTo under v w r₂ :=
  { h with copied := h₁.trans h.copied }

/-- What is a copy of a value in two repositories, under one path, looks the same in both. -/
theorem CopiedTo.snapshot_eq (h : r.Consistent) (hlive : r.HasContents)
    (hw : r.CopiedTo under v w r₁) (hu : r.CopiedTo under v u r₂) (hv : r.Denotes v) :
    r₁.snapshot w = r₂.snapshot u :=
  have hparallel := h.parallel hlive hw.copied hu.copied
  hparallel.snapshot_eq ((hparallel.alike hv).follows hw.follows hu.follows)

end Repository

/-! ## Steps that copy -/

namespace Step

open Repository (CopiedTo)

/-- A step that does nothing but copy a value, and cannot fail. -/
def MakesCopy (x : Step ts Value) (r : Repository ts) (under : String) (v : Value) : Prop :=
  x.Ensures r (r.CopiedTo under v) fun _ _ => False

theorem cloneValue_makesCopy (h : r.Consistent) (hv : r.Copyable v) (under : String)
    (owned : Bool) : MakesCopy (cloneValue v under owned) r under v := by
  refine (cloneValue_copies h.orderly h.tidy hv under owned).imp ?_ fun _ _ h' => h'
  rintro w r' ⟨hcopied, hloose, hfollows⟩
  refine ⟨hcopied, ⟨hloose.denotes, ?_⟩, hfollows⟩
  rintro x rfl
  exact hloose.noTemplate h.wellFormed hcopied.grew.2 rfl

/-- Copies a value under a path, and then the copy under another one. -/
def cloneTwice (value : Value) (first second : String) (owned owned' : Bool) : Step ts Value := do
  let copy ← cloneValue value first owned
  cloneValue copy second owned'

theorem cloneTwice_makesCopy (h : r.Consistent) (hv : r.Copyable v) (a b : String)
    (owned owned' : Bool) : MakesCopy (cloneTwice v a b owned owned') r (Path.join b a) v := by
  rw [MakesCopy, cloneTwice, ensures_bind]
  refine (cloneValue_makesCopy h hv a owned).imp (fun w r₁ hw => ?_) fun _ _ h' => h'
  exact (cloneValue_makesCopy (h.copied hw.copied) hw.copyable b owned').imp
    (fun u r₂ hu => hw.trans hu) fun _ _ h' => h'

/-- The step answers with a value that has this snapshot as soon as the step is done. -/
def Shows (x : Step ts Value) (r : Repository ts) (image : Snapshot) : Prop :=
  ∃ w, (x.run r).answer = .ok w ∧ (x.run r).repo.snapshot w = .ok image

/-- Whatever copies a value under a path shows the same, now and after other copies. -/
theorem exists_shows (h : r.Consistent) (hlive : r.Unreleased) (hv : r.Copyable v)
    (under : String) : ∃ image, ∀ r₁, Copied r r₁ → ∀ x, MakesCopy x r₁ under v →
      Shows x r₁ image := by
  obtain ⟨w, -, hw⟩ := (cloneValue_makesCopy h hv under true).answers
  have hafter := h.copied hw.copied
  obtain ⟨image, himage⟩ := (hlive.grew hw.copied.grew).hasContents.snapshot_ok hafter.wellFormed
    hafter.tidy hw.copyable.denotes
  refine ⟨image, fun r₁ h₁ x hx => ?_⟩
  obtain ⟨u, hanswer, hu⟩ := hx.answers
  exact ⟨u, hanswer,
    ((hu.since h₁).snapshot_eq h hlive.hasContents hw hv.denotes).trans himage⟩

end Step

/-! ## The laws -/

namespace Repository

open Step (cloneTwice cloneValue)

/-- Copying a value obeys the laws of prefixes: one after the other they are the joined one, and the
empty one is none. -/
structure Reprefixes (r : Repository ts) (v : Value) : Prop where
  /-- The copy under the joined path may be made in place of the two, or after them. -/
  composes : ∀ (a b : String) (owned owned' owned'' : Bool), ∃ image,
    (cloneTwice v a b owned owned').Shows r image ∧
    (cloneValue v (Path.join b a) owned'').Shows r image ∧
    (cloneValue v (Path.join b a) owned'').Shows ((cloneTwice v a b owned owned').run r).repo image
  unit : ∀ owned : Bool, ∃ image,
    r.snapshot v = .ok image ∧ (cloneValue v "" owned).Shows r image

theorem Consistent.reprefixes (h : r.Consistent) (hlive : r.Unreleased) (hv : r.Copyable v) :
    r.Reprefixes v where
  composes a b owned owned' owned'' := by
    obtain ⟨image, himage⟩ := Step.exists_shows h hlive hv (Path.join b a)
    have htwice := Step.cloneTwice_makesCopy h hv a b owned owned'
    obtain ⟨w, -, hw⟩ := htwice.answers
    have hself := Step.copied_refl h.wellFormed
    have hlater := hv.later hw.copied.grew.2.preserves hw.copied.grew.2.steady
    exact ⟨image, himage r hself _ htwice,
      himage r hself _ (Step.cloneValue_makesCopy h hv _ owned''),
      himage _ hw.copied _ (Step.cloneValue_makesCopy (h.copied hw.copied) hlater _ owned'')⟩
  unit owned := by
    obtain ⟨image, himage⟩ := hlive.hasContents.snapshot_ok h.wellFormed h.tidy hv.denotes
    obtain ⟨w, hanswer, hw⟩ := (Step.cloneValue_makesCopy h hv "" owned).answers
    have hext := hw.copied.grew.2
    have hself := follows_self (h.copied hw.copied).wellFormed (hext.preserves.denotes hv.denotes)
    refine ⟨image, himage, w, hanswer, ?_⟩
    rw [(h.copied hw.copied).snapshot_eq hw.follows hself,
      hext.snapshot_eq h.wellFormed h.tidy hv.denotes, himage]

end Repository

namespace Idl

variable {limits : Limits} {r : Repository (system limits)}

/-- In every state of a run in which instances follow their templates and nothing is released, for
every value that a composite has in a field: a copy of its copy looks like the one copy under the
joined path, and a copy under no path looks like the value itself. -/
theorem reprefixes_of_reached
    (h : Reached Operation.perform Operation.Retains (initial limits) r) {x : ObjectId}
    {role : String} {v : Value} (hv : r.field? x role = some v) : r.Reprefixes v := by
  have hr : r.Consistent := consistent_of_reached (h.mono fun _ _ hop => hop.1)
  obtain ⟨m, f, ho, hget⟩ := Repository.field?_eq_some_iff.mp hv
  exact hr.reprefixes (unreleased_of_reached h)
    (hr.tidy.copyable ho (Table.mem_values_of_get? hget))

/-- A structure has a union and a sequence of unions, and so has its instance, one of whose elements
has been obtained. -/
theorem reprefixes_union :
    let r := Operation.run (initial ⟨4, 4⟩)
      [.newUnion "Choice" Atom.long.template [.member ⟨"code", Atom.long.template, [], [.int 1]⟩],
        .newStruct "Event" [.member ⟨"choice", ⟨21⟩, [], []⟩,
          .member ⟨"past", ⟨21⟩, [sequence (.size 3)], []⟩],
        .repository (.newInstance ⟨22⟩ "log" false), .repository (.element ⟨26⟩ 0)]
    r.field? ⟨27⟩ "choice" = some (.composite ⟨25⟩) ∧ r.Reprefixes (.composite ⟨25⟩) ∧
      r.field? ⟨27⟩ "past" = some (.collection ⟨26⟩) ∧ r.Reprefixes (.collection ⟨26⟩) ∧
      r.field? ⟨25⟩ discriminatorRole = some (.accessor "log.choice#") ∧
      r.Reprefixes (.accessor "log.choice#") := by
  intro r
  have hchoice : r.field? ⟨27⟩ "choice" = some (.composite ⟨25⟩) := by decide +kernel
  have hpast : r.field? ⟨27⟩ "past" = some (.collection ⟨26⟩) := by decide +kernel
  have hmark : r.field? ⟨25⟩ discriminatorRole = some (.accessor "log.choice#") := by
    decide +kernel
  have h : Reached Operation.perform Operation.Retains (initial ⟨4, 4⟩) r := by
    simp only [r, Operation.run, List.foldl_cons, List.foldl_nil]
    refine .next (.next (.next (.next .start ?_) ?_) ?_) ?_ <;> exact ⟨trivial, by simp⟩
  clear_value r
  exact ⟨hchoice, reprefixes_of_reached h hchoice, hpast, reprefixes_of_reached h hpast, hmark,
    reprefixes_of_reached h hmark⟩

end Idl

end Metamodel
