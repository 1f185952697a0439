import Metamodel.Proofs.Lengths
import Metamodel.Proofs.Likeness
import Metamodel.Proofs.Patching
import Metamodel.Proofs.Unreleased

/-!
# Metamodel.Proofs.Commuting -- edits of different datatypes

An edit of a member declares it and writes one field, of a form that the other edit does not change.
In which order two datatypes are edited matters for the objects that are made: instances of the
second one may have been there when it was edited, or may have been made afterwards. Main statement:
the declarations are the same in either order, and so is what templates and instances look like.
-/

namespace Metamodel

variable {κ : Type} {ts : TypeSystem κ} {r₀ r r' : Repository ts}

namespace Repository

/-- What a member is made of was there. -/
theorem holdsElement_of_nestedForm {element : ObjectId} {q : Qualifier} {name : String}
    {form : Form} (h : r.nestedForm element q name = .ok form) : r.HoldsElement form := by
  obtain ⟨hcontent, cs, -, rfl⟩ := nestedForm_ok_iff.mp h
  rcases checkContent_eq_ok_iff.mp hcontent with ⟨m, es, ho⟩ | hkind
  · exact isLive_iff.mpr ⟨_, ho⟩
  · obtain ⟨-, m, f, d, ho, -⟩ := assertTemplateKind_eq_ok_iff.mp hkind
    exact isLive_iff.mpr ⟨_, ho⟩

theorem holdsElement_of_memberForm {datatype : ObjectId} {role : String}
    {qualifiers : List Qualifier} {form : Form}
    (h : r.memberForm datatype role qualifiers = .ok form) : r.HoldsElement form := by
  obtain ⟨x, -, h⟩ := bind_eq_ok_iff.mp h
  split at h
  · exact holdsElement_of_nestedForm h
  · obtain ⟨seed, -, h⟩ := bind_eq_ok_iff.mp h
    split at h
    · exact holdsElement_of_nestedForm h
    · obtain ⟨m, -, h⟩ := bind_eq_ok_iff.mp h
      obtain rfl := Except.ok.inj h
      split <;> trivial

end Repository

namespace Step

variable {α : Type} {x : Step ts α}

/-- The step succeeds and leaves this repository. -/
def Leads (x : Step ts α) (r r' : Repository ts) : Prop :=
  (∃ a, (x.run r).answer = .ok a) ∧ (x.run r).repo = r'

theorem Ensures.of_leads {ok : α → Repository ts → Prop} {fails : Error → Repository ts → Prop}
    (h : x.Ensures r ok fails) (hx : x.Leads r r') : ∃ a, ok a r' := by
  obtain ⟨⟨a, ha⟩, rfl⟩ := hx
  exact ⟨a, h.ok_of_answer ha⟩

end Step

namespace Patch

/-- What is written is made of what was there. -/
def HoldsElement (r : Repository ts) : Patch → Prop
  | write _ form => r.HoldsElement form
  | _ => True

/-- Two tables that one patch makes of one table are alike. -/
theorem Turns.alike {patch : Patch} {f g g' : Table String Value} (hg : patch.Turns r f g)
    (hg' : patch.Turns r' f g') (helement : patch.HoldsElement r₀)
    (hf : ∀ v ∈ f.values, Repository.Alike r₀ r r' v v) :
    g.Fieldwise (Repository.Alike r₀ r r') g' := by
  cases hg with
  | keep =>
    cases hg'
    exact .of_self hf
  | write _ hv =>
    cases hg' with
    | write _ hw => exact (Table.Fieldwise.of_self hf).insert _ (.form hv hw helement)
  | drop role =>
    cases hg'
    exact (Table.Fieldwise.of_self hf).erase role

end Patch

namespace Idl

open Repository (Parallel)

variable {limits : Limits} {r r' r'' : Repository (system limits)} {m : ModelId}

/-! ## Patches of several datatypes -/

/-- Each datatype has been patched in its own way. -/
structure Revised (patches : ModelId → Patch) (r r' : Repository (system limits)) : Prop where
  consistent : r'.Consistent
  preserves : r.Preserves r'
  redeclared : r.Redeclared r'
  /-- No datatype is new. -/
  datatype_old : ∀ {m d}, r'.model? m = some (.datatype d) → m.index < r.models.size
  shape : ∀ {m s}, r.model? m = some (.shape s) → r'.model? m = some (.shape s)
  entries : ∀ m, r'.entriesOf m = (patches m).entries (r.entriesOf m)
  fields : ∀ {m d f}, r.model? m = some (.datatype d) → r.templateFields? m = some f →
    ∃ f', r'.templateFields? m = some f' ∧ (patches m).Turns r' f f'

/-- Two datatypes are patched one after the other. -/
theorem Patched.revised {m₁ m₂ : ModelId} {p₁ p₂ : Patch} (hr : r.WellFormed)
    (h₁ : Patched m₁ p₁ r r') (h₂ : Patched m₂ p₂ r' r'') (hne : m₁ ≠ m₂)
    (hd₁ : ∃ d, r.model? m₁ = some (.datatype d)) (hd₂ : ∃ d, r.model? m₂ = some (.datatype d)) :
    Revised (fun n => if n = m₁ then p₁ else if n = m₂ then p₂ else .keep) r r'' where
  consistent := h₂.consistent
  preserves := h₁.upholds.preserves.trans h₂.upholds.preserves
  redeclared := h₁.redeclared.trans h₂.redeclared
  datatype_old {m d} hd := by
    have hsame : r.SameBut (fun n => n = m₁ ∨ n = m₂) (fun n => n = m₁ ∨ n = m₂) r'' :=
      (h₁.edited.sameBut.mono (fun _ => Or.inl) fun _ => Or.inl).trans
        (h₂.edited.sameBut.mono (fun _ => Or.inr) fun _ => Or.inr)
    rcases hsame.datatype_old hd with hlt | rfl | rfl
    · exact hlt
    · exact hd₁.elim fun _ => Repository.index_lt_of_model?
    · exact hd₂.elim fun _ => Repository.index_lt_of_model?
  shape hs := h₂.edited.sameBut.shape (h₁.edited.sameBut.shape hs)
  entries n := by
    rw [h₂.entriesOf h₁.consistent.wellFormed n, h₁.entriesOf hr n]
    by_cases hn : n = m₁
    · have hn₂ : n ≠ m₂ := fun heq => hne (hn.symm.trans heq)
      simp only [if_pos hn, if_neg hn₂, Patch.entries, id]
    · simp only [if_neg hn, Patch.entries, id]
  fields {n d f} hd hf := by
    obtain ⟨d', hd', -⟩ := h₁.edited.sameBut.datatype hd
    obtain ⟨f₁, hf₁, hturns₁⟩ := h₁.templateFields? hr hd hf
    obtain ⟨f₂, hf₂, hturns₂⟩ := h₂.templateFields? h₁.consistent.wellFormed hd' hf₁
    refine ⟨f₂, hf₂, ?_⟩
    by_cases hn : n = m₁
    · have hn₂ : n ≠ m₂ := fun heq => hne (hn.symm.trans heq)
      rw [if_neg hn₂] at hturns₂
      cases hturns₂
      rw [if_pos hn] at hturns₁ ⊢
      exact hturns₁.preserves h₂.upholds.preserves
    · rw [if_neg hn] at hturns₁ ⊢
      cases hturns₁
      exact hturns₂

namespace Revised

variable {patches : ModelId → Patch} (h : Revised patches r r')

include h

/-- Every datatype was there, with another declaration and another registry. -/
theorem datatype_before {d : Datatype Kind} (hd : r'.model? m = some (.datatype d)) :
    ∃ d₀ es g, r.model? m = some (.datatype d₀) ∧ d = { d₀ with entries := es, registry := g } := by
  obtain ⟨model, hmodel⟩ : ∃ model, r.model? m = some model := by
    simp [Repository.model?, h.datatype_old hd]
  cases model with
  | shape s => simp [h.shape hmodel] at hd
  | datatype d₀ =>
    obtain ⟨es, g, hd'⟩ := h.redeclared.datatype hmodel
    exact ⟨d₀, es, g, hmodel, Repository.datatype_unique hd hd'⟩

variable (h' : Revised patches r r'')

include h'

/-- The same patches leave the same datatypes, with other registries. -/
theorem datatype_eq {d : Datatype Kind} (hd : r'.model? m = some (.datatype d)) :
    ∃ g, r''.model? m = some (.datatype { d with registry := g }) := by
  obtain ⟨d₀, es, g, hd₀, rfl⟩ := h.datatype_before hd
  obtain ⟨es', g', hd'⟩ := h'.redeclared.datatype hd₀
  have hentries : es' = es := by
    have heq := (h'.entries m).trans (h.entries m).symm
    rwa [Repository.entriesOf_datatype hd, Repository.entriesOf_datatype hd'] at heq
  exact ⟨g', by rw [hd', hentries]⟩

/-- The same patches leave templates that are alike, whatever objects they are made of. -/
theorem parallel (hr : r.Consistent) (hlive : r.HasContents)
    (helement : ∀ m, (patches m).HoldsElement r) : Parallel r r' r'' := by
  refine ⟨hr.wellFormed, hlive, h.consistent, h'.consistent, h.preserves, h'.preserves,
    fun {m d} hd => ?_⟩
  obtain ⟨d₀, -, -, hd₀, -⟩ := h.datatype_before hd
  obtain ⟨f, hT⟩ := hr.wellFormed.template hd₀
  have hf := Repository.templateFields?_eq hd₀ hT
  obtain ⟨f', hf', hturns'⟩ := h.fields hd₀ hf
  obtain ⟨f'', hf'', hturns''⟩ := h'.fields hd₀ hf
  refine ⟨?_, f', f'', hf', hf'', hturns'.alike hturns'' (helement m) fun v hv => ?_⟩
  · rw [h.redeclared.nameOf hd₀, h'.redeclared.nameOf hd₀]
  · exact hlive.alike hr.wellFormed h.preserves h'.preserves (hr.tidy.denotes hT hv)

end Revised

namespace MemberEdit

/-- What a patch installs is made of what was there. -/
theorem patch_holdsElement {edit : MemberEdit} {patch : Patch} (h : edit.patch r m = .ok patch) :
    patch.HoldsElement r := by
  cases edit with
  | define member | defineAny member =>
    obtain ⟨form, hform, heq⟩ := bind_eq_ok_iff.mp h
    obtain rfl := Except.ok.inj heq
    exact Repository.holdsElement_of_memberForm hform
  | remove role =>
    obtain rfl := Except.ok.inj h
    split <;> trivial

theorem keeps_unreleased (template : ObjectId) (edit : MemberEdit) :
    Step.Keeps (Repository.Unreleased : Repository (system limits) → Prop)
      (edit.step template) := by
  have heditable : Editable (Repository.Unreleased : Repository (system limits) → Prop) :=
    editable_of_installs Repository.unreleased_declarative (fun m f h => h.mapEntries m f)
      Repository.installs_unreleased
  cases edit with
  | define member => exact Idl.keeps_defineMember heditable template member
  | defineAny member => exact heditable.member template member
  | remove role =>
    refine ⟨fun r h => Step.ensures_map.mpr ?_⟩
    exact (keeps_removeMember_of_installs (fun m f h => h.mapEntries m f)
      Repository.installs_unreleased template role).ensures r h

/-- Two edits of different datatypes that both succeed come down to the same patches in either
order. -/
theorem revised_of_leads {edit₁ edit₂ : MemberEdit} {t₁ t₂ : ObjectId} {m₁ m₂ : ModelId}
    {p₁ p₂ : Patch} (h : r.Consistent) (hm₁ : r.canonicalModel t₁ = .ok m₁)
    (hm₂ : r.canonicalModel t₂ = .ok m₂) (hne : m₁ ≠ m₂) (hp₁ : edit₁.patch r m₁ = .ok p₁)
    (hp₂ : edit₂.patch r m₂ = .ok p₂) (h₁ : (edit₁.step t₁).Leads r r')
    (h₂ : (edit₂.step t₂).Leads r' r'') :
    Revised (fun n => if n = m₁ then p₁ else if n = m₂ then p₂ else .keep) r r'' := by
  obtain ⟨-, p, hp, hr'⟩ := (step_patched h hm₁ edit₁).of_leads h₁
  obtain rfl : p₁ = p := Except.ok.inj (hp₁.symm.trans hp)
  have hm₂' : r'.canonicalModel t₂ = .ok m₂ := hr'.edited.sameBut.canonicalModel hm₂
  obtain ⟨-, p, hp, hr''⟩ := (step_patched hr'.consistent hm₂' edit₂).of_leads h₂
  -- The first edit has not changed what the second one comes down to.
  obtain rfl : p₂ = p :=
    Except.ok.inj ((patch_of_patched h.wellFormed hp₂ hr' hne.symm).symm.trans hp)
  obtain ⟨-, d₁, hd₁, -⟩ := Repository.canonicalModel_eq_ok_iff.mp hm₁
  obtain ⟨-, d₂, hd₂, -⟩ := Repository.canonicalModel_eq_ok_iff.mp hm₂
  exact hr'.revised h.wellFormed hr'' hne ⟨d₁, hd₁⟩ ⟨d₂, hd₂⟩

end MemberEdit

/-! ## Runs -/

theorem Operation.Shapes.retains {operation : Operation} (hop : operation.Shapes) :
    operation.Retains r := by
  cases operation with
  | repository inner =>
    cases inner with
    | removeMember | newInstance | element => exact ⟨trivial, fun id => by simp⟩
    | _ => exact hop.elim
  | _ => exact ⟨trivial, fun id => by simp⟩

/-- Let two members of different datatypes be edited, and let both edits succeed in either order.
Then every datatype is afterwards the same in both orders, but for its registry, and so is every
shape that was there; every template looks the same, and so does every object that was there. -/
theorem edits_commute {edit₁ edit₂ : MemberEdit} {t₁ t₂ : ObjectId} {m₁ m₂ : ModelId}
    {r₁ r₂ r₁₂ r₂₁ : Repository (system limits)}
    (h : Reached Operation.perform (fun _ operation => operation.Shapes) (initial limits) r)
    (hm₁ : r.canonicalModel t₁ = .ok m₁) (hm₂ : r.canonicalModel t₂ = .ok m₂) (hne : m₁ ≠ m₂)
    (h₁ : (edit₁.step t₁).Leads r r₁) (h₁₂ : (edit₂.step t₂).Leads r₁ r₁₂)
    (h₂ : (edit₂.step t₂).Leads r r₂) (h₂₁ : (edit₁.step t₁).Leads r₂ r₂₁) :
    (∀ m, r₁₂.entriesOf m = r₂₁.entriesOf m) ∧
    (∀ m d, r₁₂.model? m = some (.datatype d) →
      ∃ g, r₂₁.model? m = some (.datatype { d with registry := g })) ∧
    (∀ m s, r.model? m = some (.shape s) →
      r₁₂.model? m = some (.shape s) ∧ r₂₁.model? m = some (.shape s)) ∧
    (∀ m d, r₁₂.model? m = some (.datatype d) → ∃ image,
      r₁₂.snapshot (.composite d.template) = .ok image ∧
        r₂₁.snapshot (.composite d.template) = .ok image) ∧
    ∀ id v, r.valueOf id = .ok v → ∃ image,
      r₁₂.snapshot v = .ok image ∧ r₂₁.snapshot v = .ok image := by
  have hreached : Reached Operation.perform Operation.Retains (initial limits) r :=
    h.mono fun _ _ hop => hop.retains
  have hr : r.Consistent := consistent_of_reached (hreached.mono fun _ _ hop => hop.1)
  have hunreleased : r.Unreleased := unreleased_of_reached hreached
  obtain ⟨-, p₁, hp₁, -⟩ := (MemberEdit.step_patched hr hm₁ edit₁).of_leads h₁
  obtain ⟨-, p₂, hp₂, -⟩ := (MemberEdit.step_patched hr hm₂ edit₂).of_leads h₂
  have hrevised := MemberEdit.revised_of_leads hr hm₁ hm₂ hne hp₁ hp₂ h₁ h₁₂
  have hrevised' := MemberEdit.revised_of_leads hr hm₂ hm₁ hne.symm hp₂ hp₁ h₂ h₂₁
  have hpatches : (fun n => if n = m₂ then p₂ else if n = m₁ then p₁ else .keep) =
      fun n => if n = m₁ then p₁ else if n = m₂ then p₂ else Patch.keep := by
    funext n
    by_cases hn : n = m₁
    · rw [if_neg fun heq => hne (hn.symm.trans heq), if_pos hn, if_pos hn]
    · rw [if_neg hn, if_neg hn]
  rw [hpatches] at hrevised'
  have hparallel : Parallel r r₁₂ r₂₁ := by
    refine hrevised.parallel hrevised' hr hunreleased.hasContents fun n => ?_
    split
    · exact MemberEdit.patch_holdsElement hp₁
    · split
      · exact MemberEdit.patch_holdsElement hp₂
      · trivial
  -- Nothing has been released, so that there is a snapshot of every value.
  have hlive : r₁₂.HasContents := by
    obtain ⟨-, hr₁⟩ := (MemberEdit.keeps_unreleased t₁ edit₁).ensures r hunreleased |>.of_leads h₁
    obtain ⟨-, hr₁₂⟩ := (MemberEdit.keeps_unreleased t₂ edit₂).ensures r₁ hr₁ |>.of_leads h₁₂
    exact hr₁₂.hasContents
  have hsnapshot : ∀ {v}, r.Denotes v → ∃ image,
      r₁₂.snapshot v = .ok image ∧ r₂₁.snapshot v = .ok image := by
    intro v hv
    obtain ⟨image, himage⟩ := hlive.snapshot_ok hrevised.consistent.wellFormed
      hrevised.consistent.tidy (hrevised.preserves.denotes hv)
    exact ⟨image, himage, by rw [← hparallel.snapshot_eq (hparallel.alike hv), himage]⟩
  refine ⟨fun m => by rw [hrevised.entries, hrevised'.entries], fun m d hd =>
    hrevised.datatype_eq hrevised' hd,
    fun m s hs => ⟨hrevised.shape hs, hrevised'.shape hs⟩, ?_, ?_⟩
  · intro m d hd
    obtain ⟨d₀, es, g, hd₀, rfl⟩ := hrevised.datatype_before hd
    obtain ⟨f, hT⟩ := hr.wellFormed.template hd₀
    exact hsnapshot ⟨m, f, hT⟩
  · intro id v hv
    exact hsnapshot (Repository.denotes_of_valueOf hv).1

/-- A structure gets a member of another one, which gets a sequence. In one order the instance
inside of the first structure is made before the sequence is declared, in the other order
afterwards. -/
theorem edits_commute_nested :
    let r := Operation.run (initial ⟨4, 4⟩)
      [.newStruct "Line" [.member ⟨"width", Atom.long.template, [], []⟩],
        .newStruct "Point" [.member ⟨"x", Atom.long.template, [], []⟩],
        .newStruct "Shape" [.member ⟨"edges", ⟨21⟩, [sequence .unbounded], []⟩],
        .repository (.newInstance ⟨21⟩ "line" false)]
    let edit₁ := MemberEdit.define ⟨"start", ⟨22⟩, [], []⟩
    let edit₂ := MemberEdit.define ⟨"tags", Atom.string.template, [sequence (.size 3)], []⟩
    let r₁ := ((edit₁.step ⟨21⟩).run r).repo
    let r₁₂ := ((edit₂.step ⟨22⟩).run r₁).repo
    let r₂ := ((edit₂.step ⟨22⟩).run r).repo
    let r₂₁ := ((edit₁.step ⟨21⟩).run r₂).repo
    r.valueOf ⟨25⟩ = .ok (.composite ⟨25⟩) ∧ r₁₂.entriesOf ⟨22⟩ = r₂₁.entriesOf ⟨22⟩ ∧
      ∃ image, r₁₂.snapshot (.composite ⟨25⟩) = .ok image ∧
        r₂₁.snapshot (.composite ⟨25⟩) = .ok image := by
  intro r edit₁ edit₂ r₁ r₁₂ r₂ r₂₁
  have hvalue : r.valueOf ⟨25⟩ = .ok (.composite ⟨25⟩) := by decide +kernel
  have hm₁ : r.canonicalModel ⟨21⟩ = .ok ⟨21⟩ := by decide +kernel
  have hm₂ : r.canonicalModel ⟨22⟩ = .ok ⟨22⟩ := by decide +kernel
  have h₁ : (edit₁.step ⟨21⟩).Leads r r₁ := ⟨⟨(), by decide +kernel⟩, rfl⟩
  have h₁₂ : (edit₂.step ⟨22⟩).Leads r₁ r₁₂ := ⟨⟨(), by decide +kernel⟩, rfl⟩
  have h₂ : (edit₂.step ⟨22⟩).Leads r r₂ := ⟨⟨(), by decide +kernel⟩, rfl⟩
  have h₂₁ : (edit₁.step ⟨21⟩).Leads r₂ r₂₁ := ⟨⟨(), by decide +kernel⟩, rfl⟩
  have h : Reached Operation.perform (fun _ operation => operation.Shapes) (initial ⟨4, 4⟩) r := by
    simp only [r, Operation.run, List.foldl_cons, List.foldl_nil]
    exact .next (.next (.next (.next .start trivial) trivial) trivial) trivial
  clear_value r₁₂ r₂₁ r₁ r₂ r
  obtain ⟨hentries, -, -, -, hsnapshot⟩ := edits_commute h hm₁ hm₂ (by decide) h₁ h₁₂ h₂ h₂₁
  exact ⟨hvalue, hentries ⟨22⟩, hsnapshot ⟨25⟩ _ hvalue⟩

end Idl

end Metamodel