import Metamodel.Idl.Edit
import Metamodel.Proofs.Invariant

/-!
# Metamodel.Proofs.Facade -- constructors and edits of interface definitions

The constructors and edits of the facade come down to five operations of a repository. A property
that these keep is `Editable`, and is kept by all of the facade. What the facade checks beforehand
matters in one place: a base is always a structure, never an alias of one.
-/

namespace Metamodel.Idl

open Step
open Repository (Declarative)

variable {limits : Limits} {P : Repository (system limits) → Prop}

/-- The leaves that constructors write: the discriminator of a union, and the value of an enumerator
under its name. -/
inductive Leaf : String → Value → Prop where
  | discriminator : Leaf discriminatorRole (.accessor discriminatorMarker)
  | enumerator (name : String) (scalar : Scalar) : Leaf name (.scalar scalar)

theorem Leaf.object?_eq_none {role : String} {v : Value} (h : Leaf role v) : v.object? = none := by
  cases h <;> rfl

/-- A property that is kept by changes of declarations, members and bases, and by leaves that are
written into a datatype. -/
structure Editable (P : Repository (system limits) → Prop) : Prop extends Declarative P where
  leaf : ∀ m {role v}, Leaf role v →
    Keeps (fun r => P r ∧ ∃ d, r.model? m = some (.datatype d)) (updateInstances m role (some v))
  member : ∀ template member, Keeps P (Step.defineMember template member)
  base : ∀ template base r, P r → (∀ b, base = some b → r.kind? b = some Kind.struct) →
    (Step.setBase template base).Ensures r (fun _ => P) fun _ => P

/-! ## Bases are structures -/

theorem structTarget_kind {name : String} {base target : ObjectId} {r : Repository (system limits)}
    (h : structTarget name base r = .ok target) : r.kind? target = some Kind.struct := by
  obtain ⟨resolved, -, h⟩ := bind_eq_ok_iff.mp h
  split at h
  · next hstruct =>
    obtain rfl := Except.ok.inj h
    exact hstruct.2
  · simp at h

/-- A base of structures is a structure, never an alias. -/
theorem isAlias_of_struct {r : Repository (system limits)} {b : ObjectId} {m : ModelId}
    (hb : r.kind? b = some Kind.struct) (hm : r.modelOf? b = some m) : r.isAlias m = false := by
  have hkind : r.kindOf? m = some Kind.struct := by simpa [Repository.kind?, hm] using hb
  rw [Repository.isAlias, hkind]
  rfl

theorem checkStruct_base {name : String} {r : Repository (system limits)}
    {entries body : List Entry} {given base : Option ObjectId} {roles : List String}
    (hgiven : ∀ b, given = some b → r.kind? b = some Kind.struct)
    (h : checkStruct name r given roles entries = .ok (base, body)) :
    ∀ b, base = some b → r.kind? b = some Kind.struct := by
  induction entries generalizing given roles body with
  | nil =>
    simp only [checkStruct, Except.ok.injEq, Prod.mk.injEq] at h
    exact h.1 ▸ hgiven
  | cons entry rest ih =>
    cases entry with
    | type b =>
      cases given with
      | some _ => simp [checkStruct] at h
      | none =>
        -- The one place where a base comes in, and it has been checked.
        rw [checkStruct] at h
        obtain ⟨target, htarget, h⟩ := bind_eq_ok_iff.mp h
        refine ih (fun b hb => ?_) h
        obtain rfl := Option.some.inj hb
        exact structTarget_kind htarget
    | member m =>
      rw [checkStruct] at h
      split at h
      · obtain ⟨_, -, h⟩ := bind_eq_ok_iff.mp h
        obtain ⟨⟨base', body'⟩, hrest, h⟩ := bind_eq_ok_iff.mp h
        obtain ⟨rfl, -⟩ := Prod.mk.inj (Except.ok.inj h)
        exact ih hgiven hrest
      · simp at h
    | qualifier q =>
      rw [checkStruct] at h
      obtain ⟨_, -, h⟩ := bind_eq_ok_iff.mp h
      obtain ⟨⟨base', body'⟩, hrest, h⟩ := bind_eq_ok_iff.mp h
      obtain ⟨rfl, -⟩ := Prod.mk.inj (Except.ok.inj h)
      exact ih hgiven hrest
    | value v scalar => simp [checkStruct] at h

/-! ## Edits -/

section Edits

variable {r : Repository (system limits)} {fails : Error → Repository (system limits) → Prop}

/-- What is left to show for a member: what its definition does, where that is not refused. -/
theorem defineMember_ensures (hrefused : ∀ e, fails e r) {template : ObjectId} {member : Member}
    (hstep : r.kind? template = some .struct ∨
      r.kind? template = some .union ∧ member.role ≠ discriminatorRole →
        (Step.defineMember template member).Ensures r (fun _ => P) fails) :
    (defineMember template member).Ensures r (fun _ => P) fails := by
  simp only [defineMember, ensures_bind, ensures_ask]
  split
  · next hkind =>
    split
    · exact hstep (Or.inl hkind)
    · exact hrefused _
  · next hkind =>
    split
    · exact hrefused _
    · next hrole => exact hstep (Or.inr ⟨hkind, hrole⟩)
  · exact hrefused _

/-- What is left to show for a change of the base: what the change to a structure, or to none, does.
-/
theorem setBase_ensures (hrefused : ∀ e, fails e r) {template : ObjectId} {base : Option ObjectId}
    {P : Option ObjectId → Repository (system limits) → Prop}
    (hstep : ∀ target, r.kind? template = some Kind.struct →
      (∀ b, target = some b → r.kind? b = some Kind.struct) →
      (Step.setBase template target).Ensures r (fun _ => P target) fails) :
    (setBase template base).Ensures r
      (fun _ r' => ∃ target, base.mapM (structTarget (r.label template) · r) = .ok target ∧
        P target r') fails := by
  simp only [setBase, ensures_bind, ensures_query, ensures_ask]
  refine ⟨fun _ hid => ⟨fun target htarget => ?_, fun e _ => hrefused e⟩, fun e _ => hrefused e⟩
  split
  · exact hrefused _
  · refine (hstep target (Repository.kind?_of_assertKind hid) fun b hb => ?_).imp
      (fun _ _ h' => ⟨target, htarget, h'⟩) fun _ _ h' => h'
    subst hb
    obtain ⟨a, -, ha⟩ := mapM_eq_ok_some htarget
    exact structTarget_kind ha

end Edits

/-! ## Constructors -/

variable (hP : Editable P)

include hP

theorem keeps_newTag (name : String) : Keeps P (Idl.newAnnotation name) :=
  (keeps_newTemplate hP.toDeclarative name Kind.tag).bind fun made => keeps_pure made.1

theorem keeps_newStruct (name : String) (entries : List Entry) :
    Keeps P (newStruct name entries) := by
  refine ⟨fun r h => ?_⟩
  simp only [newStruct, ensures_bind, ensures_query]
  refine ⟨fun checked hchecked => ?_, fun _ _ => h⟩
  obtain ⟨base, body⟩ := checked
  have hpopulate : ∀ template, Keeps P (Step.populateTemplate template body) := fun template =>
    keeps_populateTemplate hP.toDeclarative template body (hP.member template)
  simp only [newTemplate, ensures_bind, ensures_ask, ensures_edit, ensures_note, ensures_pure]
  have hadded := hP.addTemplate name Kind.struct h
  cases base with
  | none => exact (hpopulate _).ensures _ hadded
  | some b =>
    -- The check was made before the template was added.
    have hkind := checkStruct_base (by simp) hchecked
    refine (ensures_bind ..).mpr ((hP.base _ (some b) _ hadded ?_).imp ?_ fun _ _ h => h)
    · exact fun b' hb' => Repository.kind?_addTemplate (hkind b' hb')
    · exact fun _ r' h' => (hpopulate _).ensures r' h'

theorem keeps_newUnion (name : String) (discriminator : ObjectId) (entries : List Entry) :
    Keeps P (newUnion name discriminator entries) := by
  refine (keeps_query _).bind fun _ => (keeps_query _).bind fun _ => ⟨fun r h => ?_⟩
  rw [ensures_bind]
  refine (newTemplate_ensures hP.toDeclarative h name Kind.union).imp ?_ fun _ _ h => h.elim
  intro made r₁ h₁
  -- The leaf needs the model to be a datatype, which appending an entry does not change.
  have hdatatype := hP.toDeclarative.and_datatype made.2
  rw [ensures_bind]
  refine ((keeps_appendEntry_of_not_member hdatatype made.1 rfl).ensures r₁ h₁).imp ?_
    fun _ _ h => h.1
  intro _ r₂ h₂
  rw [ensures_bind]
  refine ((hP.leaf made.2 .discriminator).ensures r₂ h₂).imp ?_ fun _ _ h => h.1
  intro _ r₃ h₃
  exact (keeps_populateTemplate hP.toDeclarative made.1 entries (hP.member made.1)).ensures r₃ h₃.1

theorem keeps_newEnum (name : String) (enumerators : List (String × Option Int64)) :
    Keeps P (newEnum name enumerators) := by
  refine (keeps_query _).bind fun values => ?_
  split
  · exact keeps_fail _
  · refine ⟨fun r h => ?_⟩
    rw [ensures_bind]
    refine (newTemplate_ensures hP.toDeclarative h name Kind.enum).imp ?_ fun _ _ h => h.elim
    intro made r₁ h₁
    have hdatatype := hP.toDeclarative.and_datatype made.2
    have hvalues := keeps_forEach values fun enumerator _ =>
      (keeps_appendEntry_of_not_member hdatatype made.1
        (show (Entry.value enumerator.1 (.int enumerator.2)).member? = none from rfl)).bind fun _ =>
          hP.leaf made.2 (.enumerator enumerator.1 (.int enumerator.2))
    rw [ensures_bind]
    exact (hvalues.ensures r₁ h₁).imp (fun _ _ h => h.1) fun _ _ h => h.1

theorem keeps_newTypedef (name : String) (target : ObjectId) (qualifiers : List Qualifier) :
    Keeps P (newTypedef name target qualifiers) := by
  refine (keeps_query _).bind fun _ => (keeps_query _).bind fun _ => ?_
  refine (keeps_newTemplate hP.toDeclarative name Kind.typedef).bind fun made => ?_
  refine (keeps_appendEntry_of_not_member hP.toDeclarative made.1 rfl).bind fun _ => ?_
  refine (keeps_forEach qualifiers fun q _ => ?_).bind fun _ => keeps_pure made.1
  exact keeps_appendEntry_of_not_member hP.toDeclarative made.1 rfl

theorem keeps_addToModule (scope child : ObjectId) : Keeps P (addToModule scope child) :=
  (keeps_query _).bind fun _ => keeps_addToScope hP.toDeclarative scope child

theorem keeps_newModule (name : String) (parent : Option ObjectId) :
    Keeps P (newModule name parent) := by
  refine (keeps_query _).bind fun _ => ?_
  refine (keeps_newTemplate hP.toDeclarative name Kind.module).bind fun made => ?_
  cases parent with
  | none => exact keeps_pure made.1
  | some scope =>
    exact (keeps_addToScope hP.toDeclarative scope made.1).bind fun _ => keeps_pure made.1

theorem keeps_newConstant (name : String) (datatype : ObjectId) (value : Scalar) :
    Keeps P (newConstant name datatype value) := by
  refine (keeps_query _).bind fun resolved => (keeps_ask _).bind fun kind => ?_
  split
  · refine (keeps_newTemplate hP.toDeclarative name Kind.const).bind fun made => ?_
    refine (keeps_appendEntry_of_not_member hP.toDeclarative made.1 rfl).bind fun _ => ?_
    refine (keeps_appendEntry_of_not_member hP.toDeclarative made.1 rfl).bind fun _ => ?_
    exact keeps_pure made.1
  · exact keeps_fail _

theorem keeps_defineMember (template : ObjectId) (member : Member) :
    Keeps P (defineMember template member) :=
  ⟨fun r h => defineMember_ensures (fun _ => h) fun _ => (hP.member template member).ensures r h⟩

theorem keeps_setBase (template : ObjectId) (base : Option ObjectId) :
    Keeps P (setBase template base) := by
  refine ⟨fun r h => ?_⟩
  refine (setBase_ensures (fun _ => h) fun target _ => hP.base template target r h).imp ?_
    fun _ _ h' => h'
  rintro _ r' ⟨-, -, h'⟩
  exact h'

/-! ## Operations -/

/-- An operation of the facade keeps an editable property if operations of the repository do. -/
theorem Operation.perform_editable {r : Repository (system limits)} {operation : Operation}
    (hrepository : ∀ inner, operation = .repository inner → P (inner.perform r)) (h : P r) :
    P (operation.perform r) := by
  cases operation with
  | repository inner => exact hrepository inner rfl
  | newTag name => exact (keeps_newTag hP name).repo h
  | newStruct name entries => exact (keeps_newStruct hP name entries).repo h
  | newUnion name discriminator entries =>
    exact (keeps_newUnion hP name discriminator entries).repo h
  | newEnum name enumerators => exact (keeps_newEnum hP name enumerators).repo h
  | newTypedef name target qualifiers => exact (keeps_newTypedef hP name target qualifiers).repo h
  | newModule name parent => exact (keeps_newModule hP name parent).repo h
  | addToModule scope child => exact (keeps_addToModule hP scope child).repo h
  | newConstant name datatype value => exact (keeps_newConstant hP name datatype value).repo h
  | defineMember template member => exact (keeps_defineMember hP template member).repo h
  | setBase template base => exact (keeps_setBase hP template base).repo h

/-! ## The first repository -/

omit hP in
/-- What is true of the empty repository and stays so when an atom or an annotation is added is true
of the repository with all of them. -/
theorem initial_of_addTemplate
    (hadd : ∀ {r : Repository (system limits)} name {kind}, kind ∈ [Kind.atom, .tag, .collection] →
      P r → P (r.addTemplate name kind))
    (h : P (Repository.empty (system limits))) : P (initial limits) := by
  have hsetUp : Keeps P setUp := by
    unfold setUp
    refine (keeps_forEach _ fun a _ => ?_).bind fun _ =>
      (keeps_forEach _ fun b _ => ?_).bind fun _ => keeps_note _
    · exact (keeps_newTemplate_of (hadd a.name (by simp))).bind fun _ => keeps_pure ()
    · have hb : b.kind ∈ [Kind.atom, .tag, .collection] := by cases b <;> decide
      exact (keeps_newTemplate_of (hadd b.name hb)).bind fun _ => keeps_pure ()
  exact hsetUp.repo h

omit hP in
theorem initial_of_empty (hP : Declarative P) (h : P (Repository.empty (system limits))) :
    P (initial limits) :=
  initial_of_addTemplate (fun {_} name {kind} _ h => hP.addTemplate name kind h) h

omit hP in
/-- Atoms and annotations declare nothing. -/
theorem entriesOf_initial (m : ModelId) : (initial limits).entriesOf m = [] := by
  refine initial_of_addTemplate (P := fun r => ∀ m, r.entriesOf m = [])
    (fun {r} name {kind} _ h m => ?_) (fun m => by simp [Repository.entriesOf]) m
  rw [Repository.entriesOf_addTemplate, h m, ite_self]

end Metamodel.Idl
