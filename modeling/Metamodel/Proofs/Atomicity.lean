import Metamodel.Proofs.Consistent
import Metamodel.Proofs.Facade

/-!
# Metamodel.Proofs.Atomicity -- a failed operation leaves no trace

In every state of every run that changes datatypes through the facade only, overwrites elements by
leaves only, and releases nothing that another object holds, the repository is consistent. Main
statement: in such a state an operation that fails leaves the repository exactly as it was.
-/

namespace Metamodel

variable {κ : Type} {ts : TypeSystem κ} {α : Type}

/-- A failure of the step leaves the repository as it was. -/
def Step.LeavesNoTrace (x : Step ts α) (r : Repository ts) : Prop :=
  ∀ e, (x.run r).answer = .error e → (x.run r).repo = r

theorem Step.AllOrNothing.leavesNoTrace {x : Step ts α} {r : Repository ts}
    (h : AllOrNothing x r) : LeavesNoTrace x r :=
  fun _ he => h.repo_of_error he

namespace Repository

theorem consistent_empty : (empty ts).Consistent where
  acyclic := Metamodel.orderly_empty.acyclic
  coherent := by
    refine ⟨Metamodel.orderly_empty.bounded, tidy_empty, fun id m d f fT _ _ ho => ?_⟩
    simp at ho

end Repository

namespace Idl

open Step (AllOrNothing Keeps ensures_bind ensures_query ensures_ask)
open Repository (Consistent consistent_declarative)

variable {limits : Limits} {r : Repository (system limits)}

/-! ## The facade -/

theorem allOrNothing_defineMember (h : r.Consistent) (template : ObjectId) (member : Member) :
    AllOrNothing (defineMember template member) r := by
  refine defineMember_ensures (fun _ => ?_) fun _ =>
    Step.allOrNothing_defineMember h template member
  rfl

theorem allOrNothing_setBase (h : r.Consistent) (template : ObjectId) (base : Option ObjectId) :
    AllOrNothing (setBase template base) r := by
  have hstep : ∀ target, (∀ b, target = some b → r.kind? b = some Kind.struct) →
      AllOrNothing (Step.setBase template target) r := fun target hkind =>
    Step.allOrNothing_setBase h template fun b m hb hm => isAlias_of_struct (hkind b hb) hm
  refine Step.Ensures.imp (setBase_ensures (fun _ => ?_) fun target _ => hstep target) ?_
    fun _ _ h' => h'
  · rfl
  · rintro _ r' ⟨-, -, h'⟩
    exact h'

theorem consistent_editable : Editable (Consistent : Repository (system limits) → Prop) where
  toDeclarative := consistent_declarative
  leaf m role v hleaf := by
    refine ⟨fun r h => ?_⟩
    obtain ⟨h, d, hd⟩ := h
    refine (Step.updateInstances_consistent h hd role fun w hw => ?_).imp (fun _ _ h' => h')
      fun _ _ h' => h'.elim
    exact Option.some.inj hw ▸ hleaf.object?_eq_none
  member template member := AllOrNothing.keeps fun r h =>
    Step.allOrNothing_defineMember h template member
  base template base r h hbase := by
    refine (Step.allOrNothing_setBase h template fun b m hb hm => ?_).imp (fun _ _ h' => h')
      fun _ _ h' => h'.symm ▸ h
    exact isAlias_of_struct (hbase b hb) hm

/-! ## Runs -/

/-- The rule under which instances follow their templates: datatypes are changed through the facade
only, elements are overwritten by leaves, and nothing is released that an object holds. -/
def Operation.KeepsInstances (r : Repository (system limits)) : Operation → Prop
  | repository (.setElement _ _ value) => value.object? = none
  | repository (.releaseInstance id) => r.Unheld id
  | repository (.removeMember _ _) => True
  | repository (.newInstance _ _ _) => True
  | repository (.createRoleInstance _ _ _) => True
  | repository (.newCollection _ _ _ _) => True
  | repository (.element _ _) => True
  | repository _ => False
  | _ => True

theorem Operation.perform_consistent (h : r.Consistent) {operation : Operation}
    (hrule : operation.KeepsInstances r) : (operation.perform r).Consistent := by
  refine operation.perform_editable consistent_editable ?_ h
  rintro inner rfl
  cases inner with
  | removeMember template role =>
    exact (AllOrNothing.keeps fun r h => Step.allOrNothing_removeMember h template role).repo h
  | newInstance template under owned =>
    exact (AllOrNothing.keeps fun r h =>
      Step.allOrNothing_newInstance h template under owned).repo h
  | createRoleInstance datatype role qualifiers =>
    exact (AllOrNothing.keeps fun r h =>
      Step.allOrNothing_createRoleInstance h datatype role qualifiers).repo h
  | newCollection content bound name owned =>
    exact (AllOrNothing.keeps fun r h =>
      Step.allOrNothing_newCollection h content bound name owned).repo h
  | element id index =>
    exact (AllOrNothing.keeps fun r h => Step.allOrNothing_element h id index).repo h
  | setElement id index value => exact (Step.consistent_setElement id index hrule).repo h
  | releaseInstance id => exact (Step.consistent_releaseInstance h hrule).repo
  -- The rule allows no other operation of the repository.
  | _ => exact hrule.elim

theorem consistent_of_reached
    (h : Reached Operation.perform Operation.KeepsInstances (initial limits) r) : r.Consistent :=
  h.invariant (initial_of_empty consistent_declarative Repository.consistent_empty)
    fun _ _ hr hrule => Operation.perform_consistent hr hrule

/-- Whatever they are given, operations that make instances, collections and elements, and those
that edit a datatype, leave the repository exactly as it was if they fail. -/
theorem leavesNoTrace_of_reached
    (h : Reached Operation.perform Operation.KeepsInstances (initial limits) r) :
    (∀ template under owned, (Step.newInstance template under owned).LeavesNoTrace r) ∧
    (∀ datatype role qualifiers,
      (Step.createRoleInstance datatype role qualifiers).LeavesNoTrace r) ∧
    (∀ content bound name owned,
      (Step.newCollection content bound name owned).LeavesNoTrace r) ∧
    (∀ id index, (Step.element id index).LeavesNoTrace r) ∧
    (∀ template member, (defineMember template member).LeavesNoTrace r) ∧
    (∀ template base, (setBase template base).LeavesNoTrace r) ∧
    ∀ template role, (Step.removeMember template role).LeavesNoTrace r := by
  have hr := consistent_of_reached h
  refine ⟨?_, ?_, ?_, ?_, ?_, ?_, ?_⟩
  · intro template under owned
    exact (Step.allOrNothing_newInstance hr template under owned).leavesNoTrace
  · intro datatype role qualifiers
    exact (Step.allOrNothing_createRoleInstance hr datatype role qualifiers).leavesNoTrace
  · intro content bound name owned
    exact (Step.allOrNothing_newCollection hr content bound name owned).leavesNoTrace
  · intro id index
    exact (Step.allOrNothing_element hr id index).leavesNoTrace
  · intro template member
    exact (allOrNothing_defineMember hr template member).leavesNoTrace
  · intro template base
    exact (allOrNothing_setBase hr template base).leavesNoTrace
  · intro template role
    exact (Step.allOrNothing_removeMember hr template role).leavesNoTrace

/-- A point cannot get the line that starts in it, and is left without. -/
theorem leavesNoTrace_line :
    let r := Operation.run (initial ⟨4, 4⟩)
      [.newStruct "Point" [], .newStruct "Line" [.member ⟨"start", ⟨21⟩, [], []⟩]]
    ((defineMember ⟨21⟩ ⟨"line", ⟨22⟩, [], []⟩).run r).answer =
        .error (.declaration "Point" (.containsItself "line")) ∧
      ((defineMember ⟨21⟩ ⟨"line", ⟨22⟩, [], []⟩).run r).repo = r := by
  intro r
  have herror : ((defineMember ⟨21⟩ ⟨"line", ⟨22⟩, [], []⟩).run r).answer =
      .error (.declaration "Point" (.containsItself "line")) := by
    decide +kernel
  have hreached : Reached Operation.perform Operation.KeepsInstances (initial ⟨4, 4⟩) r := by
    simp only [r, Operation.run, List.foldl_cons, List.foldl_nil]
    exact .next (.next .start trivial) trivial
  -- The state itself is not needed any more, and is large.
  clear_value r
  obtain ⟨-, -, -, -, hmember, -⟩ := leavesNoTrace_of_reached hreached
  exact ⟨herror, hmember ⟨21⟩ ⟨"line", ⟨22⟩, [], []⟩ _ herror⟩

end Idl

end Metamodel
