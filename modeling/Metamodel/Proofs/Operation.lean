import Metamodel.Idl.Edit
import Metamodel.Release

/-!
# Metamodel.Proofs.Operation -- what a client can do, and the runs that it makes

The public operations of a repository and those of the facade for interface definitions, each as
data with the repository that it leaves behind. Identifiers are arbitrary, and an operation that
fails counts as done. A run is a list of operations; where a theorem is about runs that keep to some
rule, the rule is checked in the state in which an operation is done.
-/

namespace Metamodel

/-- The states that are reached from `start` when each operation is allowed where it is done. -/
inductive Reached {σ ο : Type} (perform : σ → ο → σ) (allowed : σ → ο → Prop) (start : σ) :
    σ → Prop where
  | start : Reached perform allowed start start
  | next {s : σ} {o : ο} : Reached perform allowed start s → allowed s o →
      Reached perform allowed start (perform s o)

/-- What holds at the start and is kept by every allowed operation holds in every state reached. -/
theorem Reached.invariant {σ ο : Type} {perform : σ → ο → σ} {allowed : σ → ο → Prop} {start s : σ}
    {P : σ → Prop} (h : Reached perform allowed start s) (hstart : P start)
    (hnext : ∀ s o, P s → allowed s o → P (perform s o)) : P s := by
  induction h with
  | start => exact hstart
  | next _ ho ih => exact hnext _ _ ih ho

theorem Reached.mono {σ ο : Type} {perform : σ → ο → σ} {allowed allowed' : σ → ο → Prop}
    {start s : σ} (h : Reached perform allowed start s)
    (hallowed : ∀ s o, allowed s o → allowed' s o) : Reached perform allowed' start s := by
  induction h with
  | start => exact .start
  | next _ ho ih => exact .next ih (hallowed _ _ ho)

/-- A run in which everything is allowed reaches what it makes. -/
theorem Reached.foldl {σ ο : Type} {perform : σ → ο → σ} {start s : σ}
    (h : Reached perform (fun _ _ => True) start s) (operations : List ο) :
    Reached perform (fun _ _ => True) start (operations.foldl perform s) := by
  induction operations generalizing s with
  | nil => exact h
  | cons operation rest ih => exact ih (.next h trivial)

/-! ## Operations of a repository -/

/-- An operation of a repository. -/
inductive Operation (κ : Type) where
  | newTemplate (name : String) (kind : κ)
  | populateTemplate (template : ObjectId) (entries : List Entry)
  | appendEntry (template : ObjectId) (entry : Entry)
  | defineMember (template : ObjectId) (member : Member)
  | removeMember (template : ObjectId) (role : String)
  | setBase (template : ObjectId) (base : Option ObjectId)
  | setQualifiers (template : ObjectId) (qualifiers : List Qualifier)
  | setScope (template : ObjectId) (scope : Option ObjectId)
  | addToScope (scope child : ObjectId)
  | newInstance (template : ObjectId) (under : String) (owned : Bool)
  | createRoleInstance (datatype : ObjectId) (role : String) (qualifiers : List Qualifier)
  | cloneValue (value : Value) (under : String) (owned : Bool)
  | updateInstances (model : ModelId) (role : String) (value : Option Value)
  | newCollection (content : ObjectId) (bound : Bound) (name : String) (owned : Bool)
  | copyCollection (source : ObjectId) (under : String) (owned : Bool)
  | element (id : ObjectId) (index : Nat)
  | setElement (id : ObjectId) (index : Nat) (value : Value)
  | releaseInstance (id : ObjectId)

namespace Operation

variable {κ : Type} {ts : TypeSystem κ}

/-- The repository that an operation leaves, whether it answers or fails. -/
def perform (r : Repository ts) : Operation κ → Repository ts
  | newTemplate name kind => ((Step.newTemplate name kind).run r).repo
  | populateTemplate template entries => ((Step.populateTemplate template entries).run r).repo
  | appendEntry template entry => ((Step.appendEntry template entry).run r).repo
  | defineMember template member => ((Step.defineMember template member).run r).repo
  | removeMember template role => ((Step.removeMember template role).run r).repo
  | setBase template base => ((Step.setBase template base).run r).repo
  | setQualifiers template qualifiers => ((Step.setQualifiers template qualifiers).run r).repo
  | setScope template scope => ((Step.setScope template scope).run r).repo
  | addToScope scope child => ((Step.addToScope scope child).run r).repo
  | newInstance template under owned => ((Step.newInstance template under owned).run r).repo
  | createRoleInstance datatype role qualifiers =>
    ((Step.createRoleInstance datatype role qualifiers).run r).repo
  | cloneValue value under owned => ((Step.cloneValue value under owned).run r).repo
  | updateInstances m role value => ((Step.updateInstances m role value).run r).repo
  | newCollection content bound name owned =>
    ((Step.newCollection content bound name owned).run r).repo
  | copyCollection source under owned => ((Step.copyCollection source under owned).run r).repo
  | element id index => ((Step.element id index).run r).repo
  | setElement id index value => ((Step.setElement id index value).run r).repo
  | releaseInstance id => ((Step.releaseInstance id).run r).repo

/-- The repository after a run. -/
def run (r : Repository ts) (operations : List (Operation κ)) : Repository ts :=
  operations.foldl perform r

/-- The rule under which datatypes do not come to contain themselves: members are changed through
their declarations only, and no base is an alias. -/
def KeepsBases (r : Repository ts) : Operation κ → Prop
  | updateInstances _ _ _ => False
  | setBase _ (some base) => ∀ m, r.modelOf? base = some m → r.isAlias m = false
  | _ => True

end Operation

/-! ## Operations of the facade -/

namespace Idl

/-- An operation of a repository of interface definitions: one of any repository, a constructor, or
an edit. -/
inductive Operation where
  | repository (operation : Metamodel.Operation Kind)
  | newTag (name : String)
  | newStruct (name : String) (entries : List Entry)
  | newUnion (name : String) (discriminator : ObjectId) (entries : List Entry)
  | newEnum (name : String) (enumerators : List (String × Option Int64))
  | newTypedef (name : String) (target : ObjectId) (qualifiers : List Qualifier)
  | newModule (name : String) (parent : Option ObjectId)
  | addToModule (scope child : ObjectId)
  | newConstant (name : String) (datatype : ObjectId) (value : Scalar)
  | defineMember (template : ObjectId) (member : Member)
  | setBase (template : ObjectId) (base : Option ObjectId)

namespace Operation

variable {limits : Limits}

/-- The repository that an operation leaves, whether it answers or fails. -/
def perform (r : Repository (system limits)) : Operation → Repository (system limits)
  | repository operation => operation.perform r
  | newTag name => ((Idl.newAnnotation name).run r).repo
  | newStruct name entries => ((Idl.newStruct name entries).run r).repo
  | newUnion name discriminator entries => ((Idl.newUnion name discriminator entries).run r).repo
  | newEnum name enumerators => ((Idl.newEnum name enumerators).run r).repo
  | newTypedef name target qualifiers => ((Idl.newTypedef name target qualifiers).run r).repo
  | newModule name parent => ((Idl.newModule name parent).run r).repo
  | addToModule scope child => ((Idl.addToModule scope child).run r).repo
  | newConstant name datatype value => ((Idl.newConstant name datatype value).run r).repo
  | defineMember template member => ((Idl.defineMember template member).run r).repo
  | setBase template base => ((Idl.setBase template base).run r).repo

/-- The repository after a run. -/
def run (r : Repository (system limits)) (operations : List Operation) :
    Repository (system limits) :=
  operations.foldl perform r

end Operation

end Idl

end Metamodel
