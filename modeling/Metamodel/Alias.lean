import Metamodel.Repository

/-!
# Metamodel.Alias -- what an alias stands for

An alias refers to another datatype; qualifiers after the reference may give it dimensions. Chains
of aliases are followed up to the limit of the type system. `resolve` unwraps a chain whole,
`seed` stops at the first alias with dimensions, since instances of it are collections.
-/

namespace Metamodel

/-- The qualifier of an entry that is one. -/
def Entry.qualifier? : Entry → Option Qualifier
  | .qualifier q => some q
  | _ => none

/-- The first reference of a declaration list, with the entries after it. -/
def Entry.splitTarget? : List Entry → Option (ObjectId × List Entry)
  | [] => none
  | .type target :: rest => some (target, rest)
  | _ :: rest => splitTarget? rest

/-- What a chain of aliases comes to. -/
structure Resolved where
  /-- The qualifiers with dimensions met on the way, the outermost alias first. -/
  qualifiers : List Qualifier
  /-- The first datatype that is no alias. -/
  target : ObjectId
deriving DecidableEq, Repr

/-- What instances of a template are made from. -/
inductive Seed where
  /-- A template that is no alias. -/
  | plain (template : ObjectId)
  /-- Nested collections of an element, with the dimensions of a qualifier. -/
  | nested (element : ObjectId) (qualifier : Qualifier)
deriving DecidableEq, Repr

namespace Repository

variable {κ : Type} {ts : TypeSystem κ}

/-- The target of an alias and the qualifiers with dimensions after it. -/
def aliasDefinition (r : Repository ts) (m : ModelId) :
    Except Error (ObjectId × List Qualifier) :=
  match Entry.splitTarget? (r.entriesOf m) with
  | some (target, rest) =>
    .ok (target, (rest.filterMap Entry.qualifier?).filter r.isCollectionQualifier)
  | none => .error (.declaration (r.nameOf m) .aliasWithoutTarget)

/-- Follows at most `depth` aliases from a template. -/
def resolveWithin (r : Repository ts) : Nat → ObjectId → Except Error Resolved
  | depth, id => do
    let m ← r.modelOf id
    if r.isAlias m then
      match depth with
      | 0 => .error (.aliasDepth ts.limits.aliasDepth)
      | depth + 1 => do
        let (target, qualifiers) ← r.aliasDefinition m
        let next ← r.assertTemplateKind target
        let rest ← resolveWithin r depth next
        .ok ⟨qualifiers ++ rest.qualifiers, rest.target⟩
    else .ok ⟨[], id⟩

/-- Unwraps a chain of aliases. -/
def resolve (r : Repository ts) (id : ObjectId) : Except Error Resolved := do
  let id ← r.assertTemplateKind id
  r.resolveWithin ts.limits.aliasDepth id

/-- Follows at most `depth` aliases from a template, up to the first with dimensions. -/
def seedWithin (r : Repository ts) : Nat → ObjectId → Except Error Seed
  | depth, id => do
    let m ← r.modelOf id
    if r.isAlias m then
      match depth with
      | 0 => .error (.aliasDepth ts.limits.aliasDepth)
      | depth + 1 => do
        let (target, qualifiers) ← r.aliasDefinition m
        match qualifiers with
        | q :: _ => .ok (.nested target q)
        | [] => do
          let next ← r.assertTemplateKind target
          seedWithin r depth next
    else .ok (.plain id)

/-- What instances of a template are made from. -/
def seed (r : Repository ts) (id : ObjectId) : Except Error Seed := do
  let id ← r.assertTemplateKind id
  r.seedWithin ts.limits.aliasDepth id

end Repository

end Metamodel
