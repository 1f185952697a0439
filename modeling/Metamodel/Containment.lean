import Metamodel.Alias

/-!
# Metamodel.Containment -- which datatypes hold which

A datatype directly holds another one when a field of its canonical template is a composite of the
other. Collections do not count: their elements are made one by one. A datatype may not come to hold
itself, so before a member is declared the datatypes reachable from it are searched.
-/

namespace Metamodel.Repository

variable {κ : Type} {ts : TypeSystem κ}

/-- The models of the composites in the fields of a template, in the order of the fields. -/
def heldModels (r : Repository ts) (m : ModelId) : Except Error (List ModelId) :=
  match (r.template? m).bind r.fields? with
  | some fields => (fields.values.filterMap Value.composite?).mapM r.modelOf
  | none => .ok []

/-- Searches for a model from those on the stack, depth first and the last field first. Each round
adds a model to those seen, so that one round more than there are models is enough. -/
def search (r : Repository ts) (goal : ModelId) :
    Nat → List ModelId → List ModelId → Except Error Bool
  | 0, _, _ => .ok false
  | rounds + 1, seen, stack =>
    match stack.dropWhile seen.contains with
    | [] => .ok false
    | m :: rest =>
      if m = goal then .ok true
      else do
        let held ← r.heldModels m
        -- The model of the last field comes to the top.
        search r goal rounds (m :: seen) (held.reverse ++ rest)

/-- Whether an instance of a datatype would hold one of a model outside of collections. -/
def reachesModel (r : Repository ts) (datatype : ObjectId) (goal : ModelId) :
    Except Error Bool := do
  let resolved ← r.resolve datatype
  if resolved.qualifiers = [] then do
    let start ← r.modelOf resolved.target
    r.search goal (r.models.size + 1) [] [start]
  else .ok false

end Metamodel.Repository
