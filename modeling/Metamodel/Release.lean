import Metamodel.Step

/-!
# Metamodel.Release -- giving up an instance and what it owns

Releasing an object frees it together with all that it holds through fields and elements, except
datatype templates that have been written into a collection. Objects may hold each other in circles.
The canonical template of a model cannot be released.
-/

namespace Metamodel

namespace Repository

variable {κ : Type} {ts : TypeSystem κ}

/-- Whether a release of `root` passes an object by: it is gone already, or it is a template. -/
def isSpared (r : Repository ts) (root id : ObjectId) : Bool :=
  !r.isLive id || (id != root && r.isTemplate id)

/-- The objects that go with `root`, the last one found first. Each round finds one, so that one
round more than there are objects is enough. -/
def ownedFrom (r : Repository ts) (root : ObjectId) :
    Nat → List ObjectId → List ObjectId → List ObjectId
  | 0, found, _ => found
  | rounds + 1, found, stack =>
    match stack.dropWhile fun id => found.contains id || r.isSpared root id with
    | [] => found
    | id :: rest =>
      ownedFrom r root rounds (id :: found) (((r.object? id).elim [] Object.held) ++ rest)

/-- The objects that are freed when `root` is released. -/
def owned (r : Repository ts) (root : ObjectId) : List ObjectId :=
  r.ownedFrom root (r.objects.size + 1) [] [root]

/-- Frees an object and removes it from the registry of its model. -/
def free (r : Repository ts) (id : ObjectId) : Repository ts :=
  match r.object? id with
  | some o => (r.unregister o.model id).dropObject id
  | none => r

/-- Frees objects. -/
def freeAll (r : Repository ts) (ids : List ObjectId) : Repository ts :=
  ids.foldl free r

end Repository

namespace Step

variable {κ : Type} {ts : TypeSystem κ}

/-- Releases an instance and counts the objects freed. -/
def releaseInstance (id : ObjectId) : Step ts Nat := do
  let m ← query (·.modelOf id)
  let template ← ask (·.template? m)
  if template = some id then do
    let label ← ask (·.label id)
    fail (.scope (.canonical label))
  else do
    let ids ← ask (·.owned id)
    edit (·.freeAll ids)
    note fun _ => .released id ids.length
    pure ids.length

end Step

end Metamodel
