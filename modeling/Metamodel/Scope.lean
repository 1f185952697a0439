import Metamodel.Edit

/-!
# Metamodel.Scope -- namespaces and scoped names

A datatype may be enclosed by another one. The enclosing datatypes form a chain; nothing prevents it
from running in a circle, and following it for more steps than there are models shows that it does.
A scoped name joins the names on the chain, the outermost first.
-/

namespace Metamodel

namespace Repository

variable {κ : Type} {ts : TypeSystem κ}

/-- The model of a datatype; collections have no place in a namespace. -/
def scopedModel (r : Repository ts) (id : ObjectId) : Except Error ModelId :=
  match r.modelOf? id with
  | none => .error (.scope (.object id))
  | some m => if (r.kindOf? m).isSome then .ok m else .error (.scope (.unscoped (r.label id)))

/-- A model and those that enclose it, up to but without `stop`, in at most `steps` steps. -/
def enclosing (r : Repository ts) (stop : Option ModelId) :
    Nat → ModelId → Except Error (List ModelId)
  | steps, m =>
    match r.scopeOf? m with
    | none => .ok [m]
    | some outer =>
      if some outer = stop then .ok [m]
      else match steps with
        | 0 => .error (.scope (.cycle (r.nameOf m)))
        | steps + 1 => (enclosing r stop steps outer).map (m :: ·)

/-- The name of a datatype as seen from a namespace, or from outside of all. A namespace has no name
as seen from itself. -/
def scopedName (r : Repository ts) (id : ObjectId) (scope : Option ObjectId) :
    Except Error (Option String) := do
  let m ← r.scopedModel id
  let stop ← scope.mapM r.scopedModel
  if some m = stop then .ok none
  else do
    let chain ← r.enclosing stop r.models.size m
    .ok (some (scopeSeparator.intercalate (chain.reverse.map r.nameOf)))

/-- The template of the outermost datatype around another one. -/
def scopeRoot (r : Repository ts) (id : ObjectId) : Except Error ObjectId := do
  let m ← r.scopedModel id
  let chain ← r.enclosing none r.models.size m
  let root := chain.getLastD m
  match r.template? root with
  | some template => .ok template
  | none => .error (.scope (.unscoped (r.nameOf root)))

/-- The first datatype of a name that a namespace lists and that is enclosed by it. -/
def scopeLookup (r : Repository ts) (scope : ObjectId) (name : String) : Option ObjectId :=
  (r.modelOf? scope).bind fun outer =>
    (r.entriesOf outer).findSome? fun entry =>
      entry.target?.filter fun child =>
        (r.modelOf? child).any fun m => r.nameOf m == name && r.scopeOf? m == some outer

end Repository

namespace Step

variable {κ : Type} {ts : TypeSystem κ}

/-- Sets or clears the namespace that encloses a datatype. -/
def setScope (template : ObjectId) (scope : Option ObjectId) : Step ts Unit := do
  let m ← query (·.canonicalModel template)
  let outer ← query fun r => scope.mapM r.canonicalModel
  edit (·.putScope m outer)

/-- Puts a datatype into a namespace, which lists it once. -/
def addToScope (scope child : ObjectId) : Step ts Unit := do
  setScope child (some scope)
  let outer ← query (·.canonicalModel scope)
  edit (·.mapEntries outer fun entries =>
    if entries.contains (.type child) then entries else entries ++ [.type child])

end Step

end Metamodel
