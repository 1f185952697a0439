import Metamodel.Instance

/-!
# Metamodel.Propagation -- one edit for all instances

A field of a canonical template is installed in the template itself and, as a copy under the path of
each, in every live instance that is registered with its model.
-/

namespace Metamodel.Step

variable {κ : Type} {ts : TypeSystem κ}

/-- Writes or removes a field of a live composite. -/
def setField (id : ObjectId) (role : String) (value : Option Value) : Step ts Unit := do
  let object ← query (·.object id)
  match object with
  | .composite .. => edit (·.writeField id role value)
  | .collection .. => fail (.template (.object id))

/-- Installs a field in the live ones of some instances and counts them. -/
def propagate (role : String) (value : Option Value) : List (ObjectId × String) → Step ts Nat
  | [] => pure 0
  | target :: rest => do
    let isLive ← ask (·.isLive target.1)
    if isLive then do
      let copy ← match value with
        | some v => some <$> cloneValue v target.2 true
        | none => pure none
      setField target.1 role copy
      let count ← propagate role value rest
      pure (count + 1)
    else propagate role value rest

/-- The instances of a model besides its template. -/
def otherInstances {κ : Type} (model : Model κ) (template : ObjectId) : List (ObjectId × String) :=
  (model.registry?.elim [] (·.entries)).filter fun entry => decide (entry.1 ≠ template)

/-- Installs a field in the template of a model and in its instances, or removes it everywhere. -/
def updateInstances (m : ModelId) (role : String) (value : Option Value) : Step ts Unit := do
  let model ← query (·.model m)
  match model.template? with
  | none => fail (.template (.noTemplate m))
  | some template => do
    setField template role value
    let count ← propagate role value (otherInstances model template)
    note fun r => .propagated (r.nameOf m) role count

end Metamodel.Step
