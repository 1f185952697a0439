import Metamodel.Idl.Declare

/-!
# Metamodel.Idl.Edit -- members and bases of declared datatypes

Only structures and unions have members, and only structures have a base. Bases form no circle.
-/

namespace Metamodel.Idl

variable {limits : Limits}

/-- The declared base of a structure. -/
def baseOf (template : ObjectId) (r : Repository (system limits)) : Option ObjectId :=
  if r.kind? template = some .struct then
    (r.modelOf? template).bind fun m => Entry.base? (r.entriesOf m)
  else none

/-- Whether the bases from `current` on come to `template`, or do not end within some steps. -/
def returnsTo (template : ObjectId) (r : Repository (system limits)) :
    Nat → Option ObjectId → Bool
  | _, none => false
  | 0, some _ => true
  | steps + 1, some current =>
    current == template || returnsTo template r steps (baseOf current r)

/-- Declares a member of a structure or a union. -/
def defineMember (template : ObjectId) (member : Member) : Step (system limits) Unit := do
  let name ← Step.ask (·.label template)
  let kind ← Step.ask (·.kind? template)
  match kind with
  | some .struct =>
    if member.labels = [] then Step.defineMember template member
    else Step.fail (.declaration name (.caseLabels member.role))
  | some .union =>
    if member.role = discriminatorRole then Step.fail (.roleName member.role)
    else Step.defineMember template member
  | _ => Step.fail (.declaration name .withoutMembers)

/-- Replaces or clears the base of a structure. -/
def setBase (template : ObjectId) (base : Option ObjectId) : Step (system limits) Unit := do
  let _ ← Step.query (·.assertKind Kind.struct template)
  let name ← Step.ask (·.label template)
  let target ← Step.query fun r => base.mapM (structTarget name · r)
  let cyclic ← Step.ask fun r => returnsTo template r r.models.size target
  if cyclic then Step.fail (.declaration name .cyclicBase)
  else Step.setBase template target

end Metamodel.Idl
