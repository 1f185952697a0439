import Metamodel.Idl.Builtin
import Metamodel.Scope

/-!
# Metamodel.Idl.Declare -- one constructor for each kind of datatype

A constructor first checks the declaration against the repository, entry by entry, and then makes
the datatype and installs the declaration.
-/

namespace Metamodel.Idl

variable {limits : Limits}

/-- The role under which a union holds its discriminator. -/
def discriminatorRole : String := "_d"

/-! ## Checks -/

/-- The structure that a base comes to. -/
def structTarget (name : String) (base : ObjectId) (r : Repository (system limits)) :
    Except Error ObjectId := do
  let resolved ← r.resolve base
  if resolved.qualifiers = [] ∧ r.kind? resolved.target = some .struct then .ok resolved.target
  else .error (.declaration name (.baseKind (r.label base)))

/-- Checks a member, given the roles before it. -/
def checkMember (name : String) (roles : List String) (member : Member)
    (r : Repository (system limits)) : Except Error Unit := do
  if Role.isValid member.role then do
    let _ ← r.assertTemplateKind member.datatype
    r.assertQualifiers member.qualifiers
    if member.role ∈ roles then .error (.declaration name (.duplicateMember member.role))
    else .ok ()
  else .error (.roleName member.role)

/-- Checks the declaration of a structure, given its base and its roles so far. The answer is the
base and the entries to install. -/
def checkStruct (name : String) (r : Repository (system limits)) :
    Option ObjectId → List String → List Entry → Except Error (Option ObjectId × List Entry)
  | base, _, [] => .ok (base, [])
  | none, roles, .type b :: rest => do
    let target ← structTarget name b r
    checkStruct name r (some target) roles rest
  | some _, _, .type _ :: _ => .error (.declaration name .secondBase)
  | base, roles, .member m :: rest => do
    if m.labels = [] then do
      checkMember name roles m r
      let (base, body) ← checkStruct name r base (m.role :: roles) rest
      .ok (base, .member m :: body)
    else .error (.declaration name (.caseLabels m.role))
  | base, roles, .qualifier q :: rest => do
    r.assertQualifiers [q]
    let (base, body) ← checkStruct name r base roles rest
    .ok (base, .qualifier q :: body)
  | _, _, .value v _ :: _ => .error (.declaration name (.unexpectedValue v))

/-- Checks the discriminator of a union. -/
def checkDiscriminator (name : String) (discriminator : ObjectId)
    (r : Repository (system limits)) : Except Error Unit := do
  let resolved ← r.resolve discriminator
  let kind := r.kind? resolved.target
  if resolved.qualifiers = [] ∧ (kind = some .atom ∨ kind = some .enum) then .ok ()
  else .error (.declaration name .discriminator)

/-- Checks the cases of a union, given the default case and the roles so far. -/
def checkCases (name : String) (r : Repository (system limits)) :
    Option String → List String → List Entry → Except Error Unit
  | _, _, [] => .ok ()
  | fallback, roles, .member m :: rest => do
    if m.labels = [] then do
      match fallback with
      | some first => .error (.declaration name (.twoDefaults first m.role))
      | none => do
        checkMember name roles m r
        checkCases name r (some m.role) (m.role :: roles) rest
    else do
      checkMember name roles m r
      checkCases name r fallback (m.role :: roles) rest
  | fallback, roles, .qualifier q :: rest => do
    r.assertQualifiers [q]
    checkCases name r fallback roles rest
  | _, _, _ :: _ => .error (.declaration name .notMember)

/-- The ordinals of enumerators: as given, or one more than the one before. Each ordinal has to
leave room for the next one. -/
def ordinals (name : String) :
    Int64 → List String → List (String × Option Int64) → Except Error (List (String × Int64))
  | _, _, [] => .ok []
  | next, seen, (label, given) :: rest => do
    if Role.isValid label then
      if label ∈ seen then .error (.declaration name (.duplicateEnumerator label))
      else do
        let value := given.getD next
        if value = Int64.maxValue then .error (.declaration name (.ordinalOverflow label))
        else do
          let values ← ordinals name (value + 1) (label :: seen) rest
          .ok ((label, value) :: values)
    else .error (.roleName label)

/-! ## Constructors -/

/-- Makes a structure. A reference among the entries names its base. -/
def newStruct (name : String) (entries : List Entry) : Step (system limits) ObjectId := do
  let (base, body) ← Step.query (checkStruct name · none [] entries)
  let (template, _) ← Step.newTemplate name Kind.struct
  match base with
  | some _ => Step.setBase template base
  | none => pure ()
  Step.populateTemplate template body

/-- Makes a union. Its members carry case labels, except for one default case at most. -/
def newUnion (name : String) (discriminator : ObjectId) (entries : List Entry) :
    Step (system limits) ObjectId := do
  Step.query (checkDiscriminator name discriminator)
  Step.query (checkCases name · none [discriminatorRole] entries)
  let (template, m) ← Step.newTemplate name Kind.union
  Step.appendEntry template (.type discriminator)
  Step.updateInstances m discriminatorRole (some (.accessor discriminatorMarker))
  Step.populateTemplate template entries

/-- Makes an enumeration. -/
def newEnum (name : String) (enumerators : List (String × Option Int64)) :
    Step (system limits) ObjectId := do
  let values ← Step.query fun _ => ordinals name 0 [] enumerators
  if values = [] then Step.fail (.declaration name .noEnumerators)
  else do
    let (template, m) ← Step.newTemplate name Kind.enum
    Step.forEach values fun enumerator => do
      Step.appendEntry template (.value enumerator.1 (.int enumerator.2))
      Step.updateInstances m enumerator.1 (some (.scalar (.int enumerator.2)))
    pure template

/-- Makes an alias, which may add dimensions. -/
def newTypedef (name : String) (target : ObjectId) (qualifiers : List Qualifier) :
    Step (system limits) ObjectId := do
  let _ ← Step.query (·.assertTemplateKind target)
  Step.query (·.assertQualifiers qualifiers)
  let (template, _) ← Step.newTemplate name Kind.typedef
  Step.appendEntry template (.type target)
  Step.forEach qualifiers fun q => Step.appendEntry template (.qualifier q)
  pure template

/-- Puts a datatype into a module. -/
def addToModule (scope child : ObjectId) : Step (system limits) Unit := do
  let _ ← Step.query (·.assertKind Kind.module scope)
  Step.addToScope scope child

/-- Makes a module, inside of another one if that is given. -/
def newModule (name : String) (parent : Option ObjectId) : Step (system limits) ObjectId := do
  let _ ← Step.query fun r => parent.mapM (r.assertKind Kind.module)
  let (template, _) ← Step.newTemplate name Kind.module
  match parent with
  | some scope => Step.addToScope scope template
  | none => pure ()
  pure template

/-- Makes a constant of an atomic type. Integers serve as bounds of collections. -/
def newConstant (name : String) (datatype : ObjectId) (value : Scalar) :
    Step (system limits) ObjectId := do
  let resolved ← Step.query (·.resolve datatype)
  let kind ← Step.ask (·.kind? resolved.target)
  if resolved.qualifiers = [] ∧ kind = some .atom then do
    let (template, _) ← Step.newTemplate name Kind.const
    Step.appendEntry template (.type datatype)
    Step.appendEntry template (.value name value)
    pure template
  else Step.fail (.declaration name .constantType)

end Metamodel.Idl
