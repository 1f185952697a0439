import Metamodel.Containment
import Metamodel.Propagation

/-!
# Metamodel.Edit -- making datatypes and changing their declarations

A datatype is made together with its canonical template, and only through that template can its
declaration be changed. A change of a member or of the base is pushed at once to the template and to
every registered instance.
-/

namespace Metamodel

namespace Repository

variable {κ : Type} {ts : TypeSystem κ}

/-- Adds a datatype with an empty declaration and its canonical template. -/
def addTemplate (r : Repository ts) (name : String) (kind : κ) : Repository ts :=
  let registry := if ts.isAlias kind then none else some (Table.empty.insert r.nextObject "")
  (r.addModel (.datatype ⟨kind, name, none, [], [], registry, r.nextObject⟩)).addObject
    (.composite r.nextModel Table.empty)

/-- Replaces the declaration list of a datatype. -/
def mapEntries (r : Repository ts) (m : ModelId) (f : List Entry → List Entry) : Repository ts :=
  r.mapDatatype m fun d => { d with entries := f d.entries }

/-- Replaces the qualifiers of a datatype. -/
def putQualifiers (r : Repository ts) (m : ModelId) (qualifiers : List Qualifier) :
    Repository ts :=
  r.mapDatatype m fun d => { d with qualifiers := qualifiers }

/-- Replaces the enclosing namespace of a datatype. -/
def putScope (r : Repository ts) (m : ModelId) (scope : Option ModelId) : Repository ts :=
  r.mapDatatype m fun d => { d with scope := scope }

/-- The roles that a base contributes: those of the template of its model. A base that has been
released contributes none. -/
def inheritedRoles (r : Repository ts) (base : ObjectId) : Except Error (List String) :=
  match (r.modelOf? base).bind r.template? with
  | some seed => (r.fields seed).map Table.keys
  | none => .ok []

end Repository

namespace Step

variable {κ : Type} {ts : TypeSystem κ}

/-- Makes a datatype of a kind and its canonical template. -/
def newTemplate (name : String) (kind : κ) : Step ts (ObjectId × ModelId) := do
  let template ← ask (·.nextObject)
  let m ← ask (·.nextModel)
  edit (·.addTemplate name kind)
  note fun _ => .templateMade name (ts.kindName kind) m
  pure (template, m)

/-! ## Members -/

/-- Refuses a member that would make instances of the model hold one of their own. -/
def checkContainment (m : ModelId) (member : Member) : Step ts Unit := do
  let wrapped ← ask fun r => member.qualifiers.any r.isCollectionQualifier
  if wrapped then pure ()
  else do
    let reaches ← query (·.reachesModel member.datatype m)
    if reaches then do
      let name ← ask (·.nameOf m)
      fail (.declaration name (.containsItself member.role))
    else pure ()

/-- Declares a member, in the place of one with the same role, and installs it everywhere. -/
def defineMember (template : ObjectId) (member : Member) : Step ts Unit := do
  let m ← query (·.canonicalModel template)
  if Role.isValid member.role then do
    query (·.assertQualifiers member.qualifiers)
    checkContainment m member
    let value ← createRoleInstance member.datatype member.role member.qualifiers
    -- Whatever can be refused has been refused by now.
    edit (·.mapEntries m (Entry.define member))
    note fun r => .memberDefined (r.nameOf m) member.role
    updateInstances m member.role (some value)
  else fail (.roleName member.role)

/-- Removes a member everywhere, and says whether there was one. -/
def removeMember (template : ObjectId) (role : String) : Step ts Bool := do
  let m ← query (·.canonicalModel template)
  let declared ← ask fun r => (r.entriesOf m).any (Entry.declares role)
  if declared then do
    edit (·.mapEntries m (Entry.remove role))
    note fun r => .memberRemoved (r.nameOf m) role
    updateInstances m role none
    pure true
  else pure false

/-! ## Declaration lists -/

/-- Refuses an entry that names no qualifier or no object where it should. -/
def checkEntry (entry : Entry) : Step ts Unit :=
  match entry with
  | .qualifier q => query (·.assertQualifiers [q])
  | .type target => do
    let _ ← query (·.modelOf target)
    pure ()
  | _ => pure ()

/-- Appends an entry to a declaration. Members are declared and installed. -/
def appendEntry (template : ObjectId) (entry : Entry) : Step ts Unit := do
  let m ← query (·.canonicalModel template)
  match entry with
  | .member member => defineMember template member
  | _ => do
    checkEntry entry
    edit (·.mapEntries m (· ++ [entry]))

/-- Appends entries to a declaration, and collects the qualifiers among them. -/
def appendAll (template : ObjectId) : List Entry → Step ts (List Qualifier)
  | [] => pure []
  | entry :: rest => do
    let kept ← ask fun r => entry.qualifier?.filter r.isQualifier
    match kept with
    | some q => do
      let qs ← appendAll template rest
      pure (q :: qs)
    | none => do
      appendEntry template entry
      appendAll template rest

/-- Installs a declaration list: qualifiers become those of the datatype, other entries are
appended. -/
def populateTemplate (template : ObjectId) (entries : List Entry) : Step ts ObjectId := do
  let m ← query (·.canonicalModel template)
  let qualifiers ← appendAll template entries
  edit (·.putQualifiers m qualifiers)
  pure template

/-- Replaces the qualifiers of a datatype. -/
def setQualifiers (template : ObjectId) (qualifiers : List Qualifier) : Step ts Unit := do
  let m ← query (·.canonicalModel template)
  query (·.assertQualifiers qualifiers)
  edit (·.putQualifiers m qualifiers)

/-! ## The base -/

/-- Removes the fields with some roles everywhere, unless the datatype declares them itself. -/
def dropInherited (m : ModelId) (roles : List String) : Step ts Unit :=
  forEach roles fun role => do
    let declared ← ask fun r => (Entry.find? role (r.entriesOf m)).isSome
    if declared then pure () else updateInstances m role none

/-- Copies the fields of a base into a datatype and all its instances. -/
def installInherited (m : ModelId) (fields : Table String Value) : Step ts Unit :=
  forEach fields.entries fun field => do
    let value ← cloneValue field.2 "" true
    updateInstances m field.1 (some value)

/-- Refuses a base whose instances would hold one of the model, and finds the model of the base. -/
def checkBase (m : ModelId) (base : Option ObjectId) : Step ts (Option ModelId) :=
  match base with
  | none => pure none
  | some b => do
    let _ ← query (·.assertTemplateKind b)
    let baseModel ← query (·.modelOf b)
    let reaches ← query (·.reachesModel b m)
    if reaches then do
      let name ← ask (·.nameOf m)
      let label ← ask (·.label b)
      fail (.declaration name (.baseContains label name))
    else pure (some baseModel)

/-- Removes the fields of the base that a datatype has. -/
def leaveBase (m : ModelId) : Step ts Unit := do
  let old ← ask fun r => Entry.base? (r.entriesOf m)
  match old with
  | some b => do
    let roles ← query (·.inheritedRoles b)
    dropInherited m roles
  | none => pure ()

/-- Installs the fields of the model of a new base. -/
def joinBase (m : ModelId) (baseModel : Option ModelId) : Step ts Unit :=
  match baseModel with
  | none => pure ()
  | some bm => do
    let seed ← query fun r => match r.template? bm with
      | some seed => .ok seed
      | none => .error (.template (.unsuited (r.nameOf bm)))
    let fields ← query (·.fields seed)
    installInherited m fields

/-- Replaces the datatype whose fields are inherited: the fields of the old base go, those of the
new one are installed. -/
def setBase (template : ObjectId) (base : Option ObjectId) : Step ts Unit := do
  let m ← query (·.canonicalModel template)
  let baseModel ← checkBase m base
  -- The old base is read from the declaration, which therefore changes after the fields have gone.
  leaveBase m
  edit (·.mapEntries m (Entry.rebase base))
  joinBase m baseModel

end Step

end Metamodel
