import Metamodel.Alias
import Metamodel.Collection

/-!
# Metamodel.Instance -- instances of templates

An instance of a leaf is an accessor path. An instance of any other datatype is a composite whose
fields are copied from the canonical template under the path of the instance; it is registered, so
that later edits reach it. An instance of an alias with dimensions is a collection.

Composites are copied from the template of their model and not from the object at hand, so copying
goes from datatype to datatype. A datatype that holds itself outside of collections would be copied
without end; the number of models bounds how deep datatypes nest otherwise, and beyond it copying
fails with `Error.endlessContainment`.
-/

namespace Metamodel.Step

variable {κ : Type} {ts : TypeSystem κ}

/-! ## Copies and instances -/

/-- Copies a value under a path, given how composites are copied. -/
def cloneWith (make : ObjectId → String → Step ts Value) (owned : Bool) (value : Value)
    (under : String) : Step ts Value :=
  match value with
  | .collection id => Value.collection <$> copyCollection id under owned
  | .composite id => make id under
  | .accessor leaf => pure (.accessor (Path.leaf under leaf))
  | .scalar scalar => pure (.scalar scalar)

/-- Copies fields under a path, given how composites are copied. -/
def cloneFieldsWith (make : ObjectId → String → Step ts Value) (owned : Bool)
    (fields : Table String Value) (under : String) : Step ts (Table String Value) := do
  let copies ← mapEach fields.entries fun field => do
    let copy ← cloneWith make owned field.2 under
    pure (field.1, copy)
  pure ⟨copies⟩

/-- Adds a composite of a datatype and registers it under its path. -/
def addInstance (m : ModelId) (fields : Table String Value) (path : String) :
    Step ts ObjectId := do
  let id ← ask (·.nextObject)
  edit (·.addObject (.composite m fields))
  edit (·.register m id path)
  note fun r => .instanceMade (r.nameOf m) path id
  pure id

/-- Makes an instance, with at most `depth` datatypes nested. -/
def instantiate (owned : Bool) : Nat → ObjectId → String → Step ts Value
  | 0, id, _ => fail (.endlessContainment id)
  | depth + 1, id, under => do
    let seed ← query (·.seed id)
    match seed with
    | .nested element q => Value.collection <$> newCollections element q under owned
    | .plain template => do
      let m ← query (·.modelOf template)
      let name ← ask (·.registeredName template)
      let path := Path.join under name
      let isLeaf ← ask (·.isLeaf m)
      if isLeaf then pure (.accessor path)
      else do
        -- Copied is the template of the model, and not the object at hand.
        let fields ← query fun r => r.fields ((r.template? m).getD template)
        let copies ← cloneFieldsWith (instantiate owned depth) owned fields path
        Value.composite <$> addInstance m copies path

/-- Makes an instance of a template under a path. Of a registered instance the path is continued.
What is `owned` goes into a template, and its collections have symbolic lengths. -/
def newInstance (template : ObjectId) (under : String) (owned : Bool) : Step ts Value :=
  fun r => instantiate owned (r.models.size + 1) template under r

/-- Copies a value under a path. -/
def cloneValue (value : Value) (under : String) (owned : Bool) : Step ts Value :=
  cloneWith (newInstance · · owned) owned value under

/-- Makes the value that a template holds for a member. -/
def createRoleInstance (datatype : ObjectId) (role : String) (qualifiers : List Qualifier) :
    Step ts Value := do
  let datatype ← query (·.assertTemplateKind datatype)
  let dimensions ← ask fun r => qualifiers.find? r.isCollectionQualifier
  match dimensions with
  | some q => Value.collection <$> newCollections datatype q role true
  | none => newInstance datatype role true

/-! ## Elements -/

/-- The element of a collection at an index from 1 on, made on first access. -/
def element (id : ObjectId) (index : Nat) : Step ts Value := do
  let s ← query (·.shape id)
  if index = 0 ∨ s.capacity.any (· < index) then
    fail (.bounds s.name index (s.capacity.getD 0))
  else do
    let present ← ask fun r => (r.elements? id).bind (·.get? index)
    match present with
    | some value => pure value
    | none => do
      let owned := decide (s.origin = .template)
      let path := Path.element s.name index
      let content ← query (·.valueOf s.element)
      let value ← cloneValue content path owned
      note fun _ => .elementMade path
      edit (·.writeElement id index value)
      pure value

/-- Overwrites an element that is a leaf. -/
def setElement (id : ObjectId) (index : Nat) (value : Value) : Step ts Unit := do
  let current ← element id index
  if current.isStructured then do
    let s ← query (·.shape id)
    fail (.structuredElement s.name index)
  else edit (·.writeElement id index value)

end Metamodel.Step
