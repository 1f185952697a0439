import Metamodel.Error
import Metamodel.Model
import Metamodel.TypeSystem
import Metamodel.Value

/-!
# Metamodel.Repository -- the store of models and objects

A repository of a type system owns every model and every object. Both are only ever added, an object
that is released leaves its number empty. Each look-up has an answer for every identifier: `none` or
an error where nothing is found. The changes below are the only ones; every operation is built from
them.
-/

namespace Metamodel

/-- The models and objects of one type system. -/
structure Repository {κ : Type} (ts : TypeSystem κ) where
  models : Array (Model κ)
  objects : Array (Option Object)

namespace Repository

variable {κ : Type} {ts : TypeSystem κ}

/-- The repository without models. -/
def empty (ts : TypeSystem κ) : Repository ts := ⟨#[], #[]⟩

instance : Inhabited (Repository ts) := ⟨empty ts⟩

/-! ## Look-up -/

/-- The model with this number. -/
def model? (r : Repository ts) (m : ModelId) : Option (Model κ) :=
  r.models[m.index]?

/-- The object with this number, unless it has been released. -/
def object? (r : Repository ts) (id : ObjectId) : Option Object :=
  r.objects[id.index]?.join

/-- Whether an object can be used. -/
def isLive (r : Repository ts) (id : ObjectId) : Bool :=
  (r.object? id).isSome

/-- The number of objects that can be used. -/
def liveCount (r : Repository ts) : Nat :=
  r.objects.countP Option.isSome

/-- The model that an object is bound to. -/
def modelOf? (r : Repository ts) (id : ObjectId) : Option ModelId :=
  (r.object? id).map Object.model

/-- The object, or the error that there is none. -/
def object (r : Repository ts) (id : ObjectId) : Except Error Object :=
  match r.object? id with
  | some o => .ok o
  | none => .error (.unknownObject id)

/-- The model of an object, or the error that there is no object. -/
def modelOf (r : Repository ts) (id : ObjectId) : Except Error ModelId :=
  (r.object id).map Object.model

/-- The model, or the error that there is none. -/
def model (r : Repository ts) (m : ModelId) : Except Error (Model κ) :=
  match r.model? m with
  | some model => .ok model
  | none => .error (.unknownModel m)

/-! ## Models -/

/-- The name of a model. -/
def nameOf (r : Repository ts) (m : ModelId) : String :=
  (r.model? m).elim "" Model.name

/-- The kind of a datatype. -/
def kindOf? (r : Repository ts) (m : ModelId) : Option κ :=
  (r.model? m).bind Model.kind?

/-- The namespace that encloses a datatype. -/
def scopeOf? (r : Repository ts) (m : ModelId) : Option ModelId :=
  (r.model? m).bind Model.scope?

/-- The declaration list of a datatype. -/
def entriesOf (r : Repository ts) (m : ModelId) : List Entry :=
  (r.model? m).elim [] Model.entries

/-- The registry of a datatype. -/
def registryOf? (r : Repository ts) (m : ModelId) : Option Registry :=
  (r.model? m).bind Model.registry?

/-- The template of a model. -/
def template? (r : Repository ts) (m : ModelId) : Option ObjectId :=
  (r.model? m).bind Model.template?

/-- The number of registered instances, the template included. -/
def instanceCount (r : Repository ts) (m : ModelId) : Nat :=
  (r.registryOf? m).elim 0 Table.size

/-- Whether the model is the datatype of an alias. -/
def isAlias (r : Repository ts) (m : ModelId) : Bool :=
  (r.kindOf? m).any ts.isAlias

/-- Whether instances of the model are accessor paths. -/
def isLeaf (r : Repository ts) (m : ModelId) : Bool :=
  (r.kindOf? m).any ts.isLeaf

/-! ## Objects -/

/-- The kind of the datatype of an object; collections have none. -/
def kind? (r : Repository ts) (id : ObjectId) : Option κ :=
  (r.modelOf? id).bind r.kindOf?

/-- What an object is called in messages: the name of its model, or its identifier. -/
def label (r : Repository ts) (id : ObjectId) : String :=
  match r.modelOf? id with
  | some m => if r.nameOf m = "" then id.text else r.nameOf m
  | none => id.text

/-- The fields of a composite. -/
def fields? (r : Repository ts) (id : ObjectId) : Option (Table String Value) :=
  match r.object? id with
  | some (.composite _ fields) => some fields
  | _ => none

/-- The fields of a composite, or the error that there is none. -/
def fields (r : Repository ts) (id : ObjectId) : Except Error (Table String Value) :=
  match r.object? id with
  | some (.composite _ fields) => .ok fields
  | some (.collection ..) => .error (.template (.unsuited (r.label id)))
  | none => .error (.unknownObject id)

/-- A field of a composite. -/
def field? (r : Repository ts) (id : ObjectId) (role : String) : Option Value :=
  (r.fields? id).bind (·.get? role)

/-- The elements of a collection met so far. -/
def elements? (r : Repository ts) (id : ObjectId) : Option (Table Nat Value) :=
  match r.object? id with
  | some (.collection _ elements) => some elements
  | _ => none

/-- Whether the object is a collection. -/
def isCollection (r : Repository ts) (id : ObjectId) : Bool :=
  (r.elements? id).isSome

/-- Whether a value is a collection that can be used. -/
def holdsCollection (r : Repository ts) : Value → Bool
  | .collection id => r.isCollection id
  | _ => false

/-- The value that refers to an object. -/
def valueOf (r : Repository ts) (id : ObjectId) : Except Error Value :=
  (r.object id).map fun
    | .composite .. => .composite id
    | .collection .. => .collection id

/-- The path that an instance was made under; templates have the empty one. -/
def instanceName? (r : Repository ts) (id : ObjectId) : Option String :=
  ((r.modelOf? id).bind r.registryOf?).bind (·.get? id)

/-- The path of an instance, empty where none is registered. -/
def registeredName (r : Repository ts) (id : ObjectId) : String :=
  (r.instanceName? id).getD ""

/-- Whether the object is the canonical template of a datatype. -/
def isTemplate (r : Repository ts) (id : ObjectId) : Bool :=
  (r.modelOf? id).any fun m => (r.kindOf? m).isSome && r.template? m == some id

/-! ## What serves as a template or a qualifier -/

/-- Accepts an object of the expected kind. -/
def assertKind [DecidableEq κ] (r : Repository ts) (expected : κ) (id : ObjectId) :
    Except Error ObjectId :=
  match r.kind? id with
  | some kind =>
    if kind = expected then .ok id
    else .error (.template (.otherKind (r.label id) (ts.kindName kind) (ts.kindName expected)))
  | none => .error (.template (.noKind (r.label id) (ts.kindName expected)))

/-- Accepts a composite whose kind may have instances. -/
def assertTemplateKind (r : Repository ts) (id : ObjectId) : Except Error ObjectId :=
  match r.object? id with
  | some (.composite m _) =>
    if (r.kindOf? m).any ts.isTemplate then .ok id
    else .error (.template (.unsuited (r.label id)))
  | some (.collection ..) => .error (.template (.unsuited (r.label id)))
  | none => .error (.template (.object id))

/-- Whether the annotation of a qualifier is one. -/
def isQualifier (r : Repository ts) (q : Qualifier) : Bool :=
  (r.kind? q.datatype).any ts.isQualifier

/-- Whether a qualifier gives dimensions. -/
def isCollectionQualifier (r : Repository ts) (q : Qualifier) : Bool :=
  (r.kind? q.datatype).any fun kind => ts.isQualifier kind && ts.isCollection kind

/-- Accepts qualifiers, naming the first that is none. -/
def assertQualifiers (r : Repository ts) (qs : List Qualifier) : Except Error Unit :=
  match qs.find? fun q => !r.isQualifier q with
  | some q => .error (.qualifier (r.label q.datatype))
  | none => .ok ()

/-- The model of a canonical template, through which a datatype is edited. -/
def canonicalModel (r : Repository ts) (id : ObjectId) : Except Error ModelId := do
  let m ← r.modelOf id
  if (r.kindOf? m).isNone || r.template? m != some id then
    .error (.template (.notCanonical (r.label id)))
  else .ok m

/-! ## Changes -/

/-- The number of the next model. -/
def nextModel (r : Repository ts) : ModelId := ⟨r.models.size⟩

/-- The number of the next object. -/
def nextObject (r : Repository ts) : ObjectId := ⟨r.objects.size⟩

/-- Adds a model. -/
def addModel (r : Repository ts) (m : Model κ) : Repository ts :=
  { r with models := r.models.push m }

/-- Adds an object. -/
def addObject (r : Repository ts) (o : Object) : Repository ts :=
  { r with objects := r.objects.push (some o) }

/-- Changes a datatype. -/
def mapDatatype (r : Repository ts) (m : ModelId) (f : Datatype κ → Datatype κ) : Repository ts :=
  { r with models := r.models.modify m.index (Model.mapDatatype f) }

/-- Replaces a live object. -/
def setObject (r : Repository ts) (id : ObjectId) (o : Object) : Repository ts :=
  { r with objects := r.objects.setIfInBounds id.index (some o) }

/-- Leaves the number of an object empty. -/
def dropObject (r : Repository ts) (id : ObjectId) : Repository ts :=
  { r with objects := r.objects.setIfInBounds id.index none }

/-- Registers an instance of a datatype. -/
def register (r : Repository ts) (m : ModelId) (id : ObjectId) (name : String) : Repository ts :=
  r.mapDatatype m fun d =>
    { d with registry := some ((d.registry.getD Table.empty).insert id name) }

/-- Removes an object from the registry of a datatype. -/
def unregister (r : Repository ts) (m : ModelId) (id : ObjectId) : Repository ts :=
  r.mapDatatype m fun d => { d with registry := d.registry.map (·.erase id) }

/-- Writes or removes a field of a composite. -/
def writeField (r : Repository ts) (id : ObjectId) (role : String) (value : Option Value) :
    Repository ts :=
  match r.object? id with
  | some (.composite m fields) =>
    r.setObject id (.composite m (value.elim (fields.erase role) (fields.insert role)))
  | _ => r

/-- Writes an element of a collection. -/
def writeElement (r : Repository ts) (id : ObjectId) (index : Nat) (value : Value) :
    Repository ts :=
  match r.object? id with
  | some (.collection m elements) => r.setObject id (.collection m (elements.insert index value))
  | _ => r

end Repository

end Metamodel
