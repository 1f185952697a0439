import Metamodel.Declaration
import Metamodel.Table

/-!
# Metamodel.Model -- datatypes and shapes of collections

A model is what an object is bound to. The model of a template and its instances is a datatype: it
has a kind, a declaration list and a registry of what has been made from it. The model of a
collection is a shape: the template of its elements and its capacity.
-/

namespace Metamodel

/-- Instances of a datatype with the path that each was made under, in order of creation. -/
abbrev Registry := Table ObjectId String

/-- The model of templates and composite instances. -/
structure Datatype (κ : Type) where
  kind : κ
  name : String
  /-- The enclosing namespace. -/
  scope : Option ModelId
  entries : List Entry
  qualifiers : List Qualifier
  /-- Aliases have no instances of their own and so no registry. -/
  registry : Option Registry
  /-- The canonical template. -/
  template : ObjectId
deriving Repr

/-- Where the length of a collection comes from. -/
inductive Origin where
  /-- The collection belongs to a template, its length is symbolic. -/
  | template
  /-- The collection holds data and was copied from another one. -/
  | derived (source : ObjectId)
  /-- The collection holds data and was built directly. -/
  | free
deriving DecidableEq, Repr

/-- The model of a collection. -/
structure Shape where
  name : String
  /-- The template of the elements, or a collection for nested ones. -/
  element : ObjectId
  /-- The largest index, if there is one. -/
  capacity : Option Nat
  origin : Origin
  /-- The one collection of this shape. -/
  holder : ObjectId
deriving DecidableEq, Repr

/-- What an object is bound to. -/
inductive Model (κ : Type) where
  | datatype (datatype : Datatype κ)
  | shape (shape : Shape)
deriving Repr

namespace Model

variable {κ : Type}

/-- The datatype of a model that is one. -/
def datatype? : Model κ → Option (Datatype κ)
  | .datatype d => some d
  | .shape _ => none

/-- The shape of a model that is one. -/
def shape? : Model κ → Option Shape
  | .datatype _ => none
  | .shape s => some s

/-- The local name, empty for anonymous collections. -/
def name : Model κ → String
  | .datatype d => d.name
  | .shape s => s.name

/-- The kind of a datatype. -/
def kind? (m : Model κ) : Option κ :=
  m.datatype?.map (·.kind)

/-- The enclosing namespace. -/
def scope? (m : Model κ) : Option ModelId :=
  m.datatype?.bind (·.scope)

/-- The declaration list, empty for shapes. -/
def entries (m : Model κ) : List Entry :=
  m.datatype?.elim [] (·.entries)

/-- The qualifiers of the datatype itself. -/
def qualifiers (m : Model κ) : List Qualifier :=
  m.datatype?.elim [] (·.qualifiers)

/-- The registry of instances. -/
def registry? (m : Model κ) : Option Registry :=
  m.datatype?.bind (·.registry)

/-- The canonical template of a datatype. A shape points to its own collection when a template owns
it, and to the source of a derived one. -/
def template? : Model κ → Option ObjectId
  | .datatype d => some d.template
  | .shape s => match s.origin with
    | .template => some s.holder
    | .derived source => some source
    | .free => none

/-- Whether the model is the shape of a collection. -/
def isCollection (m : Model κ) : Bool :=
  m.shape?.isSome

/-- Applies a change to a datatype and leaves shapes alone. -/
def mapDatatype (f : Datatype κ → Datatype κ) : Model κ → Model κ
  | .datatype d => .datatype (f d)
  | .shape s => .shape s

end Model

/-! ## Attributes -/

/-- What can be said of a model. -/
inductive Attribute where
  | kind
  | name
  | scope
  | qualifiers
  | definition
  | instances
  | template
deriving DecidableEq, Repr

namespace Attribute

/-- Every attribute, in the order in which they are listed. -/
def all : List Attribute :=
  [.kind, .name, .scope, .qualifiers, .definition, .instances, .template]

/-- The key of an attribute. -/
def key : Attribute → String
  | .kind => "KIND"
  | .name => "NAME"
  | .scope => "NS"
  | .qualifiers => "QUALIFIERS"
  | .definition => "DEFN"
  | .instances => "INSTANCES"
  | .template => "TEMPLATE"

/-- Whether a model has a value for the attribute. -/
def heldBy {κ : Type} (m : Model κ) : Attribute → Bool
  | .kind => m.kind?.isSome
  | .name => decide (m.name ≠ "")
  | .scope => m.scope?.isSome
  | .qualifiers => !m.qualifiers.isEmpty
  | .definition => m.isCollection || !m.entries.isEmpty
  | .instances => m.registry?.isSome
  | .template => m.template?.isSome

end Attribute

/-- The attributes that a model has a value for. -/
def Model.attributes {κ : Type} (m : Model κ) : List Attribute :=
  Attribute.all.filter (Attribute.heldBy m)

end Metamodel
