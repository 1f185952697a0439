import Metamodel.Ident
import Metamodel.Scalar
import Metamodel.Path
import Metamodel.Table

/-!
# Metamodel.Value -- values, objects and their lengths

A field of a composite and an element of a collection hold a value: a leaf, which is an accessor
path or plain data, or a reference to an object. Objects are composites with named fields and
collections with those of their elements that have been asked for.
-/

namespace Metamodel

/-- What a field or an element holds. -/
inductive Value where
  /-- The accessor path of a leaf. -/
  | accessor (path : String)
  | scalar (scalar : Scalar)
  /-- A composite, which is an instance or a template. -/
  | composite (id : ObjectId)
  | collection (id : ObjectId)
deriving DecidableEq, Repr

namespace Value

/-- The object that a value refers to. -/
def object? : Value → Option ObjectId
  | .composite id => some id
  | .collection id => some id
  | _ => none

/-- Whether the value refers to an object, and so is no leaf. -/
def isStructured (v : Value) : Bool :=
  v.object?.isSome

/-- The path of a value that is one. -/
def accessor? : Value → Option String
  | .accessor path => some path
  | _ => none

/-- The composite that a value refers to. -/
def composite? : Value → Option ObjectId
  | .composite id => some id
  | _ => none

end Value

/-- What an identifier of an object stands for. -/
inductive Object where
  /-- A template or an instance, with one value for each role. -/
  | composite (model : ModelId) (fields : Table String Value)
  /-- A collection, with the elements met so far by index. -/
  | collection (model : ModelId) (elements : Table Nat Value)
deriving DecidableEq, Repr

/-- The model that an object is bound to. -/
def Object.model : Object → ModelId
  | .composite model _ => model
  | .collection model _ => model

/-- The objects that an object refers to, in the order of its roles or elements. -/
def Object.held : Object → List ObjectId
  | .composite _ fields => fields.values.filterMap Value.object?
  | .collection _ elements => elements.values.filterMap Value.object?

/-- The length of a collection. -/
inductive Length where
  /-- The path that stands for the length of a collection in a template. -/
  | symbolic (path : String)
  /-- The number of elements of a collection that holds data. -/
  | count (n : Nat)
deriving DecidableEq, Repr

/-- The number of elements, where it is known. -/
def Length.count? : Length → Option Nat
  | .symbolic _ => none
  | .count n => some n

/-- The text of a length. -/
def Length.text : Length → String
  | .symbolic path => path
  | .count n => toString n

end Metamodel
