import Metamodel.Collection

/-!
# Metamodel.Snapshot -- what a value looks like, without identifiers

A snapshot is a copy of a value in which objects are replaced by their contents. Collections are
captured by name, capacity and element template, since elements made so far are no part of a shape.
A datatype may lead back to itself through a collection; a composite of a datatype that is already
being captured further out is captured without its fields.

`describe` gives the same in one line.
-/

namespace Metamodel

/-- A copy of a value without identifiers. -/
inductive Snapshot where
  | accessor (path : String)
  | scalar (scalar : Scalar)
  | composite (datatype : String) (fields : List (String × Snapshot))
  | collection (name : String) (capacity : Option Nat) (element : Snapshot)
deriving Repr

/-- The roles of a composite. -/
def Snapshot.roles : Snapshot → List String
  | .composite _ fields => fields.map (·.1)
  | _ => []

namespace Repository

variable {κ : Type} {ts : TypeSystem κ}

/-! ## Nested collections -/

/-- The shapes of collections nested in each other, the outermost first, and the composite that is
the innermost element. -/
def layersWithin (r : Repository ts) : Nat → ObjectId → Except Error (List Shape × ObjectId)
  | 0, id => .error (.endlessNesting id)
  | depth + 1, id => do
    let s ← r.shape id
    match ← r.object s.element with
    | .composite .. => .ok ([s], s.element)
    | .collection .. => do
      let (inner, core) ← layersWithin r depth s.element
      .ok (s :: inner, core)

/-- The shapes of nested collections and their innermost element. An element is older than its
collection, so there are no more layers than objects. -/
def layers (r : Repository ts) (id : ObjectId) : Except Error (List Shape × ObjectId) :=
  r.layersWithin (r.objects.size + 1) id

/-! ## Snapshots -/

/-- Captures a value, given how composites are captured. -/
def captureWith (r : Repository ts) (capture : ObjectId → Except Error Snapshot) :
    Value → Except Error Snapshot
  | .accessor path => .ok (.accessor path)
  | .scalar scalar => .ok (.scalar scalar)
  | .composite id => capture id
  | .collection id => do
    let (shapes, core) ← r.layers id
    let inner ← capture core
    .ok (shapes.foldr (fun s element => .collection s.name s.capacity element) inner)

/-- Captures a composite, where the datatypes in `within` are being captured further out. At most
`depth` more datatypes are opened. -/
def captureComposite (r : Repository ts) :
    Nat → List ModelId → ObjectId → Except Error Snapshot
  | depth, within, id => do
    let m ← r.modelOf id
    if within.contains m then .ok (.composite (r.nameOf m) [])
    else match depth with
      | 0 => .ok (.composite (r.nameOf m) [])
      | depth + 1 => do
        let fields ← r.fields id
        let captured ← fields.entries.mapM fun field => do
          let inner ← r.captureWith (captureComposite r depth (m :: within)) field.2
          .ok (field.1, inner)
        .ok (.composite (r.nameOf m) captured)

/-- A copy of a value without identifiers. -/
def snapshot (r : Repository ts) (value : Value) : Except Error Snapshot :=
  r.captureWith (r.captureComposite r.models.size []) value

/-! ## Descriptions -/

/-- One line that tells what a value is: a leaf by its text, a composite by its datatype, a
collection by name, element and capacity. -/
def describe (r : Repository ts) : Value → Except Error String
  | .accessor path => .ok path
  | .scalar scalar => .ok scalar.text
  | .composite id => (r.modelOf id).map r.nameOf
  | .collection id => do
    let (shapes, core) ← r.layers id
    let inner ← (r.modelOf core).map r.nameOf
    .ok (shapes.foldr (fun s element =>
      s.name ++ "\x7b" ++ element ++ "\x7d" ++ s.capacity.elim "" toString) inner)

end Repository

end Metamodel
