import Metamodel.Edit
import Metamodel.Idl.Kind

/-!
# Metamodel.Idl.Builtin -- atoms and annotations that are always there

A repository of interface definitions starts with fifteen atoms and six annotations, made in a fixed
order, so that each has the same identifier in every repository.
-/

namespace Metamodel.Idl

/-! ## Atoms -/

/-- Primitive and string types. -/
inductive Atom where
  | boolean
  | octet
  | char
  | wideChar
  | short
  | unsignedShort
  | long
  | unsignedLong
  | longLong
  | unsignedLongLong
  | float
  | double
  | longDouble
  | string
  | wideString
deriving DecidableEq, Repr

namespace Atom

/-- Every atom, in the order in which they are made. -/
def all : List Atom :=
  [.boolean, .octet, .char, .wideChar, .short, .unsignedShort, .long, .unsignedLong, .longLong,
    .unsignedLongLong, .float, .double, .longDouble, .string, .wideString]

/-- The name of an atom. -/
def name : Atom → String
  | .boolean => "boolean"
  | .octet => "octet"
  | .char => "char"
  | .wideChar => "wchar"
  | .short => "short"
  | .unsignedShort => "unsigned short"
  | .long => "long"
  | .unsignedLong => "unsigned long"
  | .longLong => "long long"
  | .unsignedLongLong => "unsigned long long"
  | .float => "float"
  | .double => "double"
  | .longDouble => "long double"
  | .string => "string"
  | .wideString => "wstring"

/-- The template of an atom. -/
def template (a : Atom) : ObjectId :=
  ⟨all.idxOf a⟩

end Atom

/-! ## Annotations -/

/-- Annotations that are always there. -/
inductive Builtin where
  | key
  | optional
  | id
  | extensibility
  | array
  | sequence
deriving DecidableEq, Repr

namespace Builtin

/-- Every annotation, in the order in which they are made. -/
def all : List Builtin :=
  [.key, .optional, .id, .extensibility, .array, .sequence]

/-- The name of an annotation. -/
def name : Builtin → String
  | .key => "Key"
  | .optional => "Optional"
  | .id => "ID"
  | .extensibility => "Extensibility"
  | .array => "Array"
  | .sequence => "Sequence"

/-- Arrays and sequences give dimensions. -/
def kind : Builtin → Kind
  | .array | .sequence => .collection
  | _ => .tag

/-- The template of an annotation. -/
def template (b : Builtin) : ObjectId :=
  ⟨Atom.all.length + all.idxOf b⟩

end Builtin

/-! ## Qualifiers -/

/-- Marks a member as part of the key. -/
def key : Qualifier := ⟨Builtin.key.template, [], []⟩

/-- Marks a member as optional. -/
def optional : Qualifier := ⟨Builtin.optional.template, [], []⟩

/-- Numbers a member. -/
def memberId (value : Int64) : Qualifier :=
  ⟨Builtin.id.template, [], [("value", .int value)]⟩

/-- Says how a datatype may be extended. -/
def extensibility (kind : String) : Qualifier :=
  ⟨Builtin.extensibility.template, [], [("kind", .str kind)]⟩

/-- An array, with a bound for each dimension, the outermost first. -/
def array (dimensions : List Bound) : Qualifier :=
  ⟨Builtin.array.template, dimensions, []⟩

/-- A sequence of one dimension. -/
def sequence (bound : Bound) : Qualifier :=
  ⟨Builtin.sequence.template, [bound], []⟩

/-! ## The first repository -/

variable {limits : Limits}

/-- Makes the atoms and the annotations. -/
def setUp : Step (system limits) Unit := do
  Step.forEach Atom.all fun a => do
    let _ ← Step.newTemplate a.name Kind.atom
    pure ()
  Step.forEach Builtin.all fun b => do
    let _ ← Step.newTemplate b.name b.kind
    pure ()
  Step.note fun _ => .atomsRegistered Atom.all.length

/-- The repository that holds the atoms and the annotations. -/
def initial (limits : Limits) : Repository (system limits) :=
  (setUp.run (Repository.empty (system limits))).repo

/-- Makes an annotation without a meaning of its own. -/
def newAnnotation (name : String) : Step (system limits) ObjectId := do
  let made ← Step.newTemplate name Kind.tag
  pure made.1

end Metamodel.Idl
