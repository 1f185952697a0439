import Metamodel.TypeSystem

/-!
# Metamodel.Idl.Kind -- the kinds of an interface definition language

The type system of interface definitions: atoms and enumerations are leaves, annotations are
qualifiers, of which arrays and sequences give dimensions, and a type definition is an alias.
Constants and annotations have no instances.
-/

namespace Metamodel.Idl

/-- Kinds of datatypes. -/
inductive Kind where
  | atom
  | enum
  | struct
  | union
  | typedef
  | module
  | const
  /-- An annotation without dimensions. -/
  | tag
  /-- An annotation that gives dimensions. -/
  | collection
deriving DecidableEq, Repr

namespace Kind

/-- Every kind. -/
def all : List Kind :=
  [.atom, .enum, .struct, .union, .typedef, .module, .const, .tag, .collection]

/-- The name of a kind. -/
def text : Kind → String
  | .atom => "atom"
  | .enum => "enum"
  | .struct => "struct"
  | .union => "union"
  | .typedef => "typedef"
  | .module => "module"
  | .const => "const"
  | .tag => "annotation"
  | .collection => "collection annotation"

/-- The kind of a name. -/
def ofText? (name : String) : Option Kind :=
  all.find? fun kind => kind.text == name

end Kind

/-- The type system of interface definitions, with given limits. -/
def system (limits : Limits) : TypeSystem Kind where
  isQualifier
    | .tag | .collection => true
    | _ => false
  isCollection
    | .collection => true
    | _ => false
  isAlias
    | .typedef => true
    | _ => false
  isLeaf
    | .atom | .enum => true
    | _ => false
  isTemplate
    | .atom | .enum | .struct | .union | .typedef | .module => true
    | _ => false
  kindName := Kind.text
  limits := limits

end Metamodel.Idl
