import Metamodel.Ident
import Metamodel.Scalar
import Metamodel.Text.Alphabetic
import Metamodel.Text.Numeric

/-!
# Metamodel.Declaration -- what a datatype declares

A datatype is declared by a list of entries: references to other datatypes (the target of an alias,
a base, a discriminator, the content of a namespace), qualifiers, members and named scalars. Of the
qualifiers only those that give dimensions have a meaning of their own.
-/

namespace Metamodel

/-! ## Roles -/

namespace Role

/-- Whether a role may start with the character. -/
def startsWith (c : Char) : Bool :=
  Text.isAlphabetic c || c == '_'

/-- Whether the character may follow in a role. -/
def continuesWith (c : Char) : Bool :=
  Text.isAlphabetic c || Text.isNumeric c || c == '_'

/-- A role is an identifier: a letter or a low line, then letters, numbers and low lines. -/
def isValid (role : String) : Bool :=
  match role.toList with
  | [] => false
  | c :: rest => startsWith c && rest.all continuesWith

end Role

/-! ## Qualifiers -/

/-- The capacity of one dimension of a collection. -/
inductive Bound where
  /-- No upper bound. -/
  | unbounded
  /-- A bound given as a number, which has to be positive. -/
  | size (capacity : Nat)
  /-- A bound given by a named constant. -/
  | constant (datatype : ObjectId)
deriving DecidableEq, Repr

/-- An annotation attached to a datatype or to a member. -/
structure Qualifier where
  /-- The annotation datatype. -/
  datatype : ObjectId
  /-- Dimensions of a collection, the outermost first. -/
  dimensions : List Bound
  /-- Named arguments. -/
  args : List (String × Scalar)
deriving DecidableEq, Repr

/-- The first argument of that name. -/
def Qualifier.arg? (q : Qualifier) (name : String) : Option Scalar :=
  (q.args.find? fun arg => arg.1 == name).map (·.2)

/-! ## Members and entries -/

/-- A member of a structure or a case of a union. -/
structure Member where
  role : String
  datatype : ObjectId
  qualifiers : List Qualifier
  /-- Case labels of a union member, none for the default case and for members of structures. -/
  labels : List Scalar
deriving DecidableEq, Repr

/-- One entry of a declaration list. -/
inductive Entry where
  /-- A reference to another datatype. -/
  | type (target : ObjectId)
  | qualifier (qualifier : Qualifier)
  | member (member : Member)
  /-- A named scalar: an enumerator or the value of a constant. -/
  | value (name : String) (scalar : Scalar)
deriving DecidableEq, Repr

namespace Entry

/-- The member of an entry that declares one. -/
def member? : Entry → Option Member
  | .member m => some m
  | _ => none

/-- The target of an entry that refers to a datatype. -/
def target? : Entry → Option ObjectId
  | .type target => some target
  | _ => none

/-- The scalar of an entry that names one. -/
def scalar? : Entry → Option Scalar
  | .value _ scalar => some scalar
  | _ => none

/-- Whether the entry declares the role. -/
def declares (role : String) (entry : Entry) : Bool :=
  entry.member?.any fun m => m.role == role

/-- The entries with the member in the place of the one with its role, or at the end. -/
def define (m : Member) : List Entry → List Entry
  | [] => [.member m]
  | e :: rest => if e.declares m.role then .member m :: rest else e :: define m rest

/-- The entries without the members of that role. -/
def remove (role : String) (entries : List Entry) : List Entry :=
  entries.filter fun e => !e.declares role

/-- The member declared under a role. -/
def find? (role : String) (entries : List Entry) : Option Member :=
  entries.findSome? fun e => e.member?.filter fun m => m.role == role

/-- The base of a declaration list: a reference that comes first. -/
def base? : List Entry → Option ObjectId
  | .type target :: _ => some target
  | _ => none

/-- The entries with another base, or with none. -/
def rebase (base : Option ObjectId) (entries : List Entry) : List Entry :=
  let rest := if (base? entries).isSome then entries.tail else entries
  match base with
  | some b => .type b :: rest
  | none => rest

end Entry

end Metamodel
