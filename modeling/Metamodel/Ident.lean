/-!
# Metamodel.Ident -- numbers that identify models and objects

Models and objects are numbered in order of creation, apart from each other. A number is never used
twice, so an identifier may outlive what it named.
-/

namespace Metamodel

/-- Identifies a model of a repository. -/
structure ModelId where
  index : Nat
deriving DecidableEq, Repr, Inhabited

/-- Identifies an object of a repository: a template, a composite instance or a collection. -/
structure ObjectId where
  index : Nat
deriving DecidableEq, Repr, Inhabited

/-- The way a model is named in messages. -/
def ModelId.text (m : ModelId) : String :=
  s!"model#{m.index}"

/-- The way an object is named in messages. -/
def ObjectId.text (o : ObjectId) : String :=
  s!"object#{o.index}"

end Metamodel
