import Metamodel.Limits
import Metamodel.Text.Quoted

/-!
# Metamodel.TypeSystem -- what a repository has to know about kinds

Every datatype has a kind. A repository does not interpret kinds; it asks a type system five
questions about them and for their names, and keeps within its limits.
-/

namespace Metamodel

/-- The five questions about kinds, the names of kinds, and the limits of the repository. -/
structure TypeSystem (κ : Type) where
  /-- Annotations, which may be used as qualifiers. -/
  isQualifier : κ → Bool
  /-- Qualifiers that carry the dimensions of a collection. -/
  isCollection : κ → Bool
  /-- Names for another datatype. -/
  isAlias : κ → Bool
  /-- Datatypes whose instances are bare accessor paths. -/
  isLeaf : κ → Bool
  /-- Datatypes that may have instances. -/
  isTemplate : κ → Bool
  /-- The name of a kind in messages. -/
  kindName : κ → String
  limits : Limits

namespace TypeSystem

/-- A type system whose kinds are names, each question answered by a list of the kinds that qualify.
Messages quote the kind. -/
def listed (qualifiers collections aliases leaves templates : List String) (limits : Limits) :
    TypeSystem String where
  isQualifier kind := qualifiers.contains kind
  isCollection kind := collections.contains kind
  isAlias kind := aliases.contains kind
  isLeaf kind := leaves.contains kind
  isTemplate kind := templates.contains kind
  kindName := Text.quoted
  limits := limits

end TypeSystem

end Metamodel
