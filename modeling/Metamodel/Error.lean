import Metamodel.Ident
import Metamodel.Limits
import Metamodel.Text.Quoted

/-!
# Metamodel.Error -- why an operation is refused

An error names its cause. Labels are the names of datatypes or collections, or the identifier of an
object without a name. `Error.message` is the one place where causes are put into words.
-/

namespace Metamodel

/-- Why an object does not serve as a template. -/
inductive TemplateFault where
  /-- Nothing with this identifier can be used. -/
  | object (id : ObjectId)
  /-- The object is of a kind that has no instances, or it is a collection. -/
  | unsuited (label : String)
  | otherKind (label actual expected : String)
  | noKind (label expected : String)
  /-- The object is not the canonical template of its model. -/
  | notCanonical (label : String)
  /-- The model has no template. -/
  | noTemplate (model : ModelId)
deriving DecidableEq, Repr

/-- The wording of a fault. -/
def TemplateFault.message : TemplateFault → String
  | .object id => id.text
  | .unsuited label => label
  | .otherKind label actual expected => label ++ " is " ++ actual ++ ", expected " ++ expected
  | .noKind label expected => label ++ " has no kind, expected " ++ expected
  | .notCanonical label => label ++ " is not a canonical template"
  | .noTemplate model => model.text ++ " has no template"

/-- Why an object has no scoped name or cannot be released. -/
inductive ScopeFault where
  | object (id : ObjectId)
  | unscoped (label : String)
  /-- The enclosing namespaces of this datatype run in a circle. -/
  | cycle (name : String)
  /-- A canonical template stays alive. -/
  | canonical (label : String)
deriving DecidableEq, Repr

/-- The wording of a fault. -/
def ScopeFault.message : ScopeFault → String
  | .object id => id.text
  | .unscoped label => label
  | .cycle name => "namespace cycle at " ++ name
  | .canonical label => label ++ " is a canonical template"

/-- Why a declaration is refused. -/
inductive DeclarationFault where
  | containsItself (role : String)
  | baseContains (base datatype : String)
  | aliasWithoutTarget
  | secondBase
  | caseLabels (role : String)
  | unexpectedValue (name : String)
  | discriminator
  | twoDefaults (first second : String)
  | notMember
  | duplicateMember (role : String)
  | duplicateEnumerator (label : String)
  | ordinalOverflow (label : String)
  | noEnumerators
  | constantType
  | withoutMembers
  | cyclicBase
  | baseKind (base : String)
deriving DecidableEq, Repr

/-- The wording of a fault. -/
def DeclarationFault.message : DeclarationFault → String
  | .containsItself role => "member " ++ role ++ " contains its own datatype"
  | .baseContains base datatype => "base " ++ base ++ " contains " ++ datatype
  | .aliasWithoutTarget => "alias has no target"
  | .secondBase => "more than one base"
  | .caseLabels role => "member " ++ role ++ " has case labels"
  | .unexpectedValue name => "unexpected value " ++ name
  | .discriminator => "discriminator must be an atom or an enumeration"
  | .twoDefaults first second => first ++ " and " ++ second ++ " are both default cases"
  | .notMember => "unions only declare members and annotations"
  | .duplicateMember role => "duplicate member " ++ role
  | .duplicateEnumerator label => "duplicate enumerator " ++ label
  | .ordinalOverflow label => "ordinal overflow after " ++ label
  | .noEnumerators => "no enumerators"
  | .constantType => "constants must have an atomic type"
  | .withoutMembers => "only structures and unions have members"
  | .cyclicBase => "cyclic inheritance"
  | .baseKind base => "base " ++ base ++ " is not a structure"

/-- Why a dimension gives no capacity. -/
inductive CapacityFault where
  | zero
  /-- The bound names an object that does not exist. -/
  | object (id : ObjectId)
  /-- The constant has no value, or one that is no positive integer. -/
  | constant (label : String) (value : Option String)
  | dimensions (count limit : Nat)
deriving DecidableEq, Repr

/-- The wording of a fault. -/
def CapacityFault.message : CapacityFault → String
  | .zero => "0"
  | .object id => id.text
  | .constant label value => label ++ " = " ++ value.getD "<none>"
  | .dimensions count limit =>
    toString count ++ " dimensions exceed the limit of " ++ toString limit

/-- Why an operation is refused. -/
inductive Error where
  /-- A template was needed. -/
  | template (fault : TemplateFault)
  /-- The role is no identifier. -/
  | roleName (role : String)
  | scope (fault : ScopeFault)
  /-- An annotation was needed. -/
  | qualifier (label : String)
  | declaration (datatype : String) (fault : DeclarationFault)
  /-- A collection can hold neither templates nor collections like this. -/
  | content (label : String)
  | capacity (fault : CapacityFault)
  /-- There is no element with this index; unbounded collections report the capacity 0. -/
  | bounds (collection : String) (index capacity : Nat)
  /-- Only leaves can be overwritten. -/
  | structuredElement (collection : String) (index : Nat)
  | unknownObject (id : ObjectId)
  | unknownModel (id : ModelId)
  | aliasDepth (limit : Nat)
  /-- Datatypes hold each other without end. -/
  | endlessContainment (id : ObjectId)
  /-- Collections are the elements of each other. -/
  | endlessNesting (id : ObjectId)
  | limits (fault : Limits.Fault)
  | limitsNotFound (path : String)
deriving DecidableEq, Repr

/-- The wording of an error. -/
def Error.message : Error → String
  | .template fault => "Not a template: " ++ fault.message
  | .roleName role => "Invalid role name: " ++ Text.quoted role
  | .scope fault => "Invalid template: " ++ fault.message
  | .qualifier label => "Not a qualifier: " ++ label
  | .declaration datatype fault => "Invalid declaration in " ++ datatype ++ ": " ++ fault.message
  | .content label => "Invalid collection element template: " ++ label
  | .capacity fault => "Invalid collection capacity: " ++ fault.message
  | .bounds collection index bound =>
    "Index " ++ toString index ++ " out of bounds for collection " ++ Text.quoted collection ++
      " (capacity " ++ toString bound ++ ")"
  | .structuredElement collection index =>
    "Cannot overwrite structured element " ++ collection ++ "[" ++ toString index ++ "]"
  | .unknownObject id => "Unknown object: " ++ id.text
  | .unknownModel id => "Unknown model: " ++ id.text
  | .aliasDepth limit => "Alias chain exceeds " ++ toString limit ++ " levels (cycle?)"
  | .endlessContainment id => "Endless containment: " ++ id.text
  | .endlessNesting id => "Endless nesting: " ++ id.text
  | .limits fault => "Configuration error: " ++ fault.message
  | .limitsNotFound path => "Config file not found: " ++ path

end Metamodel
