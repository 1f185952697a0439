import Metamodel.Decimal.Shortest

/-!
# Metamodel.Scalar -- plain data

Scalars are ordinals of enumerators, values of constants, labels of union cases, arguments of
annotations and what a caller writes into a leaf. A floating-point scalar is kept by its bits, so
that every value, NaN included, comes back as it was given.
-/

namespace Metamodel

/-- Plain data. -/
inductive Scalar where
  | bool (value : Bool)
  | int (value : Int64)
  | float (bits : UInt64)
  | str (text : String)
deriving DecidableEq, Repr

/-- The text of a scalar: a string stands for itself, a number is written without an exponent. -/
def Scalar.text : Scalar → String
  | .bool true => "true"
  | .bool false => "false"
  | .int value => toString value.toInt
  | .float bits => Decimal.text bits
  | .str text => text

end Metamodel
