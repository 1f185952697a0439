/-!
# Metamodel.Limits -- how far chains of aliases and lists of dimensions may go

A repository follows a bounded number of aliases and accepts a bounded number of dimensions in one
qualifier. A usable pair of limits is positive in both.
-/

namespace Metamodel

/-- Limits of a repository. -/
structure Limits where
  /-- The longest chain of aliases that is followed. -/
  aliasDepth : Nat
  /-- The most dimensions that one qualifier may carry. -/
  dimensions : Nat
deriving DecidableEq, Repr

namespace Limits

/-- The limits that hold where none are given. -/
def standard : Limits := ⟨64, 32⟩

instance : Inhabited Limits := ⟨standard⟩

/-- Why limits are refused. -/
inductive Fault where
  /-- The document that gives them cannot be read. -/
  | document
  | zeroAliasDepth
  | zeroDimensions
deriving DecidableEq, Repr

/-- The wording of a fault. -/
def Fault.message : Fault → String
  | .document => "YAML"
  | .zeroAliasDepth => "max_alias_depth must be > 0"
  | .zeroDimensions => "max_dimensions must be > 0"

/-- Accepts limits that are positive; of two faults the alias depth is named. -/
def validate (l : Limits) : Except Fault Limits :=
  if l.aliasDepth = 0 then .error .zeroAliasDepth
  else if l.dimensions = 0 then .error .zeroDimensions
  else .ok l

theorem validate_eq_ok_iff (l m : Limits) :
    l.validate = .ok m ↔ l = m ∧ 0 < l.aliasDepth ∧ 0 < l.dimensions := by
  unfold validate
  split
  · simp; omega
  · split
    · simp; omega
    · simp; omega

end Limits

end Metamodel
