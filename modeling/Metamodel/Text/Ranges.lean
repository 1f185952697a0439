/-!
# Metamodel.Text.Ranges -- character classes as ranges of code points

A class of characters is a list of closed ranges, ascending and apart. The tables beside this module
give one property of the Unicode Standard, version 17.0, each. Main statement: a character belongs
to a class exactly when its code point lies in one of the ranges.
-/

namespace Metamodel.Text

/-- Closed ranges of code points. -/
abbrev Ranges := List (Nat × Nat)

/-- Whether a code point lies in one of the ranges. -/
def Ranges.covers (rs : Ranges) (n : Nat) : Bool :=
  rs.any fun range => range.1 ≤ n && n ≤ range.2

theorem Ranges.covers_iff (rs : Ranges) (n : Nat) :
    rs.covers n = true ↔ ∃ range ∈ rs, range.1 ≤ n ∧ n ≤ range.2 := by
  simp [Ranges.covers, List.any_eq_true]

/-- Whether a character belongs to the class. -/
def Ranges.holds (rs : Ranges) (c : Char) : Bool :=
  rs.covers c.toNat

end Metamodel.Text
