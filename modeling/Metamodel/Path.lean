/-!
# Metamodel.Path -- accessor paths and scoped names as text

An accessor path leads from an instance to a leaf: members are joined by a point, elements of a
collection are written with their index in brackets, and two marks are joined without a point, the
discriminator of a union and the symbolic length of a collection. The constants of the library stand
first.
-/

namespace Metamodel

/-! ## Constants -/

/-- The version of the library. -/
def version : String := "0.3.0"

/-- Joins a path and the name of a member. -/
def memberSeparator : String := "."

/-- Joins the name of a scope and a name declared in it. -/
def scopeSeparator : String := "::"

/-- The leaf that stands for the discriminator of a union. -/
def discriminatorMarker : String := "#"

/-- Ends the path that stands for the length of a collection. -/
def lengthSuffix : String := "#"

/-! ## Paths -/

namespace Path

/-- The path of a leaf under another path. Nothing separates the two when the path is empty or the
leaf is the discriminator. -/
def leaf (under name : String) : String :=
  if under = "" ∨ name = discriminatorMarker then under ++ name
  else under ++ memberSeparator ++ name

/-- Joins two paths, either of which may be empty. -/
def join (under name : String) : String :=
  if under = "" then name
  else if name = "" then under
  else under ++ memberSeparator ++ name

/-- The path of an element of a collection. -/
def element (collection : String) (index : Nat) : String :=
  collection ++ "[" ++ toString index ++ "]"

/-- The path that stands for the length of a collection. -/
def length (collection : String) : String :=
  collection ++ lengthSuffix

@[simp] theorem leaf_empty (name : String) : leaf "" name = name := by
  simp [leaf]

@[simp] theorem join_empty_left (name : String) : join "" name = name := by
  simp [join]

@[simp] theorem join_empty_right (under : String) : join under "" = under := by
  unfold join
  split
  · next h => exact h.symm
  · simp

end Path

end Metamodel
