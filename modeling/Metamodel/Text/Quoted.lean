import Metamodel.Text.Extending
import Metamodel.Text.Unprintable

/-!
# Metamodel.Text.Quoted -- names between quotation marks

A quoted name is written so that every character of it shows: the quotation mark, the backslash and
four controls have a short escape, other invisible characters are written by their code point.
-/

namespace Metamodel.Text

/-! ## Code points in base sixteen -/

/-- The number in base sixteen, with small letters and no leading zeros. -/
def hexText (n : Nat) : String :=
  String.ofList (Nat.toDigits 16 n)

/-! ## Escapes -/

/-- The escape of a character, or nothing where it stands for itself. -/
def escape? (c : Char) : Option String :=
  if c = '"' then some "\\\""
  else if c = '\\' then some "\\\\"
  else if c = '\t' then some "\\t"
  else if c = '\r' then some "\\r"
  else if c = '\n' then some "\\n"
  else if c.toNat = 0 then some "\\0"
  else if isExtending c || isUnprintable c then some ("\\u\x7b" ++ hexText c.toNat ++ "\x7d")
  else none

/-- A text between quotation marks, with escapes. -/
def quoted (s : String) : String :=
  "\"" ++ String.join (s.toList.map fun c => (escape? c).getD c.toString) ++ "\""

end Metamodel.Text
