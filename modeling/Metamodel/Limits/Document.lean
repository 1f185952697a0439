import Metamodel.Error
import Metamodel.Notice
import Metamodel.Yaml.Document

/-!
# Metamodel.Limits.Document -- limits that are read from a document

A document gives limits as a mapping from their names to whole numbers. What it does not give keeps
its standard value, and other names are passed over; a limit that is given twice, or as something
else than a number of 64 bits, makes the document unusable.
-/

namespace Metamodel.Limits

/-! ## Numbers -/

/-- The number with these digits in a base of at most sixteen. -/
def ofDigits? (base : Nat) (digits : List Char) : Option Nat :=
  if digits.isEmpty then none
  else digits.foldlM (fun n c => do
    let digit ← Yaml.hexValue? c
    if digit < base then some (base * n + digit) else none) 0

/-- The number that a text without a sign stands for. Decimal numbers have no leading zeros. -/
def ofUnsigned? : List Char → Option Nat
  | '0' :: 'x' :: digits => ofDigits? 16 digits
  | '0' :: 'o' :: digits => ofDigits? 8 digits
  | '0' :: 'b' :: digits => ofDigits? 2 digits
  | '0' :: _ :: _ => none
  | digits => ofDigits? 10 digits

/-- The number of 64 bits that a text stands for. -/
def ofNumeral? (text : String) : Option Nat := do
  let n ← match text.toList with
    | '+' :: unsigned => ofUnsigned? unsigned
    | unsigned => ofUnsigned? unsigned
  if n < UInt64.size then some n else none

/-- The tag of whole numbers. -/
def numberTag : String := "tag:yaml.org,2002:int"

/-- The number that a scalar stands for. Only plain scalars are numbers by themselves; one in a
block that keeps its lines is a number where its tag says so. -/
def ofLeaf? (leaf : Yaml.Leaf) : Option Nat :=
  if leaf.style == .plain || (leaf.style == .literal && leaf.tag == some numberTag) then
    ofNumeral? leaf.text
  else none

/-! ## Mappings -/

/-- Limits that are given in part. -/
structure Given where
  aliasDepth : Option Nat
  dimensions : Option Nat

/-- No limits. -/
def Given.none : Given := ⟨Option.none, Option.none⟩

/-- Completes limits by the standard ones. -/
def Given.limits (g : Given) : Limits :=
  ⟨g.aliasDepth.getD standard.aliasDepth, g.dimensions.getD standard.dimensions⟩

/-- Takes a number for a limit that has none yet. -/
def take? (d : Yaml.Document) (value : Yaml.Node) (known : Option Nat) : Option Nat := do
  if known.isSome then none
  else
    let leaf ← d.leaf? value
    ofLeaf? leaf

/-- Adds what a pair of a mapping gives. -/
def Given.add? (d : Yaml.Document) (g : Given) (pair : Yaml.Node × Yaml.Node) : Option Given := do
  let key ← d.leaf? pair.1
  if key.text = "max_alias_depth" then
    let n ← take? d pair.2 g.aliasDepth
    some { g with aliasDepth := some n }
  else if key.text = "max_dimensions" then
    let n ← take? d pair.2 g.dimensions
    some { g with dimensions := some n }
  else some g

/-- The limits that a document gives, be they usable or not. A plain scalar without characters gives
none. -/
def ofDocument? (d : Yaml.Document) : Option Limits :=
  match d.root with
  | .mapping pairs => (pairs.foldlM (Given.add? d) .none).map Given.limits
  | .leaf leaf =>
    if leaf.text.isEmpty && leaf.style == .plain then some standard else none
  | _ => none

/-! ## Texts and files -/

/-- The usable limits that a text gives. Without a document they are the standard ones. -/
def ofText (text : String) : Except Fault Limits :=
  match Yaml.document? text with
  | none => .error .document
  | some none => standard.validate
  | some (some d) =>
    match ofDocument? d with
    | none => .error .document
    | some limits => limits.validate

/-- The usable limits that a file gives, which holds the given bytes if it exists. A file that holds
no text counts as missing. -/
def ofFile (path : String) (bytes : Option ByteArray) : Except Error Limits × List Notice :=
  match bytes.bind String.fromUTF8? with
  | none => (.error (.limitsNotFound path), [])
  | some text => ((ofText text).mapError .limits, [.limitsRead path])

end Metamodel.Limits
