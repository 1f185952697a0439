import Metamodel.Yaml.Cursor
import Metamodel.Yaml.Token

/-!
# Metamodel.Yaml.Tag -- names, tags and directives

A tag names the type of a node. It is written whole between angles, or as a handle and the rest of
the tag; a directive says what a handle stands for. Characters may be escaped byte by byte. Each
reader returns nothing where its text is malformed.
-/

namespace Metamodel.Yaml

/-! ## Names of anchors -/

/-- Whether a name may end here: at a blank, at a line break or at a mark. -/
def endsName (c : Cursor) : Bool :=
  atBlank c.rest || c.rest.head?.any "?:,]\x7d%@\x60".toList.contains

/-- Reads the name after the mark of an anchor or an alias. -/
def readName (c : Cursor) : Option (String × Cursor) :=
  let (name, next) := (c.skip 1).span isWord
  if name.isEmpty || !endsName next then none else some (String.ofList name, next)

/-! ## Escaped characters -/

/-- A byte that is escaped as two digits in base sixteen, and what follows it. -/
def escapedByte? : List Char → Option (Nat × List Char)
  | '%' :: high :: low :: rest => do
    let high ← hexValue? high
    let low ← hexValue? low
    some (16 * high + low, rest)
  | _ => none

/-- How many bytes follow the first byte of a character, and what the first one adds to it. -/
def leadByte? (byte : Nat) : Option (Nat × Nat) :=
  if byte < 0x80 then some (0, byte)
  else if byte < 0xC0 then none
  else if byte < 0xE0 then some (1, byte % 32)
  else if byte < 0xF0 then some (2, byte % 16)
  else if byte < 0xF8 then some (3, byte % 8)
  else none

/-- Reads the further bytes of a character. -/
def trailBytes? : Nat → Nat → List Char → Option Nat
  | 0, point, _ => some point
  | count + 1, point, text => do
    let (byte, rest) ← escapedByte? text
    if byte / 64 = 2 then trailBytes? count (64 * point + byte % 64) rest else none

/-- The least code point of characters with so many further bytes. -/
def leastPoint : Nat → Nat
  | 0 => 0
  | 1 => 0x80
  | 2 => 0x800
  | _ => 0x10000

/-- An escaped character and the length of its escape. Bytes that no character is written with
stand for the replacement character. -/
def escapedChar? (text : List Char) : Option (Char × Nat) := do
  let (first, rest) ← escapedByte? text
  let (count, high) ← leadByte? first
  let point ← trailBytes? count high rest
  let char := if point.isValidChar ∧ leastPoint count ≤ point then Char.ofNat point else '\ufffd'
  some (char, 3 * (count + 1))

/-! ## Tags -/

/-- Whether a character stands for itself in a tag. Commas and brackets do so only where the end of
the tag is marked. -/
def isTagChar (marked : Bool) (c : Char) : Bool :=
  isWord c || ";/?:@&=+$.!~*'()".toList.contains c || (marked && ",[]".toList.contains c)

/-- Reads the characters of a tag, with the text so far. -/
def tagLoop (marked : Bool) : Nat → List Char → Cursor → Option (List Char × Cursor)
  | 0, text, c => some (text, c)
  | rounds + 1, text, c =>
    match c.peek? with
    | none => some (text, c)
    | some char =>
      if char == '%' then do
        let (point, length) ← escapedChar? c.rest
        tagLoop marked rounds (text ++ [point]) (c.skip length)
      else if isTagChar marked char then tagLoop marked rounds (text ++ [char]) (c.skip 1)
      else some (text, c)

/-- Reads a tag or a part of one. An escaped null character ends its text. -/
def readTagText (marked : Bool) (c : Cursor) : Option (List Char × Cursor) := do
  let (text, next) ← tagLoop marked c.rest.length [] c
  some (text.takeWhile fun char => char.toNat != 0, next)

/-- Reads a part of a tag that has at least one character. -/
def readTagPart (marked : Bool) (c : Cursor) : Option (List Char × Cursor) := do
  let (text, next) ← readTagText marked c
  if next.index = c.index then none else some (text, next)

/-- Reads what may be a handle: an exclamation mark, or a name between two of them. -/
def readHandle (c : Cursor) : List Char × Cursor :=
  let (name, next) := (c.skip 1).span isWord
  if next.isAt '!' then ('!' :: name ++ ['!'], next.skip 1) else ('!' :: name, next)

/-- Whether a text is a handle with a mark at both ends. -/
def isHandle (handle : List Char) : Bool :=
  handle != ['!'] && handle.getLast? == some '!'

/-- Reads a tag as a handle and the rest. The whole of a marked tag has an empty handle, and so has
the lone exclamation mark. -/
def readTagForm (c : Cursor) : Option (List Char × List Char × Cursor) :=
  if (c.skip 1).isAt '<' then do
    let (text, next) ← readTagPart true (c.skip 2)
    if next.isAt '>' then some ([], text, next.skip 1) else none
  else
    let (handle, next) := readHandle c
    if isHandle handle then do
      let (text, next) ← readTagPart false next
      some (handle, text, next)
    else do
      let (text, next) ← readTagText false next
      let suffix := handle.tail ++ text
      some (if suffix.isEmpty then ([], ['!'], next) else (['!'], suffix, next))

/-- Reads a tag and tests what ends it. -/
def readTag (flow : Bool) (c : Cursor) : Option (Token × Cursor) := do
  let (handle, suffix, next) ← readTagForm c
  if atBlank next.rest || (flow && next.isAt ',') then
    some (.tag (String.ofList handle) (String.ofList suffix), next)
  else none

/-! ## Directives -/

/-- Reads a number of at most nine digits. -/
def readVersionNumber (c : Cursor) : Option (Nat × Cursor) :=
  let (digits, next) := c.span Char.isDigit
  if digits.isEmpty || decide (9 < digits.length) then none
  else some (digits.foldl (fun n d => 10 * n + (d.toNat - 48)) 0, next)

/-- Reads the version in a directive. -/
def readVersion (c : Cursor) : Option (Token × Cursor) := do
  let (major, next) ← readVersionNumber c
  if !next.isAt '.' then none
  else do
    let (minor, next) ← readVersionNumber (next.skip 1)
    some (.version major minor, next)

/-- Reads a handle and the start of the tags that it stands for. -/
def readTagDirective (c : Cursor) : Option (Token × Cursor) :=
  if !c.isAt '!' then none
  else
    let (handle, next) := readHandle c
    if !(handle == ['!'] || isHandle handle) || !next.rest.head?.any isBlank then none
    else do
      let (text, next) ← readTagPart true (next.span isBlank).2
      if atBlank next.rest then
        some (.tagDirective (String.ofList handle) (String.ofList text), next)
      else none

/-- Reads a directive and the rest of its line. -/
def readDirective (c : Cursor) : Option (Token × Cursor) := do
  let (name, next) := (c.skip 1).span isWord
  if !atBlank next.rest then none
  else do
    let start := (next.span isBlank).2
    let (token, next) ←
      if name = "YAML".toList then readVersion start
      else if name = "TAG".toList then readTagDirective start
      else none
    let next := next.skipComment
    if atBreak next.rest then some (token, next.passBreak.2) else none

end Metamodel.Yaml
