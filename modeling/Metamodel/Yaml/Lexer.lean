import Metamodel.Yaml.Scalar
import Metamodel.Yaml.Tag

/-!
# Metamodel.Yaml.Lexer -- the tokens of a text

Outside of brackets the indentation opens and closes blocks. A key that is not marked is found late,
when the colon after it comes: so the place where a key may have started is kept as a candidate, one
for each pair of open brackets, and the token of the key is put there once the colon is met. A
candidate holds for one line and for 1024 bytes.
-/

namespace Metamodel.Yaml

/-- A place where a key may have started. -/
structure Candidate where
  /-- Nothing but a key can stand here. -/
  required : Bool
  /-- How many tokens come before it. -/
  number : Nat
  index : Nat
  line : Nat
  column : Nat

/-- Whether a candidate is too far behind for its colon to come. -/
def Candidate.isStale (k : Candidate) (c : Cursor) : Bool :=
  decide (k.line < c.line) || decide (k.index + 1024 < c.index)

/-- Gives up a stale candidate; nothing if that is an error. -/
def dropStale? (c : Cursor) : Option Candidate → Option (Option Candidate)
  | none => some none
  | some k =>
    if k.isStale c then (if k.required then none else some none) else some (some k)

/-- A text that has been read in part. -/
structure Lexer where
  cursor : Cursor
  tokens : Array Token
  /-- The columns of the open blocks, innermost first. -/
  blocks : List Nat
  candidate : Option Candidate
  /-- The candidates before each open bracket, innermost first. -/
  outer : List (Option Candidate)
  /-- Whether a key may start here. -/
  keyAllowed : Bool

namespace Lexer

/-- The start of a text. -/
def ofText (text : List Char) : Lexer := ⟨Cursor.ofText text, #[], [], none, [], true⟩

/-- Whether no bracket is open. -/
def inBlock (l : Lexer) : Bool := l.outer.isEmpty

/-- The least column of what belongs to the innermost block. -/
def depth (l : Lexer) : Nat :=
  match l.blocks with
  | [] => 0
  | column :: _ => column + 1

/-- Adds a token that ends at the given place. -/
def emit (l : Lexer) (token : Token) (c : Cursor) : Lexer :=
  { l with tokens := l.tokens.push token, cursor := c }

/-! ## Between tokens -/

/-- Passes blanks, comments and line breaks. Where a key may start outside of brackets, a tab does
not count as a blank. -/
def skipBlanks : Nat → Lexer → Lexer
  | 0, l => l
  | rounds + 1, l =>
    let c := l.cursor
    let c := if c.column == 0 && c.isAt '\ufeff' then c.skip 1 else c
    let tabs := !(l.inBlock && l.keyAllowed)
    let c := (c.span fun char => char == ' ' || (char == '\t' && tabs)).2
    let c := if c.isAt '#' then (c.span fun char => !isBreak char).2 else c
    if c.rest.isEmpty || !atBreak c.rest then { l with cursor := c }
    else
      skipBlanks rounds
        { l with cursor := c.passBreak.2, keyAllowed := l.inBlock || l.keyAllowed }

/-- Gives up all stale candidates. -/
def dropStale (l : Lexer) : Option Lexer := do
  let candidate ← dropStale? l.cursor l.candidate
  let outer ← l.outer.mapM (dropStale? l.cursor)
  some { l with candidate, outer }

/-! ## Blocks and candidates -/

/-- Outside of brackets, closes the innermost blocks whose columns meet a condition. -/
def closeBlocks (l : Lexer) (p : Nat → Bool) : Lexer :=
  if l.inBlock then
    let closed := l.blocks.takeWhile p
    { l with
      blocks := l.blocks.drop closed.length
      tokens := l.tokens ++ Array.replicate closed.length Token.blockEnd }
  else l

/-- Outside of brackets, opens a block at a column that is deeper than the open ones. Its token is
put where the given number of tokens come before it. -/
def openBlock (l : Lexer) (column number : Nat) (token : Token) : Lexer :=
  if l.inBlock && decide (l.depth ≤ column) then
    { l with
      blocks := column :: l.blocks
      tokens := l.tokens.insertIdxIfInBounds number token }
  else l

/-- Gives up the candidate; nothing if a key has to start there. -/
def dropCandidate (l : Lexer) : Option Lexer :=
  if l.candidate.any (·.required) then none else some { l with candidate := none }

/-- Takes this place for a candidate, if a key may start here. -/
def noteCandidate (l : Lexer) : Option Lexer :=
  if l.keyAllowed then do
    let l ← l.dropCandidate
    let c := l.cursor
    let required := l.inBlock && l.blocks.head? == some c.column
    some { l with candidate := some ⟨required, l.tokens.size, c.index, c.line, c.column⟩ }
  else some l

/-- Closes all blocks at the end of a document. -/
def closeDocument (l : Lexer) : Option Lexer := do
  let l ← (l.closeBlocks fun _ => true).dropCandidate
  some { l with keyAllowed := false }

/-- Opens the block that a mark of one character belongs to. Outside of brackets the mark may stand
only where a key may start. -/
def openMarked (l : Lexer) (block : Token) : Option Lexer :=
  if l.inBlock && !l.keyAllowed then none
  else some (l.openBlock l.cursor.column l.tokens.size block)

/-! ## Reading one token -/

/-- Reads a bracket that opens. -/
def readOpen (l : Lexer) (token : Token) : Option Lexer := do
  let l ← l.noteCandidate
  let l := l.emit token (l.cursor.skip 1)
  some { l with outer := l.candidate :: l.outer, candidate := none, keyAllowed := true }

/-- Reads a bracket that closes. -/
def readClose (l : Lexer) (token : Token) : Option Lexer := do
  let l ← l.dropCandidate
  let l := { l.emit token (l.cursor.skip 1) with keyAllowed := false }
  match l.outer with
  | [] => some l
  | candidate :: outer => some { l with candidate, outer }

/-- Reads a comma. -/
def readComma (l : Lexer) : Option Lexer := do
  let l ← l.dropCandidate
  some { l.emit .comma (l.cursor.skip 1) with keyAllowed := true }

/-- Reads the hyphen of an item. -/
def readEntry (l : Lexer) : Option Lexer := do
  let l ← l.openMarked .blockSequence
  let l ← l.dropCandidate
  some { l.emit .entry (l.cursor.skip 1) with keyAllowed := true }

/-- Reads the mark of a key. -/
def readKey (l : Lexer) : Option Lexer := do
  let l ← l.openMarked .blockMapping
  let l ← l.dropCandidate
  some { l.emit .key (l.cursor.skip 1) with keyAllowed := l.inBlock }

/-- Reads the colon before a value. What the candidate starts has been a key. -/
def readValue (l : Lexer) : Option Lexer :=
  match l.candidate with
  | some k =>
    let l := { l with tokens := l.tokens.insertIdxIfInBounds k.number .key }
    let l := l.openBlock k.column k.number .blockMapping
    some { l.emit .value (l.cursor.skip 1) with candidate := none, keyAllowed := false }
  | none => do
    let l ← l.openMarked .blockMapping
    some { l.emit .value (l.cursor.skip 1) with keyAllowed := l.inBlock }

/-- Reads a token that a key may start with and after which no key may start. -/
def readInline (l : Lexer) (read : Cursor → Option (Token × Cursor)) : Option Lexer := do
  let l ← l.noteCandidate
  let (token, c) ← read l.cursor
  some { l.emit token c with keyAllowed := false }

/-- Reads a plain scalar; after a line break a key may start again. -/
def readPlain (l : Lexer) : Option Lexer := do
  let l ← l.noteCandidate
  let (text, broken, c) ← Yaml.readPlain (!l.inBlock) l.depth l.cursor
  some { l.emit (.scalar (String.ofList text) .plain) c with keyAllowed := broken }

/-- Reads a block scalar. -/
def readBlock (l : Lexer) (style : Style) : Option Lexer := do
  let l ← l.dropCandidate
  let (text, c) ← Yaml.readBlock (style == .literal) l.depth l.cursor
  some { l.emit (.scalar (String.ofList text) style) c with keyAllowed := true }

/-- The name of an anchor or an alias as a token. -/
def named (token : String → Token) (c : Cursor) : Option (Token × Cursor) :=
  (readName c).map fun (name, next) => (token name, next)

/-- A quoted scalar as a token. -/
def quoted (single : Bool) (c : Cursor) : Option (Token × Cursor) :=
  (readQuoted single c).map fun (text, next) => (.scalar (String.ofList text) .quoted, next)

/-- Whether a character cannot start a plain scalar, wherever it stands. -/
def isMark (c : Char) : Bool :=
  "-?:,[]\x7b\x7d#&*!|>'\"%@\x60".toList.contains c

/-- Whether a plain scalar starts with this character. -/
def startsPlain (l : Lexer) (char : Char) (rest : List Char) : Bool :=
  !(isBlank char || isBreak char || isMark char) ||
    (char == '-' && !rest.head?.any isBlank) ||
    (l.inBlock && (char == '?' || char == ':') && !atBlank rest)

/-- Reads the token that starts with the given character. -/
def readToken (l : Lexer) (char : Char) (rest : List Char) : Option Lexer :=
  let c := l.cursor
  let markEnds := !l.inBlock || atBlank rest
  if c.column == 0 && char == '%' then do
    let l ← l.closeDocument
    let (token, next) ← readDirective c
    some (l.emit token next)
  else if c.atDocumentMark then do
    let l ← l.closeDocument
    some (l.emit (if char == '-' then .documentStart else .documentEnd) (c.skip 3))
  else if char == '[' then l.readOpen .sequenceOpen
  else if char == '\x7b' then l.readOpen .mappingOpen
  else if char == ']' then l.readClose .sequenceClose
  else if char == '\x7d' then l.readClose .mappingClose
  else if char == ',' then l.readComma
  else if char == '-' && atBlank rest then l.readEntry
  else if char == '?' && markEnds then l.readKey
  else if char == ':' && markEnds then l.readValue
  else if char == '*' then l.readInline (named .reference)
  else if char == '&' then l.readInline (named .anchor)
  else if char == '!' then l.readInline (readTag !l.inBlock)
  else if char == '|' && l.inBlock then l.readBlock .literal
  else if char == '>' && l.inBlock then l.readBlock .folded
  else if char == '\'' then l.readInline (quoted true)
  else if char == '"' then l.readInline (quoted false)
  else if l.startsPlain char rest then l.readPlain
  else none

/-- Reads the tokens up to the end of the text. -/
def readAll : Nat → Lexer → Option (List Token)
  | 0, _ => none
  | rounds + 1, l => do
    let l ← (l.skipBlanks (l.cursor.rest.length + 1)).dropStale
    let l := l.closeBlocks (l.cursor.column < ·)
    match l.cursor.rest with
    | [] => (l.closeDocument).map fun l => l.tokens.toList
    | char :: rest => do
      let l ← l.readToken char rest
      readAll rounds l

end Lexer

/-- The tokens of a text; nothing if it is malformed. -/
def tokens? (text : String) : Option (List Token) :=
  let chars := text.toList
  if chars.all isAllowed then (Lexer.ofText chars).readAll (chars.length + 1) else none

end Metamodel.Yaml
