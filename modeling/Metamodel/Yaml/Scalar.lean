import Metamodel.Yaml.Cursor

/-!
# Metamodel.Yaml.Scalar -- reading scalars

Plain and quoted scalars may run over several lines, which are folded: a single line break is read
as a space, of several the first is dropped. Block scalars keep their lines or fold them. Each
reader returns nothing where the scalar is malformed. The loops take a bound on their rounds, for
which the length of the text is enough, since each round passes a character.
-/

namespace Metamodel.Yaml

/-! ## Blanks between lines -/

/-- Blanks and line breaks inside of a scalar. -/
structure Gap where
  /-- Blanks before the first line break. -/
  blanks : List Char
  /-- The first line break. -/
  first : List Char
  /-- Further line breaks. -/
  others : List Char
  /-- Whether a line break has been passed. -/
  broken : Bool

/-- No blanks. -/
def Gap.none : Gap := ⟨[], [], [], false⟩

/-- A gap after a line break that is not to be read. -/
def Gap.joined : Gap := ⟨[], [], [], true⟩

/-- What a gap contributes to a scalar. -/
def Gap.text (g : Gap) : List Char :=
  if g.broken then
    if g.first = ['\n'] then (if g.others = [] then [' '] else g.others) else g.first ++ g.others
  else g.blanks

/-- Passes blanks and line breaks. A tab may not stand in the indentation, left of `indent`. -/
def passGap (indent : Nat) : Nat → Gap → Cursor → Option (Gap × Cursor)
  | 0, g, c => some (g, c)
  | rounds + 1, g, c =>
    match c.rest with
    | [] => some (g, c)
    | char :: _ =>
      if isBlank char then
        if g.broken then
          if char == '\t' && decide (c.column < indent) then Option.none
          else passGap indent rounds g (c.skip 1)
        else passGap indent rounds { g with blanks := g.blanks ++ [char] } (c.skip 1)
      else if isBreak char then
        let (line, next) := c.passBreak
        if g.broken then passGap indent rounds { g with others := g.others ++ line } next
        else passGap indent rounds ⟨[], line, [], true⟩ next
      else some (g, c)

/-! ## Plain scalars -/

/-- The characters that have a meaning of their own between brackets. -/
def isFlowMark (c : Char) : Bool :=
  c == ',' || c == '[' || c == ']' || c == '\x7b' || c == '\x7d'

/-- The characters of a plain scalar up to a blank or to a mark that ends it. -/
def plainRun (flow : Bool) : List Char → Option (List Char)
  | [] => some []
  | c :: rest =>
    if isBlank c || isBreak c then some []
    else if flow && c == ':' && rest.head?.any (fun d => isFlowMark d || d == '?') then Option.none
    else if (c == ':' && atBlank rest) || (flow && isFlowMark c) then some []
    else (plainRun flow rest).map (c :: ·)

/-- Reads a plain scalar, with the gap before the next run and the text so far. Also answers whether
the scalar has been followed by a line break. -/
def plainLoop (flow : Bool) (indent : Nat) :
    Nat → Gap → List Char → Cursor → Option (List Char × Bool × Cursor)
  | 0, g, text, c => some (text, g.broken, c)
  | rounds + 1, g, text, c =>
    if c.atDocumentMark || c.isAt '#' then some (text, g.broken, c)
    else do
      let run ← plainRun flow c.rest
      let next := c.skip run.length
      let (g, text) := if run.isEmpty then (g, text) else (Gap.none, text ++ g.text ++ run)
      if next.rest.isEmpty || !atBlank next.rest then some (text, g.broken, next)
      else do
        let (g, after) ← passGap indent (next.rest.length + 1) g next
        if !flow && decide (after.column < indent) then some (text, g.broken, after)
        else plainLoop flow indent rounds g text after

/-- Reads a plain scalar. -/
def readPlain (flow : Bool) (indent : Nat) (c : Cursor) : Option (List Char × Bool × Cursor) :=
  plainLoop flow indent (c.rest.length + 1) Gap.none [] c

/-! ## Quoted scalars -/

/-- The character that a letter after a backslash stands for. -/
def escaped? : Char → Option Nat
  | '0' => some 0x00
  | 'a' => some 0x07
  | 'b' => some 0x08
  | 't' => some 0x09
  | '\t' => some 0x09
  | 'n' => some 0x0A
  | 'v' => some 0x0B
  | 'f' => some 0x0C
  | 'r' => some 0x0D
  | 'e' => some 0x1B
  | ' ' => some 0x20
  | '"' => some 0x22
  | '/' => some 0x2F
  | '\\' => some 0x5C
  | 'N' => some 0x85
  | '_' => some 0xA0
  | 'L' => some 0x2028
  | 'P' => some 0x2029
  | _ => none

/-- How many digits follow a letter that introduces a code point. -/
def codeLength? : Char → Option Nat
  | 'x' => some 2
  | 'u' => some 4
  | 'U' => some 8
  | _ => none

/-- The character of a code point given in base sixteen. -/
def codePoint? (digits : List Char) : Option Char := do
  let n ← digits.foldlM (fun n c => (hexValue? c).map (16 * n + ·)) 0
  if (0xD800 ≤ n ∧ n ≤ 0xDFFF) ∨ 0x10FFFF < n then none else some (Char.ofNat n)

/-- What ends a run of a quoted scalar. -/
inductive RunEnd where
  | quote
  | blank
  /-- A backslash before a line break. -/
  | joined

/-- The characters of a quoted scalar up to a blank or the closing quote. -/
def quotedRun (single : Bool) : Nat → List Char → Cursor → Option (List Char × RunEnd × Cursor)
  | 0, _, _ => none
  | rounds + 1, text, c =>
    match c.rest with
    | [] => some (text, .blank, c)
    | char :: rest =>
      if isBlank char || isBreak char then some (text, .blank, c)
      else if single then
        if char == '\'' then
          if rest.head? == some '\'' then quotedRun single rounds (text ++ ['\'']) (c.skip 2)
          else some (text, .quote, c)
        else quotedRun single rounds (text ++ [char]) (c.skip 1)
      else if char == '"' then some (text, .quote, c)
      else if char == '\\' then
        match rest with
        | [] => none
        | letter :: after =>
          if isBreak letter then some (text, .joined, (c.skip 1).passBreak.2)
          else match codeLength? letter with
            | some n =>
              if after.length < n then none
              else do
                let point ← codePoint? (after.take n)
                quotedRun single rounds (text ++ [point]) (c.skip (2 + n))
            | none => do
              let n ← escaped? letter
              quotedRun single rounds (text ++ [Char.ofNat n]) (c.skip 2)
      else quotedRun single rounds (text ++ [char]) (c.skip 1)

/-- Reads the rest of a quoted scalar after its opening quote. -/
def quotedLoop (single : Bool) : Nat → List Char → Cursor → Option (List Char × Cursor)
  | 0, _, _ => none
  | rounds + 1, text, c =>
    if c.atDocumentMark || c.rest.isEmpty then none
    else do
      let (text, stop, next) ← quotedRun single (c.rest.length + 1) text c
      match stop with
      | .quote => some (text, next.skip 1)
      | .blank => do
        let (g, after) ← passGap 0 (next.rest.length + 1) Gap.none next
        quotedLoop single rounds (text ++ g.text) after
      | .joined =>
        if (if single then next.isAt '\'' else next.isAt '"') then some (text, next.skip 1)
        else do
          let (g, after) ← passGap 0 (next.rest.length + 1) Gap.joined next
          quotedLoop single rounds (text ++ g.text) after

/-- Reads a quoted scalar. -/
def readQuoted (single : Bool) (c : Cursor) : Option (List Char × Cursor) :=
  quotedLoop single (c.rest.length + 1) [] (c.skip 1)

/-! ## Block scalars -/

/-- What happens to the line breaks at the end of a block scalar. -/
inductive Chomp where
  | strip
  | clip
  | keep
deriving DecidableEq

/-- The sign of a chomping mark. -/
def Chomp.ofMark? : Char → Option Chomp
  | '-' => some .strip
  | '+' => some .keep
  | _ => none

/-- The digit of an indentation mark. -/
def incrementOf? (c : Char) : Option Nat :=
  if '0' ≤ c ∧ c ≤ '9' then some (c.toNat - 48) else none

/-- Reads the marks after the bar or the angle of a block scalar, in either order. -/
def readHeader (c : Cursor) : Option (Chomp × Nat × Cursor) :=
  match c.peek? with
  | none => some (.clip, 0, c)
  | some first =>
    match Chomp.ofMark? first, incrementOf? first with
    | some chomp, _ =>
      let next := c.skip 1
      match next.peek?.bind incrementOf? with
      | some 0 => none
      | some n => some (chomp, n, next.skip 1)
      | none => some (chomp, 0, next)
    | none, some 0 => none
    | none, some n =>
      let next := c.skip 1
      match next.peek?.bind Chomp.ofMark? with
      | some chomp => some (chomp, n, next.skip 1)
      | none => some (.clip, n, next)
    | none, none => some (.clip, 0, c)

/-- Passes indentation and empty lines. The indentation `0` is yet to be found; answers the line
breaks and the deepest column. -/
def blockBreaks (indent : Nat) :
    Nat → List Char → Nat → Cursor → Option (List Char × Nat × Cursor)
  | 0, breaks, deepest, c => some (breaks, deepest, c)
  | rounds + 1, breaks, deepest, c =>
    let spaces := (c.rest.takeWhile (· == ' ')).length
    let c := c.skip (if indent = 0 then spaces else min spaces (indent - c.column))
    let deepest := max deepest c.column
    if (indent = 0 ∨ c.column < indent) ∧ c.isAt '\t' then none
    else if c.rest.isEmpty || !atBreak c.rest then some (breaks, deepest, c)
    else
      let (line, next) := c.passBreak
      blockBreaks indent rounds (breaks ++ line) deepest next

/-- A line break between two lines of a block scalar, and the empty lines after it. -/
def blockJoint (literal blankBefore blankAfter : Bool) (first others : List Char) : List Char :=
  if !literal && first = ['\n'] && !blankBefore && !blankAfter then
    (if others = [] then [' '] else others)
  else first ++ others

/-- Reads the lines of a block scalar. The answer is the text, the last line break, the empty lines
after it, and the rest. -/
def blockLines (literal : Bool) (indent : Nat) :
    Nat → List Char → Bool → List Char → List Char → Cursor →
      Option (List Char × List Char × List Char × Cursor)
  | 0, text, _, first, others, c => some (text, first, others, c)
  | rounds + 1, text, blankBefore, first, others, c =>
    if c.column = indent ∧ !c.rest.isEmpty then do
      let blank := c.rest.head?.any isBlank
      let (line, next) := c.span fun char => !isBreak char
      let text := text ++ blockJoint literal blankBefore blank first others ++ line
      let (first, next) := next.passBreak
      let (others, _, next) ← blockBreaks indent (next.rest.length + 1) [] 0 next
      blockLines literal indent rounds text blank first others next
    else some (text, first, others, c)

/-- Reads a block scalar. Blocks inside of the block around it start at the column `depth`. -/
def readBlock (literal : Bool) (depth : Nat) (c : Cursor) : Option (List Char × Cursor) := do
  let (chomp, increment, c) ← readHeader (c.skip 1)
  let c := c.skipComment
  if !atBreak c.rest then none
  else do
    let (_, c) := c.passBreak
    let given := if increment = 0 then 0 else depth - 1 + increment
    let (others, deepest, c) ← blockBreaks given (c.rest.length + 1) [] 0 c
    let indent := if given = 0 then max deepest (max depth 1) else given
    let (text, first, others, c) ←
      blockLines literal indent (c.rest.length + 1) [] false [] others c
    let tail := match chomp with
      | .strip => []
      | .clip => first
      | .keep => first ++ others
    some (text ++ tail, c)

end Metamodel.Yaml
