import Metamodel.Yaml.Lexer

/-!
# Metamodel.Yaml.Node -- the nodes of a document

A document is a tree of scalars, sequences and mappings, whose aliases name nodes that have been
anchored before. The readers below take a bound on how deep they call each other. Four times the
number of tokens is enough, since of four calls inside of each other one passes a token.
-/

namespace Metamodel.Yaml

/-- A scalar with the tag given to it. -/
structure Leaf where
  text : String
  style : Style
  tag : Option String
deriving DecidableEq, Repr

/-- A plain scalar without characters. -/
def Leaf.empty : Leaf := ⟨"", .plain, none⟩

/-- A part of a document. -/
inductive Node where
  | leaf (leaf : Leaf)
  | sequence (items : List Node)
  | mapping (pairs : List (Node × Node))
  /-- The node that is anchored with this number. -/
  | reference (number : Nat)

/-- What has been read of a document. -/
structure Progress where
  tokens : List Token
  /-- What tags start with, by their handles. -/
  handles : List (String × String)
  /-- The numbers of the anchors, by their names; later ones come first. -/
  anchors : List (String × Nat)
  /-- The anchored scalars by their numbers, nothing for a collection; later ones come first. -/
  targets : List (Nat × Option Leaf)

/-- A reader of parts of a document. -/
abbrev Reader := StateT Progress Option

namespace Reader

/-! ## Single tokens -/

/-- The next token. -/
def peek : Reader (Option Token) := do
  return (← get).tokens.head?

/-- Passes a token. -/
def skip : Reader Unit :=
  modify fun p => { p with tokens := p.tokens.tail }

/-- Passes the given token, if it comes next, and answers whether it did. -/
def skipIf (token : Token) : Reader Bool := do
  if (← peek) == some token then
    skip
    return true
  else return false

/-- Passes the given token, which has to come next. -/
def expect (token : Token) : Reader Unit := do
  if !(← skipIf token) then failure

/-- Whether one of the given tokens comes next. -/
def isAt (tokens : List Token) : Reader Bool := do
  return (← peek).any tokens.contains

/-! ## Properties of nodes -/

/-- Passes an anchor, if there is one. -/
def anchor? : Reader (Option String) := do
  match ← peek with
  | some (.anchor name) =>
    skip
    return some name
  | _ => return none

/-- The tag of a handle and a rest. -/
def resolveTag (handle suffix : String) : Reader String := do
  if handle.isEmpty then return suffix
  else match (← get).handles.lookup handle with
    | some start => return start ++ suffix
    | none => failure

/-- Passes a tag, if there is one. -/
def tag? : Reader (Option String) := do
  match ← peek with
  | some (.tag handle suffix) =>
    skip
    return some (← resolveTag handle suffix)
  | _ => return none

/-- Passes an anchor and a tag, in either order. -/
def properties : Reader (Option String × Option String) := do
  match ← anchor? with
  | some name => return (some name, ← tag?)
  | none =>
    let tag ← tag?
    return (← anchor?, tag)

/-- Registers an anchored node. Its number is how many names there were before. -/
def register (anchor : Option String) (leaf : Option Leaf) : Reader Unit := do
  match anchor with
  | none => return
  | some name =>
    modify fun p =>
      let number := p.anchors.length
      { p with
        anchors := (name, number) :: p.anchors.filter (·.1 != name)
        targets := (number, leaf) :: p.targets }

/-- Registers and returns a scalar. -/
def leaf (anchor : Option String) (leaf : Leaf) : Reader Node := do
  register anchor (some leaf)
  return .leaf leaf

/-- A scalar that is not written out. -/
def absent : Reader Node := return .leaf .empty

/-! ## Nodes -/

mutual

/-- Reads a node. Only where `block` holds may it be a block, and only where `level` holds may the
items of a sequence stand at the column of the mapping around it. -/
def node : Nat → Bool → Bool → Reader Node
  | 0, _, _ => failure
  | depth + 1, block, level => do
    match ← peek with
    | some (.reference name) =>
      skip
      match (← get).anchors.lookup name with
      | some number => return .reference number
      | none => failure
    | _ =>
      let (anchor, tag) ← properties
      match ← peek with
      | some (.scalar text style) =>
        skip
        leaf anchor ⟨text, style, if tag == some "!" then none else tag⟩
      | some .entry =>
        if level then
          register anchor none
          return .sequence (← levelItems depth)
        else bare anchor tag
      | some .sequenceOpen =>
        skip
        register anchor none
        return .sequence (← flowItems depth true)
      | some .mappingOpen =>
        skip
        register anchor none
        return .mapping (← flowPairs depth true)
      | some .blockSequence =>
        if block then
          skip
          register anchor none
          return .sequence (← blockItems depth)
        else bare anchor tag
      | some .blockMapping =>
        if block then
          skip
          register anchor none
          return .mapping (← blockPairs depth)
        else bare anchor tag
      | _ => bare anchor tag

/-- A node of which only an anchor or a tag is written. -/
def bare (anchor tag : Option String) : Reader Node :=
  if anchor.isNone && tag.isNone then failure else leaf anchor ⟨"", .plain, tag⟩

/-- Reads a node, unless one of the given tokens comes next. -/
def nodeUnless : Nat → List Token → Bool → Bool → Reader Node
  | 0, _, _, _ => failure
  | depth + 1, stops, block, level => do
    if ← isAt stops then absent else node depth block level

/-- Reads the items of a block of their own. -/
def blockItems : Nat → Reader (List Node)
  | 0 => failure
  | depth + 1 => do
    if ← skipIf .entry then
      let item ← nodeUnless depth [.entry, .blockEnd] true false
      return item :: (← blockItems depth)
    else
      expect .blockEnd
      return []

/-- Reads items at the column of the mapping around them. -/
def levelItems : Nat → Reader (List Node)
  | 0 => failure
  | depth + 1 => do
    if ← skipIf .entry then
      let item ← nodeUnless depth [.entry, .key, .value, .blockEnd] true false
      return item :: (← levelItems depth)
    else return []

/-- Reads the pairs of a block. -/
def blockPairs : Nat → Reader (List (Node × Node))
  | 0 => failure
  | depth + 1 => do
    if ← skipIf .key then
      let key ← nodeUnless depth [.key, .value, .blockEnd] true true
      let value ←
        if ← skipIf .value then nodeUnless depth [.key, .value, .blockEnd] true true else absent
      return (key, value) :: (← blockPairs depth)
    else
      expect .blockEnd
      return []

/-- Reads the items between brackets. All but the first follow a comma. -/
def flowItems : Nat → Bool → Reader (List Node)
  | 0, _ => failure
  | depth + 1, first => do
    if ← skipIf .sequenceClose then return []
    else
      if !first then expect .comma
      if ← skipIf .sequenceClose then return []
      else
        let item ← if ← skipIf .key then flowPair depth else node depth false false
        return item :: (← flowItems depth false)

/-- Reads a mapping of one pair between brackets. Where the key is not written, the token after
its mark is passed. -/
def flowPair : Nat → Reader Node
  | 0 => failure
  | depth + 1 => do
    let key ←
      if ← isAt [.value, .comma, .sequenceClose] then
        skip
        absent
      else node depth false false
    let value ←
      if ← skipIf .value then nodeUnless depth [.comma, .sequenceClose] false false else absent
    return .mapping [(key, value)]

/-- Reads the pairs between braces. All but the first follow a comma. -/
def flowPairs : Nat → Bool → Reader (List (Node × Node))
  | 0, _ => failure
  | depth + 1, first => do
    if ← skipIf .mappingClose then return []
    else
      if !first then expect .comma
      if ← skipIf .key then
        let key ← nodeUnless depth [.value, .comma, .mappingClose] false false
        let value ←
          if ← skipIf .value then nodeUnless depth [.comma, .mappingClose] false false
          else absent
        return (key, value) :: (← flowPairs depth false)
      else if ← skipIf .mappingClose then return []
      else
        let key ← node depth false false
        return (key, .leaf .empty) :: (← flowPairs depth false)

end

end Reader

end Metamodel.Yaml
