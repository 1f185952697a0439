import Metamodel.Yaml.Node

/-!
# Metamodel.Yaml.Document -- the document of a text

A text holds one document or none. A document may start with directives, which three hyphens have to
follow, or with the hyphens, or without any mark; it ends with the text or with three points.
-/

namespace Metamodel.Yaml

/-- The tree of a document and the scalars that its aliases may stand for. -/
structure Document where
  root : Node
  targets : List (Nat × Option Leaf)

/-- The scalar that a node is or stands for. Of the nodes that were anchored with one number the
last one counts. -/
def Document.leaf? (d : Document) : Node → Option Leaf
  | .leaf leaf => some leaf
  | .reference number => (d.targets.lookup number).join
  | _ => none

/-- Whether a token is a directive. -/
def Token.isDirective : Token → Bool
  | .version .. => true
  | .tagDirective .. => true
  | _ => false

/-- What directives have said: whether a version was given, and what handles stand for. -/
abbrev Directives := Bool × List (String × String)

/-- Adds a directive. The version is 1.1 or 1.2, and nothing is said twice. -/
def Directives.add? (d : Directives) : Token → Option Directives
  | .version major minor =>
    if d.1 || major != 1 || !(minor == 1 || minor == 2) then none else some (true, d.2)
  | .tagDirective handle start =>
    if (d.2.lookup handle).isSome then none else some (d.1, (handle, start) :: d.2)
  | _ => none

/-- What handles stand for where no directive says it. -/
def standardHandles : List (String × String) :=
  [("!", "!"), ("!!", "tag:yaml.org,2002:")]

/-- Reads the document of a list of tokens, which is not empty. -/
def documentOf? (tokens : List Token) : Option Document := do
  let (directives, rest) := tokens.span Token.isDirective
  let (_, handles) ← directives.foldlM Directives.add? (false, [])
  let explicit := rest.head? == some .documentStart
  if !explicit && !directives.isEmpty then none
  else do
    let content := if explicit then rest.tail else rest
    let start : Progress := ⟨content, handles ++ standardHandles, [], []⟩
    let depth := 4 * tokens.length + 4
    let stops := [Token.documentStart, .documentEnd]
    let (root, progress) ←
      if explicit && content.head?.all (fun t => t.isDirective || stops.contains t) then
        Reader.absent.run start
      else (Reader.node depth true false).run start
    if progress.tokens.all (· == .documentEnd) then some ⟨root, progress.targets⟩ else none

/-- The document of a text, if there is one; nothing at all if the text is malformed. -/
def document? (text : String) : Option (Option Document) := do
  let tokens ← tokens? text
  if tokens.isEmpty then some none else (documentOf? tokens).map some

end Metamodel.Yaml
