import RouteFleet.Yaml.Tree

/-! # Putting nodes in the place of aliases

Each alias in a tree stands for the node with its anchor; of several nodes with one number, the last.
What comes of it may not nest too deeply, so a node that holds an alias of its own is refused, and
aliases may not be followed too often.
-/

namespace RouteFleet.Yaml

namespace Tree

mutual

/-- How many marks a tree consists of: one for a leaf, and two for a collection beside its parts. -/
def marks : Tree → Nat
  | .alias _ => 1
  | .scalar _ _ _ _ => 1
  | .sequence _ _ items => 2 + marksOfItems items
  | .mapping _ _ entries => 2 + marksOfEntries entries

/-- How many marks some trees consist of. -/
def marksOfItems : List Tree → Nat
  | [] => 0
  | t :: rest => marks t + marksOfItems rest

/-- How many marks some entries consist of. -/
def marksOfEntries : List (Tree × Tree) → Nat
  | [] => 0
  | (k, v) :: rest => marks k + marks v + marksOfEntries rest

end

/-- The number of a tree's own anchor. -/
def anchor? : Tree → Option Nat
  | .alias _ => none
  | .scalar anchor _ _ _ => anchor
  | .sequence anchor _ _ => anchor
  | .mapping anchor _ _ => anchor

mutual

/-- The parts of a tree that have anchors, in the order in which they begin. -/
def anchored : Tree → List (Nat × Tree)
  | .alias _ => []
  | .scalar anchor tag plain text =>
    (anchor.map fun n => (n, .scalar anchor tag plain text)).toList
  | .sequence anchor tag items =>
    (anchor.map fun n => (n, .sequence anchor tag items)).toList ++ anchoredItems items
  | .mapping anchor tag entries =>
    (anchor.map fun n => (n, .mapping anchor tag entries)).toList ++ anchoredEntries entries

/-- The parts of some trees that have anchors. -/
def anchoredItems : List Tree → List (Nat × Tree)
  | [] => []
  | t :: rest => anchored t ++ anchoredItems rest

/-- The parts of some entries that have anchors. -/
def anchoredEntries : List (Tree × Tree) → List (Nat × Tree)
  | [] => []
  | (k, v) :: rest => anchored k ++ anchored v ++ anchoredEntries rest

end

/-- How deeply collections may nest. -/
def depthLimit : Nat := 128

/-- How often aliases may be followed, for each mark of the document. -/
def followLimit : Nat := 100

/-- Expands aliases; the state is how often more one may be followed. -/
abbrev ExpandM := StateT Nat Option

/-- The tree itself, or the one that it is an alias of. -/
def follow (targets : List (Nat × Tree)) : Tree → ExpandM Tree
  | .alias n => do
    match ← get with
    | 0 => failure
    | left + 1 =>
      set left
      targets.lookup n
  | t => pure t

/-- Puts nodes in the place of aliases, in a tree that may nest as deeply as the last argument
says. -/
def expand (targets : List (Nat × Tree)) : Nat → Tree → ExpandM Node
  | 0, tree => do
    match ← follow targets tree with
    | .scalar _ tag plain text => return .scalar tag plain text
    | _ => failure
  | depth + 1, tree => do
    match ← follow targets tree with
    | .alias _ => failure
    | .scalar _ tag plain text => return .scalar tag plain text
    | .sequence _ tag items => return .sequence tag (← items.mapM (expand targets depth))
    | .mapping _ tag entries =>
      return .mapping tag (← entries.mapM fun e => do
        let key ← expand targets depth e.1
        return (key, ← expand targets depth e.2))

/-- The node that a tree stands for. -/
def toNode? (tree : Tree) : Option Node :=
  ((expand tree.anchored.reverse depthLimit tree).run (followLimit * tree.marks)).map (·.1)

end Tree

/-- Reads a text that holds one document; nothing written is a blank one. -/
def Node.ofText? (text : String) : Option Node := do
  (← Tree.ofTokens? (← Token.scan text.toList)).toNode?

end RouteFleet.Yaml
