import TokenSpacing.Construct
import TokenSpacing.Position

/-!
Syntax trees of tokens and nodes.

Every item carries a mark of the caller's choice, so that an answer about a tree can
name the items it is about.  A site is an item together with the node it hangs
below; the sites of a tree come in document order, each node before its children.
-/

namespace TokenSpacing

structure Token where
  text : String
  span : Span
  deriving DecidableEq, Repr

/-- What a node says about itself: the grammar's name for it, and the construct it
is, if any check cares about it. -/
structure Head where
  type : String
  construct : Option Construct
  span : Span
  deriving DecidableEq, Repr

inductive Tree (Mark : Type) where
  | leaf (mark : Mark) (token : Token)
  | node (mark : Mark) (head : Head) (children : List (Tree Mark))

structure Leaf (Mark : Type) where
  mark : Mark
  token : Token
  deriving DecidableEq, Repr

structure Node (Mark : Type) where
  mark : Mark
  head : Head
  children : List (Tree Mark)

structure Anchor (Mark : Type) where
  mark : Mark
  span : Span
  deriving DecidableEq, Repr

namespace Leaf

variable {Mark : Type}

def anchor (leaf : Leaf Mark) : Anchor Mark :=
  ⟨leaf.mark, leaf.token.span⟩

end Leaf

namespace Tree

variable {Mark : Type}

def mark : Tree Mark → Mark
  | leaf mark _ => mark
  | node mark _ _ => mark

def span : Tree Mark → Span
  | leaf _ token => token.span
  | node _ head _ => head.span

def toLeaf? : Tree Mark → Option (Leaf Mark)
  | leaf mark token => some ⟨mark, token⟩
  | node _ _ _ => none

def toNode? : Tree Mark → Option (Node Mark)
  | leaf _ _ => none
  | node mark head children => some ⟨mark, head, children⟩

def isToken (text : String) : Tree Mark → Bool
  | leaf _ token => token.text == text
  | node _ _ _ => false

/-- The token reached by following first children; a node without children has none. -/
def firstToken? : Tree Mark → Option (Leaf Mark)
  | leaf mark token => some ⟨mark, token⟩
  | node _ _ [] => none
  | node _ _ (first :: _) => first.firstToken?

mutual

def lastToken? : Tree Mark → Option (Leaf Mark)
  | leaf mark token => some ⟨mark, token⟩
  | node _ _ children => lastTokenAmong? children

def lastTokenAmong? : List (Tree Mark) → Option (Leaf Mark)
  | [] => none
  | [last] => last.lastToken?
  | _ :: next :: rest => lastTokenAmong? (next :: rest)

end

end Tree

namespace Node

variable {Mark : Type}

def toTree (node : Node Mark) : Tree Mark :=
  .node node.mark node.head node.children

def anchor (node : Node Mark) : Anchor Mark :=
  ⟨node.mark, node.head.span⟩

def tokens (node : Node Mark) : List (Leaf Mark) :=
  node.children.filterMap Tree.toLeaf?

def nodes (node : Node Mark) : List (Node Mark) :=
  node.children.filterMap Tree.toNode?

def token? (node : Node Mark) (text : String) : Option (Leaf Mark) :=
  node.tokens.find? (·.token.text == text)

end Node

structure Site (Mark : Type) where
  parent : Option (Node Mark)
  item : Tree Mark

namespace Tree

variable {Mark : Type}

mutual

def sites (parent : Option (Node Mark)) : Tree Mark → List (Site Mark)
  | leaf mark token => [⟨parent, leaf mark token⟩]
  | node mark head children =>
      ⟨parent, node mark head children⟩ :: sitesAmong ⟨mark, head, children⟩ children

def sitesAmong (parent : Node Mark) : List (Tree Mark) → List (Site Mark)
  | [] => []
  | child :: rest => child.sites (some parent) ++ sitesAmong parent rest

end

def walk (tree : Tree Mark) : List (Tree Mark) :=
  (tree.sites none).map Site.item

mutual

def outline (depth : Nat) : Tree Mark → List (Nat × Tree Mark)
  | leaf mark token => [(depth, leaf mark token)]
  | node mark head children =>
      (depth, node mark head children) :: outlineAmong (depth + 1) children

def outlineAmong (depth : Nat) : List (Tree Mark) → List (Nat × Tree Mark)
  | [] => []
  | child :: rest => child.outline depth ++ outlineAmong depth rest

end

mutual

def unmarked : Tree Mark → Tree Unit
  | leaf _ token => leaf () token
  | node _ head children => node () head (unmarkedAmong children)

def unmarkedAmong : List (Tree Mark) → List (Tree Unit)
  | [] => []
  | child :: rest => child.unmarked :: unmarkedAmong rest

end

def describe : Tree Mark → String
  | leaf _ token => "Token(" ++ Text.quote token.text ++ ", " ++ token.span.format ++ ")"
  | node _ head _ =>
      let shown := match head.construct with
        | none => ""
        | some construct => ", " ++ construct.name
      "Node(" ++ Text.quote head.type ++ shown ++ ", " ++ head.span.format ++ ")"

end Tree

/-- A parsed file: its tree, and the lines and the separator its positions refer to. -/
structure SourceUnit (Mark : Type) where
  file : String
  lines : List (List Char)
  separator : List Char
  root : Tree Mark

end TokenSpacing
