import TokenSpacing.Tree

/-!
Trees under construction.

Items are named by the order in which they were made.  Attaching an item appends it to
a node's children and makes that node its parent; it stays among the children of the
nodes it was attached to before.
-/

namespace TokenSpacing

inductive Content where
  | token (token : Token)
  | head (head : Head)
  deriving DecidableEq, Repr

structure Entry where
  content : Content
  children : List Nat
  parent : Option Nat
  deriving DecidableEq, Repr

structure Draft where
  entries : Array Entry

namespace Draft

def empty : Draft :=
  ⟨#[]⟩

def size (draft : Draft) : Nat :=
  draft.entries.size

/-- Makes an item that is attached nowhere; its name is the old size. -/
def make (draft : Draft) (content : Content) : Draft :=
  ⟨draft.entries.push ⟨content, [], none⟩⟩

def attach (draft : Draft) (parent item : Nat) : Draft :=
  let entries := draft.entries.modify item fun entry => { entry with parent := some parent }
  ⟨entries.modify parent fun entry => { entry with children := entry.children ++ [item] }⟩

def add (draft : Draft) (parent : Nat) (content : Content) : Draft :=
  (draft.make content).attach parent draft.size

def content? (draft : Draft) (item : Nat) : Option Content :=
  draft.entries[item]?.map Entry.content

def parent? (draft : Draft) (item : Nat) : Option Nat :=
  draft.entries[item]?.bind Entry.parent

def childrenOf (draft : Draft) (item : Nat) : List Nat :=
  (draft.entries[item]?.map Entry.children).getD []

def childCount (draft : Draft) (item : Nat) : Nat :=
  (draft.childrenOf item).length

def treeWithin (draft : Draft) : Nat → Nat → Option (Tree Nat)
  | 0, _ => none
  | depth + 1, item =>
      match draft.content? item with
      | none => none
      | some (.token token) => some (.leaf item token)
      | some (.head head) =>
          some (.node item head ((draft.childrenOf item).filterMap (draft.treeWithin depth)))

/-- The tree below an item.  No item hangs below itself, so the number of items bounds
the depth. -/
def tree? (draft : Draft) (item : Nat) : Option (Tree Nat) :=
  draft.treeWithin draft.size item

def node? (draft : Draft) (item : Nat) : Option (Node Nat) :=
  (draft.tree? item).bind Tree.toNode?

def site? (draft : Draft) (item : Nat) : Option (Site Nat) :=
  (draft.tree? item).map fun tree => ⟨(draft.parent? item).bind draft.node?, tree⟩

def walk (draft : Draft) (item : Nat) : List Nat :=
  ((draft.tree? item).map fun tree => tree.walk.map Tree.mark).getD []

def sites (draft : Draft) (item : Nat) : List (Site Nat) :=
  (draft.walk item).filterMap draft.site?

def pathAbove (above : List (Nat × Nat)) (depth : Nat) : List (Nat × Nat) :=
  above.dropWhile fun (level, _) => depth ≤ level

/-- Adds the items of an outline, each given with its depth, to a draft.  An item hangs
below the nearest earlier one that is less deep; `above` is the path to the last item. -/
def addOutline (draft : Draft) (above : List (Nat × Nat)) : List (Nat × Content) → Draft
  | [] => draft
  | (depth, content) :: rest =>
      let item := draft.size
      let path := pathAbove above depth
      let placed := match path with
        | [] => draft.make content
        | (_, parent) :: _ => draft.add parent content
      placed.addOutline ((depth, item) :: path) rest

def ofOutline (outline : List (Nat × Content)) : Draft :=
  empty.addOutline [] outline

end Draft

end TokenSpacing
