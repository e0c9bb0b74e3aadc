import TokenSpacing.Proofs.Dimensions

/-!
# First and last tokens

Following first children leads to the first token that a walk meets, and following last
children to the last one, unless an empty node lies on the way.  Conversion makes no empty
node below its root where every concrete node starts and ends with something that leaves an
item.
-/

namespace TokenSpacing

variable {Mark : Type}

namespace Tree

/-! ## A walk by a stack -/

theorem sizeOf_append_lt (children waiting : List (Tree Mark)) :
    sizeOf (children ++ waiting) < sizeOf children + sizeOf waiting := by
  induction children with
  | nil => simp
  | cons child rest ih =>
      simp only [List.cons_append, List.cons.sizeOf_spec]
      omega

/-- The items that a stack gives, whose top is the head of the list.  An item that is taken
off leaves its children on the stack. -/
def unstack : List (Tree Mark) → List (Tree Mark)
  | [] => []
  | leaf mark token :: waiting => leaf mark token :: unstack waiting
  | node mark head children :: waiting =>
      node mark head children :: unstack (children ++ waiting)
termination_by waiting => sizeOf waiting
decreasing_by
  · simp only [List.cons.sizeOf_spec]
    omega
  · have hchildren := sizeOf_append_lt children waiting
    simp only [List.cons.sizeOf_spec, node.sizeOf_spec]
    omega

theorem unstack_eq_flatMap_walk (waiting : List (Tree Mark)) :
    unstack waiting = waiting.flatMap walk := by
  fun_induction unstack waiting with
  | case1 => rfl
  | case2 mark token waiting ih => simp [ih]
  | case3 mark head children waiting ih => simp [ih]

/-! ## Tokens at the ends of a walk -/

def leaves (tree : Tree Mark) : List (Leaf Mark) :=
  (unstack [tree]).filterMap toLeaf?

@[simp] theorem leaves_leaf (mark : Mark) (token : Token) :
    (leaf mark token).leaves = [⟨mark, token⟩] := by
  simp [leaves, unstack, toLeaf?]

@[simp] theorem leaves_node (mark : Mark) (head : Head) (children : List (Tree Mark)) :
    (node mark head children).leaves = children.flatMap leaves := by
  have hleaves : (leaves : Tree Mark → List (Leaf Mark)) =
      fun tree => tree.walk.filterMap toLeaf? := by
    funext tree
    simp [leaves, unstack_eq_flatMap_walk]
  simp only [hleaves, walk_node, List.filterMap_cons, toLeaf?, List.filterMap_flatMap]

def Filled (tree : Tree Mark) : Prop :=
  ∀ node : Node Mark, node.toTree ∈ tree.walk → node.children ≠ []

theorem Filled.of_mem_walk {tree item : Tree Mark} (htree : tree.Filled)
    (hitem : item ∈ tree.walk) : item.Filled :=
  fun node hnode => htree node (walk_subset_of_mem_walk hitem hnode)

theorem filled_leaf (mark : Mark) (token : Token) : (leaf mark token).Filled := by
  intro node hnode
  simp [Node.toTree] at hnode

theorem filled_node_iff {mark : Mark} {head : Head} {children : List (Tree Mark)} :
    (node mark head children).Filled ↔
      children ≠ [] ∧ ∀ child ∈ children, child.Filled := by
  constructor
  · intro hfilled
    refine ⟨hfilled ⟨mark, head, children⟩ (self_mem_walk _), ?_⟩
    intro child hchild
    exact hfilled.of_mem_walk (walk_subset_of_mem_children hchild (self_mem_walk child))
  · rintro ⟨hchildren, hbelow⟩ found hfound
    rw [walk_node, List.mem_cons, List.mem_flatMap] at hfound
    rcases hfound with hroot | ⟨child, hchild, hmem⟩
    · cases hroot
      exact hchildren
    · exact hbelow child hchild found hmem

def EndsWalk (tree : Tree Mark) : Prop :=
  ∃ first last, tree.firstToken? = some first ∧ tree.lastToken? = some last ∧
    tree.leaves.head? = some first ∧ tree.leaves.getLast? = some last

theorem Filled.endsWalk {tree : Tree Mark} (htree : tree.Filled) : tree.EndsWalk := by
  induction tree using induction with
  | leaf mark token => exact ⟨⟨mark, token⟩, ⟨mark, token⟩, by simp [firstToken?, lastToken?]⟩
  | node mark head children ih =>
      obtain ⟨hchildren, hbelow⟩ := filled_node_iff.mp htree
      have hends : ∀ child ∈ children, child.EndsWalk := fun child hchild =>
        ih child hchild (hbelow child hchild)
      have hfirst : ∃ first, (node mark head children).firstToken? = some first ∧
          (node mark head children).leaves.head? = some first := by
        cases children with
        | nil => exact absurd rfl hchildren
        | cons child rest =>
            obtain ⟨first, -, hfirst, -, hhead, -⟩ := hends child List.mem_cons_self
            exact ⟨first, by simp [firstToken?, hfirst], by simp [hhead]⟩
      have hlast : ∃ last, (node mark head children).lastToken? = some last ∧
          (node mark head children).leaves.getLast? = some last := by
        rcases List.eq_nil_or_concat children with hnil | ⟨earlier, child, rfl⟩
        · exact absurd hnil hchildren
        · rw [List.concat_eq_append] at hends ⊢
          obtain ⟨-, last, -, hlast, -, hgetLast⟩ := hends child (by simp)
          exact ⟨last, by simp [lastToken?, lastTokenAmong?_concat, hlast], by simp [hgetLast]⟩
      obtain ⟨first, hfirst, hhead⟩ := hfirst
      obtain ⟨last, hlast, hgetLast⟩ := hlast
      exact ⟨first, last, hfirst, hlast, hhead, hgetLast⟩

end Tree

namespace Java.Concrete

/-! ## Conversion leaves no node empty -/

def Remains (tree : Concrete) : Prop :=
  tree.isComment = false ∧ (tree.type = "dimensions" → tree.children ≠ [])

instance (tree : Concrete) : Decidable tree.Remains :=
  inferInstanceAs (Decidable (_ ∧ (_ → _)))

/-- The first and the last child of a node remain. -/
structure FirmEnds (tree : Concrete) : Prop where
  first : ∀ child ∈ tree.children.head?, child.Remains
  last : ∀ child ∈ tree.children.getLast?, child.Remains

instance (tree : Concrete) : Decidable tree.FirmEnds :=
  decidable_of_iff
    ((∀ child ∈ tree.children.head?, child.Remains) ∧
      ∀ child ∈ tree.children.getLast?, child.Remains)
    ⟨fun h => ⟨h.1, h.2⟩, fun h => ⟨h.first, h.last⟩⟩

variable {source : SourceBytes}

theorem FirmEnds.kept_ne_nil {tree : Concrete} (htree : tree.FirmEnds)
    (hchildren : tree.children ≠ []) : tree.children.filter (!·.isComment) ≠ [] := by
  have hfirst := htree.first
  cases hsplit : tree.children with
  | nil => exact absurd hsplit hchildren
  | cons child rest =>
      rw [hsplit] at hfirst
      have hkept : child.isComment = false := (hfirst child rfl).1
      simp [hkept]

theorem ne_nil_of_replaces {place : Opening} {child : Concrete} {part : List (Tree Unit)}
    (hreplaces : place.Replaces source child part) (hremains : child.Remains)
    (hchild : child.FirmEnds) : part ≠ [] := by
  cases hreplaces with
  | comment hcomment =>
      rw [hremains.1] at hcomment
      contradiction
  | @dimensions groups rest arrayTypes items htype howner hcut hgroups hrest =>
      have hkept := hchild.kept_ne_nil (hremains.2 htype)
      rw [hcut.whole] at hkept
      intro hnone
      obtain ⟨rfl, rfl⟩ := List.append_eq_nil_iff.mp hnone
      rw [List.forall₂_nil_right_iff] at hgroups hrest
      simp [hgroups, hrest] at hkept
  | item hcomment hwhole hitem => simp

def Fills (source : SourceBytes) (tree : Concrete) : Prop :=
  (∀ below ∈ tree.nodes, below.FirmEnds) →
    ∀ parent item, convertItem source parent tree = .ok item → item.Filled

theorem filled_of_becomes {parent : Concrete} {children : List Concrete}
    {items : List (Tree Unit)} (hbelow : ∀ child ∈ children, child.Fills source)
    (hfirm : ∀ child ∈ children, ∀ below ∈ child.nodes, below.FirmEnds)
    (hitems : List.Forall₂ (Becomes source parent) children items) :
    ∀ item ∈ items, item.Filled := by
  intro item hitem
  obtain ⟨child, hchild, hbecomes⟩ := exists_left_of_mem hitems hitem
  exact hbelow child hchild (hfirm child hchild) _ item hbecomes.converts

theorem filled_of_replaces {place : Opening} {child : Concrete} {part : List (Tree Unit)}
    (hbelow : child.Fills source ∧ ∀ piece ∈ child.children, piece.Fills source)
    (hfirm : ∀ below ∈ child.nodes, below.FirmEnds)
    (hreplaces : place.Replaces source child part) : ∀ item ∈ part, item.Filled := by
  cases hreplaces with
  | comment hcomment => simp
  | @dimensions groups rest arrayTypes items htype howner hcut hgroups hrest =>
      have hpieces : ∀ piece ∈ groups.flatMap BracketGroup.parts ++ rest,
          piece.Fills source ∧ ∀ below ∈ piece.nodes, below.FirmEnds := by
        intro piece hpiece
        rw [← hcut.whole] at hpiece
        have hmem := List.mem_of_mem_filter hpiece
        cases child
        exact ⟨hbelow.2 piece hmem, (forall_nodes_iff.mp hfirm).2 piece hmem⟩
      rw [List.forall_mem_append] at hpieces ⊢
      constructor
      · intro item hitem
        obtain ⟨group, hgroup, hmakes⟩ := exists_left_of_mem hgroups hitem
        have hparts : ∀ piece ∈ group.parts,
            piece.Fills source ∧ ∀ below ∈ piece.nodes, below.FirmEnds :=
          fun piece hpiece => hpieces.1 piece (List.mem_flatMap.mpr ⟨group, hgroup, hpiece⟩)
        cases hmakes with
        | intro hstart hinner =>
            refine Tree.filled_node_iff.mpr ⟨?_, filled_of_becomes (fun piece hpiece =>
              (hparts piece hpiece).1) (fun piece hpiece => (hparts piece hpiece).2) hinner⟩
            rintro rfl
            simp [BracketGroup.parts] at hinner
      · exact filled_of_becomes (fun piece hpiece => (hpieces.2 piece hpiece).1)
          (fun piece hpiece => (hpieces.2 piece hpiece).2) hrest
  | item hcomment hwhole hitem =>
      rw [List.forall_mem_singleton]
      exact hbelow.1 hfirm _ _ hitem.converts

theorem filled_of_convertChildren (place : Opening) {items : List (Tree Unit)}
    (hbelow : ∀ child ∈ place.owner.children,
      child.Fills source ∧ ∀ piece ∈ child.children, piece.Fills source)
    (hfirm : ∀ child ∈ place.owner.children, ∀ below ∈ child.nodes, below.FirmEnds)
    (hitems : convertChildren source place.parent place.owner place.owner.children = .ok items) :
    (∀ item ∈ items, item.Filled) ∧
      (place.owner.FirmEnds → place.owner.children ≠ [] → items ≠ []) := by
  obtain ⟨parts, rfl, hparts⟩ := convertChildren_replaces place hitems
  constructor
  · intro item hitem
    obtain ⟨part, hpart, hmem⟩ := List.mem_flatten.mp hitem
    obtain ⟨child, hchild, hreplaces⟩ := exists_left_of_mem hparts hpart
    exact filled_of_replaces (hbelow child hchild) (hfirm child hchild) hreplaces item hmem
  · intro howner hchildren
    have hfirst := howner.first
    cases hall : place.owner.children with
    | nil => exact absurd hall hchildren
    | cons child rest =>
        rw [hall] at hparts hfirst hfirm
        obtain ⟨part, later, hreplaces, -, rfl⟩ := List.forall₂_cons_left_iff.mp hparts
        have hnodes := hfirm child List.mem_cons_self
        have hfirm : child.FirmEnds := by
          cases child
          exact (forall_nodes_iff.mp hnodes).1
        have hpart := ne_nil_of_replaces hreplaces (hfirst child rfl) hfirm
        simp [hpart]

theorem fills (tree : Concrete) : tree.Fills source := by
  refine (induction (motive := Fills source) ?_ tree).1
  intro info children hbelow hfirm parent item hitem
  rw [convertItem_eq] at hitem
  split at hitem
  next =>
    simp only [bind_eq_ok_iff, pure_eq_ok_iff] at hitem
    obtain ⟨token, -, rfl⟩ := hitem
    exact Tree.filled_leaf () token
  next hopen =>
    simp only [bind_eq_ok_iff, pure_eq_ok_iff] at hitem
    obtain ⟨items, hitems, rfl⟩ := hitem
    obtain ⟨hroot, hchildren⟩ := forall_nodes_iff.mp hfirm
    have hnonempty : children ≠ [] := by
      rintro rfl
      simp [children_node] at hopen
    obtain ⟨hfilled, hsome⟩ :=
      filled_of_convertChildren ⟨parent, node info children⟩ hbelow hchildren hitems
    exact Tree.filled_node_iff.mpr ⟨hsome hroot hnonempty, hfilled⟩

theorem filled_of_convert {root : Concrete} {tree : Tree Unit}
    (hfirm : ∀ below ∈ nodesAmong root.children, below.FirmEnds)
    (htree : root.convert source = .ok tree) :
    ∀ item ∈ tree.walk.tail, item.Filled := by
  have hchildren : ∀ child ∈ root.children, ∀ below ∈ child.nodes, below.FirmEnds :=
    fun child hchild below hbelow => hfirm below (mem_nodesAmong.mpr ⟨child, hchild, hbelow⟩)
  rw [convert_eq] at htree
  split at htree
  next => cases htree
  next =>
    simp only [bind_eq_ok_iff, pure_eq_ok_iff] at htree
    obtain ⟨items, hitems, rfl⟩ := htree
    have hfilled := (filled_of_convertChildren ⟨none, root⟩
      (fun child _ => ⟨fills child, fun piece _ => fills piece⟩) hchildren hitems).1
    intro item hitem
    rw [Tree.walk_node, List.tail_cons] at hitem
    obtain ⟨child, hchild, hmem⟩ := List.mem_flatMap.mp hitem
    exact (hfilled child hchild).of_mem_walk hmem

/--
First and last tokens are the ends of the walk.  In a tree whose nodes all have children,
following first children from a node leads to the first token that a walk of the node meets,
and following last children to the last; the stack visits the items of the walk in their
order.  A converted tree has no empty node but perhaps its root, if the first and the last
child of every concrete node below the root remain.
-/
theorem ends_meet_walk :
    (∀ (Mark : Type) (tree : Tree Mark), tree.Filled →
        ∀ node : Node Mark, node.toTree ∈ tree.walk →
          Tree.unstack [node.toTree] = node.toTree.walk ∧ node.toTree.EndsWalk) ∧
      ∀ (source : SourceBytes) (root : Concrete) (tree : Tree Unit),
        (∀ below ∈ nodesAmong root.children, below.FirmEnds) →
          root.convert source = .ok tree →
            ∀ node : Node Unit, node.toTree ∈ tree.walk.tail →
              node.children ≠ [] ∧ node.toTree.EndsWalk := by
  constructor
  · intro Mark tree htree node hnode
    exact ⟨by simp [Tree.unstack_eq_flatMap_walk], (htree.of_mem_walk hnode).endsWalk⟩
  · intro source root tree hfirm htree node hnode
    have hfilled : node.toTree.Filled := filled_of_convert hfirm htree node.toTree hnode
    exact ⟨hfilled node (Tree.self_mem_walk _), hfilled.endsWalk⟩

def chainedCall : Tree Nat :=
  let span (start stop : Int) : Span := ⟨"Call.java", ⟨1, start⟩, ⟨1, stop⟩⟩
  let call (start stop : Int) : Head :=
    ⟨"method_invocation", some .memberSelect, span start stop⟩
  let arguments (start stop : Int) : Head := ⟨"argument_list", none, span start stop⟩
  let leaf (mark : Nat) (text : String) (start : Int) : Tree Nat :=
    .leaf mark ⟨text, span start (start + 1)⟩
  .node 0 (call 1 8)
    [.node 1 (call 1 4) [leaf 2 "f" 1, .node 3 (arguments 2 4) [leaf 4 "(" 2, leaf 5 ")" 3]],
     leaf 6 "." 4, leaf 7 "g" 5, .node 8 (arguments 6 8) [leaf 9 "(" 6, leaf 10 ")" 7]]

theorem ends_meet_walk_chainedCall :
    (chainedCall.Filled ∧ chainedCall.firstToken?.map Leaf.mark = some 2 ∧
        chainedCall.lastToken?.map Leaf.mark = some 10 ∧
        ∀ node : Node Nat, node.toTree ∈ chainedCall.walk →
          Tree.unstack [node.toTree] = node.toTree.walk ∧ node.toTree.EndsWalk) ∧
      (∀ below ∈ nodesAmong annotatedDimensions.children, below.FirmEnds) ∧
      ∃ tree, annotatedDimensions.convert (.ofText "Dims.java" annotatedText) = .ok tree ∧
        ∀ node : Node Unit, node.toTree ∈ tree.walk.tail →
          node.children ≠ [] ∧ node.toTree.EndsWalk := by
  have hcall : chainedCall.Filled := by
    simp [chainedCall, Tree.filled_node_iff, Tree.filled_leaf]
  have hfirm : ∀ below ∈ nodesAmong annotatedDimensions.children, below.FirmEnds := by
    decide +kernel
  have hconsistent : annotatedDimensions.Consistent annotatedText := by decide +kernel
  obtain ⟨tree, htree, -⟩ := convert_inPlace "Dims.java" hconsistent (by decide)
  exact ⟨⟨hcall, by decide, by decide, ends_meet_walk.1 Nat chainedCall hcall⟩, hfirm, tree,
    htree, ends_meet_walk.2 _ annotatedDimensions tree hfirm htree⟩

end Java.Concrete

end TokenSpacing
