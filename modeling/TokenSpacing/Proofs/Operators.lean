import TokenSpacing.Proofs.Dimensions
import TokenSpacing.Proofs.MemberSelects

/-!
# Operators are tested where they were recognised

The construct of a node is read off the types of its concrete children, and its token under
test is found later among its items.  Where operators are leaves that spell their own types,
both look at the same child: nothing is dropped in front of a leading operator or behind a
trailing one, and a dot stays a direct child.
-/

namespace TokenSpacing

variable {Mark : Type}

/-! ## Nodes without their marks -/

namespace Tree

theorem unmarked_eq_leaf {tree : Tree Mark} {token : Token}
    (htree : tree.unmarked = leaf () token) : ∃ mark, tree = leaf mark token := by
  cases tree with
  | leaf mark other =>
      simp only [unmarked, leaf.injEq, true_and] at htree
      exact ⟨mark, by rw [htree]⟩
  | node mark head children => simp [unmarked] at htree

end Tree

def Node.unmarked (node : Node Mark) : Node Unit :=
  ⟨(), node.head, node.children.map Tree.unmarked⟩

namespace Tree

theorem nodes_unmarked (tree : Tree Mark) : tree.unmarked.nodes = tree.nodes.map Node.unmarked := by
  induction tree using induction with
  | leaf mark token => simp [unmarked]
  | node mark head children ih =>
      rw [unmarked, unmarkedAmong_eq, nodes_node, nodes_node, List.map_cons, List.flatMap_map,
        List.map_flatMap]
      exact congrArg _ (List.flatMap_congr ih)

theorem plainNodes_unmarked (tree : Tree Mark) :
    tree.unmarked.plainNodes = tree.plainNodes.map Node.unmarked := by
  rw [plainNodes, plainNodes, nodes_unmarked, List.filter_map]
  rfl

end Tree

namespace Node

theorem exists_children_of_unmarked {node : Node Mark} {before after : List (Tree Unit)}
    {token : Token} (hchildren : node.unmarked.children = before ++ .leaf () token :: after) :
    ∃ earlier mark later, node.children = earlier ++ .leaf mark token :: later ∧
      earlier.length = before.length ∧ later.length = after.length := by
  obtain ⟨earlier, others, hsplit, rfl, hothers⟩ := List.map_eq_append_iff.mp hchildren
  obtain ⟨item, later, rfl, hitem, rfl⟩ := List.map_eq_cons_iff.mp hothers
  obtain ⟨mark, rfl⟩ := Tree.unmarked_eq_leaf hitem
  exact ⟨earlier, mark, later, hsplit, by simp, by simp⟩

theorem tokenUnderTest?_of_leading {node : Node Mark} {construct : Construct} {operator : String}
    {mark : Mark} {token : Token} {later : List (Tree Mark)} (text : SourceText)
    (htagged : node.head.construct = some construct)
    (hleading : construct.leadingOperator? = some operator)
    (hchildren : node.children = .leaf mark token :: later) :
    node.tokenUnderTest? text = .ok (some ⟨mark, token⟩) := by
  have hfirst : node.toTree.firstToken? = some ⟨mark, token⟩ := by
    simp [toTree, hchildren, Tree.firstToken?]
  cases construct <;> simp [Construct.leadingOperator?] at hleading <;>
    simp [tokenUnderTest?, htagged, hfirst]

theorem tokenUnderTest?_of_trailing {node : Node Mark} {construct : Construct} {operator : String}
    {mark : Mark} {token : Token} {earlier : List (Tree Mark)} (text : SourceText)
    (htagged : node.head.construct = some construct)
    (htrailing : construct.trailingOperator? = some operator)
    (hchildren : node.children = earlier ++ [.leaf mark token]) :
    node.tokenUnderTest? text = .ok (some ⟨mark, token⟩) := by
  have hlast : node.toTree.lastToken? = some ⟨mark, token⟩ := by
    simp [toTree, hchildren, Tree.lastToken?, Tree.lastTokenAmong?_concat]
  cases construct <;> simp [Construct.trailingOperator?] at htrailing <;>
    simp [tokenUnderTest?, htagged, hlast]

end Node

namespace Java

namespace Concrete

variable {source : SourceBytes}

/-! ## Operators of a concrete tree -/

def operators : List String :=
  ["+", "-", "!", "~", "++", "--", "."]

/-- A node with the type of an operator is a leaf that spells it. -/
def SpelledOut (source : SourceBytes) (tree : Concrete) : Prop :=
  tree.type ∈ operators →
    tree.children = [] ∧
      source.slice tree.info.startByte tree.info.stopByte = Text.encode tree.type.toList

instance (source : SourceBytes) (tree : Concrete) : Decidable (tree.SpelledOut source) :=
  inferInstanceAs (Decidable (_ → _ ∧ _))

variable {tree : Concrete} {construct : Construct} {operator : String}

theorem mem_operators_of_leading (hleading : construct.leadingOperator? = some operator) :
    operator ∈ operators := by
  cases construct <;> simp [Construct.leadingOperator?] at hleading <;> subst hleading <;> decide

theorem mem_operators_of_trailing (htrailing : construct.trailingOperator? = some operator) :
    operator ∈ operators := by
  cases construct <;> simp [Construct.trailingOperator?] at htrailing <;> subst htrailing <;> decide

/-! ## Items of operators -/

theorem tokenOf_of_convertItem {parent : Option Concrete} {item : Tree Unit}
    (hleaf : tree.children = []) (hitem : convertItem source parent tree = .ok item) :
    ∃ token, Carries source tree.info token ∧ item = .leaf () token := by
  rw [convertItem_eq, if_pos (by simp [hleaf])] at hitem
  simp only [bind_eq_ok_iff, pure_eq_ok_iff] at hitem
  obtain ⟨token, htoken, rfl⟩ := hitem
  exact ⟨token, tokenOf_eq_ok_iff.mp htoken, rfl⟩

theorem text_of_carries {token : Token} (hcarries : Carries source tree.info token)
    (hbytes : source.slice tree.info.startByte tree.info.stopByte = Text.encode tree.type.toList) :
    token.text = tree.type := by
  have hsame : Text.encode token.text.toList = Text.encode tree.type.toList :=
    hcarries.bytes.trans hbytes
  have hdecoded := Text.decode?_encode token.text.toList
  rw [hsame, Text.decode?_encode, Option.some.injEq] at hdecoded
  exact String.toList_inj.mp hdecoded.symm

theorem isComment_of_mem_operators (hoperator : tree.type ∈ operators) :
    tree.isComment = false := by
  rw [operators] at hoperator
  simp only [isComment, Bool.or_eq_false_iff, beq_eq_false_iff_ne]
  constructor <;> intro htype <;> simp [htype] at hoperator

end Concrete

namespace Opening

variable {source : SourceBytes} {place : Opening} {child : Concrete}

theorem Replaces.operator {part : List (Tree Unit)} (hreplaces : place.Replaces source child part)
    (hoperator : child.type ∈ Concrete.operators) (hspelled : child.SpelledOut source) :
    ∃ token, Carries source child.info token ∧ token.text = child.type ∧
      part = [.leaf () token] := by
  obtain ⟨hleaf, hbytes⟩ := hspelled hoperator
  cases hreplaces with
  | comment hcomment =>
      simp [Concrete.isComment_of_mem_operators hoperator] at hcomment
  | dimensions htype => simp [htype, Concrete.operators] at hoperator
  | item hcomment hwhole hitem =>
      obtain ⟨token, hcarries, rfl⟩ := Concrete.tokenOf_of_convertItem hleaf hitem.converts
      exact ⟨token, hcarries, Concrete.text_of_carries hcarries hbytes, rfl⟩

theorem exists_parts_around {α β : Type} {related : α → β → Prop} {earlier later : List α}
    {chosen : α} {rights : List β}
    (hrelated : List.Forall₂ related (earlier ++ chosen :: later) rights) :
    ∃ before right after, rights = before ++ right :: after ∧ related chosen right ∧
      before.length = earlier.length ∧ after.length = later.length := by
  induction earlier generalizing rights with
  | nil =>
      cases hrelated with
      | @cons _ right _ after hright hafter =>
          exact ⟨[], right, after, rfl, hright, rfl, hafter.length_eq.symm⟩
  | cons first earlier ih =>
      cases hrelated with
      | @cons _ item _ rights hfirst hrest =>
          obtain ⟨before, right, after, rfl, hright, hbefore, hafter⟩ := ih hrest
          exact ⟨item :: before, right, after, rfl, hright, by simp [hbefore], hafter⟩

theorem Gives.operator {node : Node Mark} {earlier later : List Concrete}
    (hgives : place.Gives source node.unmarked)
    (hchildren : place.owner.children = earlier ++ child :: later)
    (hoperator : child.type ∈ Concrete.operators) (hspelled : child.SpelledOut source) :
    ∃ before mark token after, node.children = before ++ .leaf mark token :: after ∧
      Carries source child.info token ∧ token.text = child.type ∧
      (earlier = [] → before = []) ∧ (later = [] → after = []) := by
  obtain ⟨parts, hitems, hparts⟩ := hgives.children
  rw [hchildren] at hparts
  obtain ⟨before, part, after, rfl, hreplaces, hbefore, hafter⟩ := exists_parts_around hparts
  obtain ⟨token, hcarries, htext, rfl⟩ := hreplaces.operator hoperator hspelled
  have hflat : node.unmarked.children = before.flatten ++ .leaf () token :: after.flatten := by
    simpa using hitems
  obtain ⟨first, mark, last, hnode, hfirst, hlast⟩ := Node.exists_children_of_unmarked hflat
  refine ⟨first, mark, token, last, hnode, hcarries, htext, ?_, ?_⟩
  · rintro rfl
    obtain rfl := List.eq_nil_of_length_eq_zero hbefore
    exact List.eq_nil_of_length_eq_zero hfirst
  · rintro rfl
    obtain rfl := List.eq_nil_of_length_eq_zero hafter
    exact List.eq_nil_of_length_eq_zero hlast

/-- The token under test of a node that was recognised by an operator: the token of the
operator at its start or end, or a dot directly below it. -/
structure TestsOperator (source : SourceBytes) (text : SourceText) (place : Opening)
    (node : Node Mark) : Prop where
  leading : ∀ construct ∈ node.head.construct, ∀ operator ∈ construct.leadingOperator?,
    ∃ first ∈ place.owner.children.head?, ∃ tested : Leaf Mark,
      node.children.head? = some (.leaf tested.mark tested.token) ∧
      Carries source first.info tested.token ∧ tested.token.text = operator ∧
      node.tokenUnderTest? text = .ok (some tested)
  trailing : ∀ construct ∈ node.head.construct, ∀ operator ∈ construct.trailingOperator?,
    ∃ last ∈ place.owner.children.getLast?, ∃ tested : Leaf Mark,
      node.children.getLast? = some (.leaf tested.mark tested.token) ∧
      Carries source last.info tested.token ∧ tested.token.text = operator ∧
      node.tokenUnderTest? text = .ok (some tested)
  invocation : node.head.type = "method_invocation" →
    node.head.construct = some .memberSelect →
    ∃ tested : Leaf Mark, .leaf tested.mark tested.token ∈ node.children ∧
      tested.token.text = "." ∧ node.tokenUnderTest? text = .ok (some tested)

theorem Gives.testsOperator {node : Node Mark} (text : SourceText)
    (hgives : place.Gives source node.unmarked)
    (hspelled : ∀ child ∈ place.owner.children, child.SpelledOut source) :
    place.TestsOperator source text node := by
  have hhead : node.head = Concrete.headOf source place.owner := hgives.head
  have htags : ∀ {construct}, node.head.construct = some construct →
      place.owner.Tags construct := by
    intro construct htagged
    rw [hhead] at htagged
    exact Concrete.tags_of_construct? htagged
  refine ⟨?_, ?_, ?_⟩
  · intro construct htagged operator hoperator
    obtain ⟨first, hfirst, rfl⟩ := Option.map_eq_some_iff.mp ((htags htagged).firstType? hoperator)
    obtain ⟨rest, hrest⟩ := List.head?_eq_some_iff.mp hfirst
    have hchildren : place.owner.children = [] ++ first :: rest := hrest
    obtain ⟨before, mark, token, after, hnode, hcarries, htext, hbefore, -⟩ :=
      hgives.operator hchildren (Concrete.mem_operators_of_leading hoperator)
        (hspelled first (by simp [hchildren]))
    rw [hbefore rfl, List.nil_append] at hnode
    exact ⟨first, hfirst, ⟨mark, token⟩, by simp [hnode], hcarries, htext,
      Node.tokenUnderTest?_of_leading text htagged hoperator hnode⟩
  · intro construct htagged operator hoperator
    obtain ⟨last, hlast, rfl⟩ := Option.map_eq_some_iff.mp ((htags htagged).lastType? hoperator)
    obtain ⟨rest, hchildren⟩ := List.getLast?_eq_some_iff.mp hlast
    obtain ⟨before, mark, token, after, hnode, hcarries, htext, -, hafter⟩ :=
      hgives.operator hchildren (Concrete.mem_operators_of_trailing hoperator)
        (hspelled last (by simp [hchildren]))
    rw [hafter rfl] at hnode
    exact ⟨last, hlast, ⟨mark, token⟩, by simp [hnode], hcarries, htext,
      Node.tokenUnderTest?_of_trailing text htagged hoperator hnode⟩
  · intro htype htagged
    have howner : place.owner.type = "method_invocation" := by rw [← htype, hhead]; rfl
    obtain ⟨dot, hdot, hdotType⟩ := (htags htagged).exists_dot howner
    obtain ⟨earlier, later, hchildren⟩ := List.append_of_mem hdot
    obtain ⟨before, mark, token, after, hnode, -, htext, -⟩ :=
      hgives.operator hchildren (by simp [hdotType, Concrete.operators]) (hspelled dot hdot)
    obtain ⟨tested, hfirst, -⟩ := Node.exists_firstSpelled hnode
    rw [htext, hdotType] at hfirst
    have htested : node.tokenUnderTest? text = .ok (some tested) := by
      simp [Node.tokenUnderTest?, htagged, Node.token?_eq_some_iff.mpr hfirst]
    obtain ⟨front, back, hsplit, hspelling, -⟩ := hfirst
    exact ⟨tested, by simp [hsplit], hspelling, htested⟩

end Opening

namespace Concrete

variable {source : SourceBytes}

/-! ## Opened nodes -/

section

variable {motive : Concrete → Prop}
  (hkeeps : ∀ tree, motive tree → ∀ child ∈ tree.children, motive child)

include hkeeps

theorem forall_openingsAmong {owner : Concrete} (howner : motive owner)
    (hbelow : ∀ child ∈ owner.children,
      (motive child → ∀ parent, ∀ place ∈ child.openings parent, motive place.owner) ∧
        ∀ part ∈ child.children,
          motive part → ∀ parent, ∀ place ∈ part.openings parent, motive place.owner) :
    ∀ place ∈ openingsAmong owner owner.children, motive place.owner := by
  rw [openingsAmong_eq, List.forall_mem_flatMap]
  intro child hchild
  have hmotive : motive child := hkeeps owner howner child hchild
  have hpieces : ∀ piece ∈ owner.pieces child,
      ∀ parent, ∀ place ∈ piece.openings parent, motive place.owner :=
    forall_mem_pieces ⟨(hbelow child hchild).1 hmotive,
      fun part hpart => (hbelow child hchild).2 part hpart (hkeeps child hmotive part hpart)⟩
  rw [openingsFrom, List.forall_mem_flatMap]
  exact fun piece hpiece => hpieces piece hpiece _

theorem forall_openings (tree : Concrete) :
    motive tree → ∀ parent, ∀ place ∈ tree.openings parent, motive place.owner := by
  refine (induction (motive := fun tree =>
    motive tree → ∀ parent, ∀ place ∈ tree.openings parent, motive place.owner) ?_ tree).1
  intro info children hbelow htree parent
  rw [openings_eq]
  split
  next => simp
  next => exact List.forall_mem_cons.mpr ⟨htree, forall_openingsAmong hkeeps htree hbelow⟩

theorem forall_allOpenings {root : Concrete} (hroot : motive root) :
    ∀ place ∈ root.allOpenings, motive place.owner :=
  List.forall_mem_cons.mpr ⟨hroot, forall_openingsAmong hkeeps hroot fun child _ =>
    ⟨forall_openings hkeeps child, fun part _ => forall_openings hkeeps part⟩⟩

end

theorem spelledOut_of_openings {root : Concrete}
    (hspelled : ∀ below ∈ root.nodes, below.SpelledOut source) :
    ∀ place ∈ root.allOpenings, ∀ child ∈ place.owner.children, child.SpelledOut source := by
  have hkeeps : ∀ tree : Concrete, (∀ below ∈ tree.nodes, below.SpelledOut source) →
      ∀ child ∈ tree.children, ∀ below ∈ child.nodes, below.SpelledOut source := by
    rintro ⟨info, children⟩ htree
    exact (forall_nodes_iff.mp htree).2
  intro place hplace child hchild
  have howner := forall_allOpenings hkeeps hspelled place hplace
  cases child
  exact (forall_nodes_iff.mp (hkeeps _ howner _ hchild)).1

/--
A tree whose operators spell their types, and whose root lacks no operator, can be converted
if its tokens are text.  The nodes of the result that are no array types are then those of the
opened nodes, in document order.  A node that is tagged for the operator at its start or at
its end is tested by the token of that operator, and a call that is tagged for a dot by a dot
of its own, whichever marks the tree gets.
-/
theorem convert_operators_tested (source : SourceBytes) (root : Concrete)
    (hspelled : ∀ below ∈ root.nodes, below.SpelledOut source)
    (hoperator : root.lacksOperator = false) :
    ((∃ tree, root.convert source = .ok tree) ↔
        ∀ place ∈ root.allOpenings, place.Legible source) ∧
      ∀ {Mark : Type} (tree : Tree Mark) (text : SourceText),
        root.convert source = .ok tree.unmarked →
        List.Forall₂
          (fun place node =>
            place.Gives source node.unmarked ∧ place.TestsOperator source text node)
          root.allOpenings tree.plainNodes := by
  refine ⟨by rw [exists_convert_iff_legible, and_iff_right hoperator], ?_⟩
  intro Mark tree text htree
  have hgives := (accounted_of_convert htree).1
  rw [Tree.plainNodes_unmarked, List.forall₂_map_right_iff] at hgives
  refine ((List.forall₂_and_left _ _).mpr ⟨spelledOut_of_openings hspelled, hgives⟩).imp ?_
  rintro place node ⟨hchildren, hnode⟩
  exact ⟨hnode, hnode.testsOperator text hchildren⟩

/-- The negated result of a call, with an update on either side of an argument.  A comment
stands in front of the last operator. -/
def negatedCall : Concrete :=
  .node (.inLine "unary_expression" 0 18)
    [.leaf "-" 0 1,
     .node (.inLine "method_invocation" 1 18)
       [.leaf "identifier" 1 2, .leaf "." 2 3, .leaf "identifier" 3 4,
        .node (.inLine "argument_list" 4 18)
          [.leaf "(" 4 5,
           .node (.inLine "update_expression" 5 8) [.leaf "++" 5 7, .leaf "identifier" 7 8],
           .leaf "," 8 9,
           .node (.inLine "update_expression" 10 17)
             [.leaf "identifier" 10 11, .leaf "block_comment" 11 15, .leaf "--" 15 17],
           .leaf ")" 17 18]]]

def negatedCallSource : SourceBytes :=
  .ofText "Negated.java" "-a.b(++i, j/**/--)".toList

theorem convert_negatedCall :
    (∀ below ∈ negatedCall.nodes, below.SpelledOut negatedCallSource) ∧
      negatedCall.lacksOperator = false ∧
      ∃ tree : Tree Nat, negatedCall.convert negatedCallSource = .ok tree.unmarked ∧
        tree.plainNodes.map (·.head.construct) =
          [some .unaryMinus, some .memberSelect, none, some .prefixIncrement,
            some .postfixDecrement] ∧
        ∀ text, List.Forall₂
          (fun place node => place.Gives negatedCallSource node.unmarked ∧
            place.TestsOperator negatedCallSource text node)
          negatedCall.allOpenings tree.plainNodes := by
  have hspelled : ∀ below ∈ negatedCall.nodes, below.SpelledOut negatedCallSource := by
    decide +kernel
  have hconstructs : (negatedCall.build negatedCallSource).toOption.map (fun draft =>
      (draft.tree? 0).map fun tree => tree.plainNodes.map (·.head.construct)) =
        some (some [some .unaryMinus, some .memberSelect, none, some .prefixIncrement,
          some .postfixDecrement]) := by
    decide +kernel
  cases hbuild : negatedCall.build negatedCallSource with
  | error fault =>
      rw [hbuild] at hconstructs
      cases hconstructs
  | ok draft =>
      obtain ⟨-, tree, htree, -, -, hconvert⟩ := convert_of_build hbuild
      rw [hbuild] at hconstructs
      simp only [Except.toOption, Option.map_some, htree, Option.some.injEq] at hconstructs
      refine ⟨hspelled, by decide, tree, hconvert, hconstructs, ?_⟩
      intro text
      exact (convert_operators_tested negatedCallSource negatedCall hspelled (by decide)).2
        tree text hconvert

end Concrete

end Java

end TokenSpacing
