import TokenSpacing.Proofs.Building
import TokenSpacing.Proofs.Coordinates
import TokenSpacing.Proofs.Walk

/-!
# Conversion keeps every token in its place

A concrete tree is consistent with a text if every node of it is.  Such a tree can
always be converted.  In the result every token covers its own text, and every node
starts and stops between two characters, the nodes made for array brackets
included.
-/

namespace TokenSpacing.Java

/-! ## Consistent trees -/

namespace Concrete

mutual

def nodes : Concrete → List Concrete
  | node info children => node info children :: nodesAmong children

def nodesAmong : List Concrete → List Concrete
  | [] => []
  | tree :: rest => tree.nodes ++ nodesAmong rest

end

def Consistent (text : List Char) (tree : Concrete) : Prop :=
  ∀ node ∈ tree.nodes, node.info.Consistent text

instance (text : List Char) (tree : Concrete) : Decidable (tree.Consistent text) :=
  inferInstanceAs (Decidable (∀ node ∈ tree.nodes, _))

theorem mem_nodesAmong {children : List Concrete} {tree : Concrete} :
    tree ∈ nodesAmong children ↔ ∃ child ∈ children, tree ∈ child.nodes := by
  induction children with
  | nil => simp [nodesAmong]
  | cons child rest ih => simp [nodesAmong, ih]

theorem forall_nodes_iff {holds : Concrete → Prop} {info : Info} {children : List Concrete} :
    (∀ tree ∈ (node info children).nodes, holds tree) ↔
      holds (node info children) ∧ ∀ child ∈ children, ∀ tree ∈ child.nodes, holds tree := by
  simp only [nodes, List.forall_mem_cons, mem_nodesAmong]
  constructor
  · rintro ⟨hroot, hbelow⟩
    exact ⟨hroot, fun child hchild tree htree => hbelow tree ⟨child, hchild, htree⟩⟩
  · rintro ⟨hroot, hbelow⟩
    refine ⟨hroot, ?_⟩
    rintro tree ⟨child, hchild, htree⟩
    exact hbelow child hchild tree htree

theorem consistent_node_iff {text : List Char} {info : Info} {children : List Concrete} :
    (node info children).Consistent text ↔
      info.Consistent text ∧ ∀ child ∈ children, child.Consistent text :=
  forall_nodes_iff

theorem Consistent.info {text : List Char} {tree : Concrete} (htree : tree.Consistent text) :
    tree.info.Consistent text := by
  cases tree
  exact (consistent_node_iff.mp htree).1

theorem Consistent.children {text : List Char} {tree : Concrete}
    (htree : tree.Consistent text) : ∀ child ∈ tree.children, child.Consistent text := by
  cases tree
  exact (consistent_node_iff.mp htree).2

theorem dimensionOrigin_consistent {text : List Char} {parent : Option Concrete}
    {owner : Concrete} (hparent : ∀ above ∈ parent, above.Consistent text)
    (howner : owner.Consistent text) : (dimensionOrigin parent owner).Consistent text := by
  have hfield : ∀ declaration : Option Concrete,
      (∀ tree ∈ declaration, tree.Consistent text) →
      (((declaration.bind fun tree => tree.children.find? (·.info.fillsType)).map
        Concrete.info).getD owner.info).Consistent text := by
    intro declaration hdeclaration
    cases hfound : declaration.bind fun tree => tree.children.find? (·.info.fillsType) with
    | none => exact howner.info
    | some declared =>
        obtain ⟨tree, htree, hfind⟩ := Option.bind_eq_some_iff.mp hfound
        exact ((hdeclaration tree htree).children declared
          (List.mem_of_find?_eq_some hfind)).info
  unfold dimensionOrigin
  split
  · exact hfield parent hparent
  · exact hfield (some owner) (by simpa using howner)

end Concrete

/-! ## Items in their places -/

/-- A token covers its own text; a node lies between characters. -/
def InPlace (text : List Char) : Tree Unit → Prop
  | .leaf _ token => Covers text token.span token.text.toList
  | .node _ head _ => Between text head.span.start ∧ Between text head.span.stop

def AllInPlace (text : List Char) (tree : Tree Unit) : Prop :=
  ∀ item ∈ tree.walk, InPlace text item

theorem allInPlace_node {text : List Char} {head : Head} {children : List (Tree Unit)}
    (hstart : Between text head.span.start) (hstop : Between text head.span.stop)
    (hchildren : ∀ child ∈ children, AllInPlace text child) :
    AllInPlace text (.node () head children) := by
  intro item hitem
  rw [Tree.walk_node] at hitem
  rcases List.mem_cons.mp hitem with rfl | hbelow
  · exact ⟨hstart, hstop⟩
  · obtain ⟨child, hchild, hmem⟩ := List.mem_flatMap.mp hbelow
    exact hchildren child hchild item hmem

namespace Concrete

variable {text : List Char} {file : String}

theorem groupDimensions_inPlace {start : Position} (hstart : Between text start)
    {pending : List (Tree Unit)} (hpending : ∀ item ∈ pending, AllInPlace text item)
    {pieces : List (Info × Tree Unit)}
    (hpieces : ∀ piece ∈ pieces, piece.1.Consistent text ∧ AllInPlace text piece.2) :
    ∀ item ∈ groupDimensions (.ofText file text) start pending pieces,
      AllInPlace text item := by
  induction pieces generalizing pending with
  | nil => exact hpending
  | cons piece rest ih =>
      obtain ⟨info, tree⟩ := piece
      obtain ⟨⟨hinfo, htree⟩, hrest⟩ := List.forall_mem_cons.mp hpieces
      have hgrown : ∀ item ∈ pending ++ [tree], AllInPlace text item := by
        intro item hitem
        rcases List.mem_append.mp hitem with hbefore | hlast
        · exact hpending item hbefore
        · obtain rfl := List.mem_singleton.mp hlast
          exact htree
      rw [groupDimensions]
      split
      · refine List.forall_mem_cons.mpr ⟨?_, ih (by simp) hrest⟩
        exact allInPlace_node hstart (hinfo.between_stop file) hgrown
      · exact ih hgrown hrest

mutual

theorem convertItem_inPlace {parent : Option Concrete}
    (hparent : ∀ above ∈ parent, above.Consistent text) :
    ∀ tree : Concrete, tree.Consistent text →
      ∃ item, convertItem (.ofText file text) parent tree = .ok item ∧ AllInPlace text item
  | node info children, htree => by
      obtain ⟨hinfo, hchildren⟩ := consistent_node_iff.mp htree
      simp only [convertItem]
      split
      · obtain ⟨token, htoken, hcovers⟩ := hinfo.tokenOf_covers file
        rw [htoken]
        refine ⟨.leaf () token, rfl, ?_⟩
        intro item hitem
        obtain rfl : item = .leaf () token := by simpa using hitem
        exact hcovers
      · obtain ⟨items, hitems, hplaced⟩ :=
          convertChildren_inPlace hparent htree children hchildren
        rw [hitems]
        refine ⟨_, rfl, ?_⟩
        exact allInPlace_node (hinfo.between_span file).1 (hinfo.between_span file).2 hplaced

theorem convertChildren_inPlace {parent : Option Concrete} {owner : Concrete}
    (hparent : ∀ above ∈ parent, above.Consistent text) (howner : owner.Consistent text) :
    ∀ children : List Concrete, (∀ child ∈ children, child.Consistent text) →
      ∃ items, convertChildren (.ofText file text) parent owner children = .ok items ∧
        ∀ item ∈ items, AllInPlace text item
  | [], _ => ⟨[], by simp [convertChildren], by simp⟩
  | node info children :: rest, hall => by
      obtain ⟨htree, hrest⟩ := List.forall_mem_cons.mp hall
      obtain ⟨items, hitems, hplaced⟩ := convertChildren_inPlace hparent howner rest hrest
      simp only [convertChildren]
      split
      · exact ⟨items, hitems, hplaced⟩
      split
      · obtain ⟨pieces, hpieces, hgood⟩ :=
          convertPieces_inPlace htree children (consistent_node_iff.mp htree).2
        have hstart := (dimensionOrigin_consistent hparent howner).between_start file
        rw [hpieces, hitems]
        refine ⟨_, rfl, ?_⟩
        intro item hitem
        rcases List.mem_append.mp hitem with hgroup | hlater
        · exact groupDimensions_inPlace hstart (by simp) hgood item hgroup
        · exact hplaced item hlater
      · have habove : ∀ above ∈ some owner, above.Consistent text := by simpa using howner
        obtain ⟨item, hitem, hfirst⟩ := convertItem_inPlace habove (node info children) htree
        rw [hitem, hitems]
        refine ⟨_, rfl, ?_⟩
        exact List.forall_mem_cons.mpr ⟨hfirst, hplaced⟩

theorem convertPieces_inPlace {dimensions : Concrete} (hdimensions : dimensions.Consistent text) :
    ∀ parts : List Concrete, (∀ part ∈ parts, part.Consistent text) →
      ∃ pieces, convertPieces (.ofText file text) dimensions parts = .ok pieces ∧
        ∀ piece ∈ pieces, piece.1.Consistent text ∧ AllInPlace text piece.2
  | [], _ => ⟨[], by simp [convertPieces], by simp⟩
  | node info children :: rest, hall => by
      obtain ⟨htree, hrest⟩ := List.forall_mem_cons.mp hall
      obtain ⟨pieces, hpieces, hgood⟩ := convertPieces_inPlace hdimensions rest hrest
      simp only [convertPieces]
      split
      · exact ⟨pieces, hpieces, hgood⟩
      · have habove : ∀ above ∈ some dimensions, above.Consistent text := by
          simpa using hdimensions
        obtain ⟨item, hitem, hfirst⟩ := convertItem_inPlace habove (node info children) htree
        rw [hitem, hpieces]
        refine ⟨_, rfl, ?_⟩
        exact List.forall_mem_cons.mpr ⟨⟨(consistent_node_iff.mp htree).1, hfirst⟩, hgood⟩

end

theorem convert_inPlace (file : String) {root : Concrete} (hroot : root.Consistent text)
    (hoperator : root.lacksOperator = false) :
    ∃ tree, root.convert (.ofText file text) = .ok tree ∧ AllInPlace text tree := by
  have hnone : ∀ above ∈ (none : Option Concrete), above.Consistent text := by simp
  obtain ⟨items, hitems, hplaced⟩ : ∃ items,
      convertChildren (.ofText file text) none root root.children = .ok items ∧
        ∀ item ∈ items, AllInPlace text item :=
    convertChildren_inPlace hnone hroot root.children hroot.children
  rw [convert_eq, if_neg (by simp [hoperator]), hitems]
  refine ⟨_, rfl, ?_⟩
  exact allInPlace_node (hroot.info.between_span file).1 (hroot.info.between_span file).2 hplaced

end Concrete

/-! ## Parsed units -/

theorem parseText_inPlace (file : String) {text : List Char} {root : Concrete}
    (hroot : root.Consistent text) (hclean : root.info.hasError = false)
    (hoperator : root.lacksOperator = false) :
    ∃ tree, parseText file text root = .ok ⟨file, Text.splitLines text, ['\n'], tree⟩ ∧
      AllInPlace text tree := by
  obtain ⟨tree, htree, hplaced⟩ := Concrete.convert_inPlace file hroot hoperator
  refine ⟨tree, ?_, hplaced⟩
  simp only [parseText, hclean, htree]
  simp [SourceBytes.ofText]

/--
Offsets survive parsing.  The unit of a text has that text, and cutting it at the
offsets of a token's two ends gives the text of the token.
-/
theorem parseText_token_offsets (file : String) (text : List Char) (root : Concrete)
    (hroot : root.Consistent text) (hclean : root.info.hasError = false)
    (hoperator : root.lacksOperator = false) :
    ∃ unit, parseText file text root = .ok unit ∧ unit.text = text ∧
      ∀ mark token, Tree.leaf mark token ∈ unit.root.walk →
        ∃ start stop, unit.source.offsetOf token.span.start = .ok start ∧
          unit.source.offsetOf token.span.stop = .ok stop ∧ start ≤ stop ∧
          (unit.text.drop start).take (stop - start) = token.text.toList := by
  obtain ⟨tree, hparse, hplaced⟩ := parseText_inPlace file hroot hclean hoperator
  have htext : joinLines ['\n'] (Text.splitLines text) = text :=
    Text.joinLines_splitLines text
  refine ⟨_, hparse, htext, ?_⟩
  intro mark token hmem
  have hcovers : Covers text token.span token.text.toList := hplaced _ hmem
  simpa only [SourceUnit.source, SourceUnit.text, htext] using hcovers.cut

def textBlockText : List Char :=
  "é = \"\"\"\r\nß\"\"\";".toList

def textBlockTree : Concrete :=
  .node { Info.inLine "program" 0 16 with stop := ⟨1, 6⟩ }
    [.node { Info.inLine "assignment_expression" 0 15 with stop := ⟨1, 5⟩ }
      [.leaf "identifier" 0 2, .leaf "=" 3 4,
       .node { Info.inLine "string_literal" 5 15 with stop := ⟨1, 5⟩ }
         [.node { Info.inLine "string_fragment" 8 12 with stop := ⟨1, 2⟩ } []]],
     .node (.inRow 1 10 ";" 5 6) []]

theorem parseText_textBlock_offsets :
    textBlockTree.Consistent textBlockText ∧
      ∃ unit, parseText "Block.java" textBlockText textBlockTree = .ok unit ∧
        unit.text = textBlockText ∧
        ∀ mark token, Tree.leaf mark token ∈ unit.root.walk →
          ∃ start stop, unit.source.offsetOf token.span.start = .ok start ∧
            unit.source.offsetOf token.span.stop = .ok stop ∧ start ≤ stop ∧
            (unit.text.drop start).take (stop - start) = token.text.toList := by
  have hconsistent : textBlockTree.Consistent textBlockText := by decide +kernel
  exact ⟨hconsistent, parseText_token_offsets "Block.java" textBlockText textBlockTree
    hconsistent rfl (by decide)⟩

end TokenSpacing.Java
