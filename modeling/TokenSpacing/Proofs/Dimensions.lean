import Mathlib.Data.List.Forall2
import TokenSpacing.Proofs.Openings
import TokenSpacing.Proofs.Recognition

/-!
# Brackets become array types

The parts of dimensions are cut behind every closing bracket.  Each group becomes an array
type among the items of the owner, and the parts that are left over join those items as
they are.  No other node is an array type.
-/

namespace TokenSpacing

/-! ## Array types of a tree -/

namespace Tree

variable {Mark : Type}

def isArrayType : Tree Mark → Bool
  | leaf _ _ => false
  | node _ head _ => head.construct == some .arrayType

def nodes (tree : Tree Mark) : List (Node Mark) :=
  tree.walk.filterMap toNode?

def plainNodes (tree : Tree Mark) : List (Node Mark) :=
  tree.nodes.filter (!·.toTree.isArrayType)

def arrayTypes (tree : Tree Mark) : List (Node Mark) :=
  tree.nodes.filter (·.toTree.isArrayType)

@[simp] theorem nodes_leaf (mark : Mark) (token : Token) : (leaf mark token).nodes = [] := by
  simp [nodes, toNode?]

@[simp] theorem nodes_node (mark : Mark) (head : Head) (children : List (Tree Mark)) :
    (node mark head children).nodes = ⟨mark, head, children⟩ :: children.flatMap nodes := by
  simp only [nodes, walk_node, List.filterMap_cons, toNode?, List.filterMap_flatMap]
  rfl

theorem plainNodes_of_ne {mark : Mark} {head : Head} {children : List (Tree Mark)}
    (hplain : head.construct ≠ some .arrayType) :
    (node mark head children).plainNodes =
      ⟨mark, head, children⟩ :: children.flatMap plainNodes := by
  have hkept : (Node.toTree ⟨mark, head, children⟩).isArrayType = false := by
    simp [Node.toTree, isArrayType, hplain]
  rw [plainNodes, nodes_node, List.filter_cons_of_pos (by simp [hkept]), List.filter_flatMap]
  rfl

theorem plainNodes_of_eq {mark : Mark} {head : Head} {children : List (Tree Mark)}
    (harray : head.construct = some .arrayType) :
    (node mark head children).plainNodes = children.flatMap plainNodes := by
  have hdropped : (Node.toTree ⟨mark, head, children⟩).isArrayType = true := by
    simp [Node.toTree, isArrayType, harray]
  rw [plainNodes, nodes_node, List.filter_cons_of_neg (by simp [hdropped]),
    List.filter_flatMap]
  rfl

theorem mem_arrayTypes_node {mark : Mark} {head : Head} {children : List (Tree Mark)}
    {found : Node Mark} (hfound : found ∈ (node mark head children).arrayTypes) :
    (found = ⟨mark, head, children⟩ ∧ head.construct = some .arrayType) ∨
      ∃ child ∈ children, found ∈ child.arrayTypes := by
  obtain ⟨hnode, harray⟩ := List.mem_filter.mp hfound
  rw [nodes_node, List.mem_cons, List.mem_flatMap] at hnode
  rcases hnode with rfl | ⟨child, hchild, hbelow⟩
  · exact .inl ⟨rfl, by simpa [Node.toTree, isArrayType] using harray⟩
  · exact .inr ⟨child, hchild, List.mem_filter.mpr ⟨hbelow, harray⟩⟩

end Tree

namespace Java

/-! ## What becomes of dimensions -/

structure BracketGroup where
  inside : List Concrete
  closing : Concrete

def BracketGroup.parts (group : BracketGroup) : List Concrete :=
  group.inside ++ [group.closing]

/-- Parts that are cut behind every closing bracket, and those that are left over. -/
structure Cut (parts : List Concrete) (groups : List BracketGroup) (rest : List Concrete) :
    Prop where
  whole : parts = groups.flatMap BracketGroup.parts ++ rest
  closed : ∀ group ∈ groups,
    group.closing.type = "]" ∧ ∀ part ∈ group.inside, part.type ≠ "]"
  unclosed : ∀ part ∈ rest, part.type ≠ "]"

theorem Cut.nil {rest : List Concrete} (hrest : ∀ part ∈ rest, part.type ≠ "]") :
    Cut rest [] rest :=
  ⟨rfl, by simp, hrest⟩

theorem Cut.cons {parts inside rest : List Concrete} {closing : Concrete}
    {groups : List BracketGroup} (hclosing : closing.type = "]")
    (hinside : ∀ part ∈ inside, part.type ≠ "]") (hcut : Cut parts groups rest) :
    Cut (inside ++ closing :: parts) (⟨inside, closing⟩ :: groups) rest where
  whole := by simp [BracketGroup.parts, hcut.whole]
  closed := List.forall_mem_cons.mpr ⟨⟨hclosing, hinside⟩, hcut.closed⟩
  unclosed := hcut.unclosed

theorem Cut.parts_subset {parts rest : List Concrete} {groups : List BracketGroup}
    (hcut : Cut parts groups rest) {group : BracketGroup} (hgroup : group ∈ groups) :
    group.parts ⊆ parts := by
  intro part hpart
  rw [hcut.whole]
  exact List.mem_append_left _ (List.mem_flatMap.mpr ⟨group, hgroup, hpart⟩)

structure Becomes (source : SourceBytes) (parent child : Concrete) (item : Tree Unit) :
    Prop where
  converts : Concrete.convertItem source (some parent) child = .ok item
  plain : item.isArrayType = false

namespace Opening

def declaration (place : Opening) : Option Concrete :=
  if place.owner.type = "variable_declarator" then place.parent else some place.owner

/-- Where the array types of a node start: at the type of the declaration if it has one. -/
inductive TypeStart (place : Opening) : Point → Prop
  | declared {declaration declared : Concrete} {earlier later : List Concrete}
      (hdeclaration : place.declaration = some declaration)
      (hchildren : declaration.children = earlier ++ declared :: later)
      (hfills : declared.info.fillsType = true)
      (hfirst : ∀ child ∈ earlier, child.info.fillsType = false) :
      TypeStart place declared.info.start
  | undeclared (huntyped : ∀ declaration ∈ place.declaration,
        ∀ child ∈ declaration.children, child.info.fillsType = false) :
      TypeStart place place.owner.info.start

inductive MakesArrayType (source : SourceBytes) (place : Opening) (dimensions : Concrete)
    (group : BracketGroup) : Tree Unit → Prop
  | intro {start : Point} {items : List (Tree Unit)} (hstart : place.TypeStart start)
      (hitems : List.Forall₂ (Becomes source dimensions) group.parts items) :
      MakesArrayType source place dimensions group
        (.node () ⟨"dimension", some .arrayType, source.file, source.positionOf start,
          source.positionOf group.closing.info.stop⟩ items)

/-- The items that stand in the place of one child of an opened node. -/
inductive Replaces (source : SourceBytes) (place : Opening) :
    Concrete → List (Tree Unit) → Prop
  | comment {child : Concrete} (hcomment : child.isComment = true) :
      Replaces source place child []
  | dimensions {child : Concrete} {groups : List BracketGroup} {rest : List Concrete}
      {arrayTypes items : List (Tree Unit)} (htype : child.type = "dimensions")
      (howner : place.owner.type ≠ "array_creation_expression")
      (hcut : Cut (child.children.filter (!·.isComment)) groups rest)
      (hgroups : List.Forall₂ (place.MakesArrayType source child) groups arrayTypes)
      (hrest : List.Forall₂ (Becomes source child) rest items) :
      Replaces source place child (arrayTypes ++ items)
  | item {child : Concrete} {item : Tree Unit} (hcomment : child.isComment = false)
      (hwhole : child.type = "dimensions" → place.owner.type = "array_creation_expression")
      (hitem : Becomes source place.owner child item) :
      Replaces source place child [item]

structure Gives (source : SourceBytes) (place : Opening) (node : Node Unit) : Prop where
  head : node.head = Concrete.headOf source place.owner
  children : ∃ parts, node.children = parts.flatten ∧
    List.Forall₂ (place.Replaces source) place.owner.children parts

/-- A node that is made of a bracket pair of dimensions below an opened node. -/
def Brackets (source : SourceBytes) (place : Opening) (node : Node Unit) : Prop :=
  ∃ dimensions ∈ place.owner.children, dimensions.type = "dimensions" ∧
    place.owner.type ≠ "array_creation_expression" ∧
    ∃ groups rest, Cut (dimensions.children.filter (!·.isComment)) groups rest ∧
      ∃ group ∈ groups, place.MakesArrayType source dimensions group node.toTree

end Opening

namespace Concrete

variable {source : SourceBytes}

theorem typeStart_dimensionOrigin (place : Opening) :
    place.TypeStart (dimensionOrigin place.parent place.owner).start := by
  have hdeclaration : (if place.owner.type == "variable_declarator" then place.parent
      else some place.owner) = place.declaration := by
    simp [Opening.declaration]
  rw [dimensionOrigin, hdeclaration]
  cases hfound : place.declaration.bind fun tree => tree.children.find? (·.info.fillsType) with
  | none =>
      refine .undeclared ?_
      intro declaration hmem child hchild
      rw [Option.mem_def] at hmem
      rw [hmem, Option.bind_some, List.find?_eq_none] at hfound
      simpa using hfound child hchild
  | some declared =>
      obtain ⟨declaration, hmem, hfind⟩ := Option.bind_eq_some_iff.mp hfound
      obtain ⟨hfills, earlier, later, hchildren, hfirst⟩ := List.find?_eq_some_iff_append.mp hfind
      exact .declared hmem hchildren hfills (by simpa using hfirst)

theorem becomes_of_convertItem {parent child : Concrete} {item : Tree Unit}
    (hitem : convertItem source (some parent) child = .ok item) :
    Becomes source parent child item := by
  refine ⟨hitem, ?_⟩
  rw [convertItem_eq] at hitem
  split at hitem
  · simp only [bind_eq_ok_iff, pure_eq_ok_iff] at hitem
    obtain ⟨token, -, rfl⟩ := hitem
    rfl
  · simp only [bind_eq_ok_iff, pure_eq_ok_iff] at hitem
    obtain ⟨items, -, rfl⟩ := hitem
    simpa [Tree.isArrayType, headOf] using construct?_ne_arrayType child

theorem convertPieces_becomes {dimensions : Concrete} {parts : List Concrete}
    {pieces : List (Info × Tree Unit)}
    (hpieces : convertPieces source dimensions parts = .ok pieces) :
    List.Forall₂ (fun part piece => piece.1 = part.info ∧ Becomes source dimensions part piece.2)
      (parts.filter (!·.isComment)) pieces := by
  induction parts generalizing pieces with
  | nil =>
      rw [convertPieces] at hpieces
      cases hpieces
      exact .nil
  | cons part rest ih =>
      rw [convertPieces_cons] at hpieces
      split at hpieces
      next hcomment => simpa [hcomment] using ih hpieces
      next hcomment =>
        simp only [bind_eq_ok_iff, pure_eq_ok_iff] at hpieces
        obtain ⟨item, hitem, later, hlater, rfl⟩ := hpieces
        simpa [hcomment] using ⟨becomes_of_convertItem hitem, ih hlater⟩

theorem groupDimensions_cut {place : Opening} {dimensions : Concrete} {start : Point}
    (hstart : place.TypeStart start) {inside parts : List Concrete}
    {pending : List (Tree Unit)} {pieces : List (Info × Tree Unit)}
    (hinside : ∀ part ∈ inside, part.type ≠ "]")
    (hpending : List.Forall₂ (Becomes source dimensions) inside pending)
    (hpieces : List.Forall₂
      (fun part piece => piece.1 = part.info ∧ Becomes source dimensions part piece.2)
      parts pieces) :
    ∃ groups rest arrayTypes items, Cut (inside ++ parts) groups rest ∧
      List.Forall₂ (place.MakesArrayType source dimensions) groups arrayTypes ∧
      List.Forall₂ (Becomes source dimensions) rest items ∧
      groupDimensions source (source.positionOf start) pending pieces = arrayTypes ++ items := by
  induction hpieces generalizing inside pending with
  | nil =>
      exact ⟨[], inside, [], pending, by simpa using Cut.nil hinside, .nil, hpending, rfl⟩
  | @cons part piece parts pieces hpiece hlater ih =>
      obtain ⟨info, item⟩ := piece
      obtain ⟨rfl, hitem⟩ := hpiece
      have hgrown : List.Forall₂ (Becomes source dimensions) (inside ++ [part])
          (pending ++ [item]) :=
        List.rel_append hpending (.cons hitem .nil)
      rw [groupDimensions]
      split
      next hclosing =>
        obtain ⟨groups, rest, arrayTypes, items, hcut, hgroups, hrest, hitems⟩ :=
          ih (by simp) .nil
        refine ⟨⟨inside, part⟩ :: groups, rest, _ :: arrayTypes, items,
          .cons (by simpa [type] using hclosing) hinside hcut, .cons (.intro hstart hgrown) hgroups,
          hrest, ?_⟩
        rw [hitems]
        rfl
      next hclosing =>
        have hopen : ∀ other ∈ inside ++ [part], other.type ≠ "]" := by
          intro other hother
          rcases List.mem_append.mp hother with hbefore | hlast
          · exact hinside other hbefore
          · rw [List.mem_singleton.mp hlast]
            simpa [type] using hclosing
        obtain ⟨groups, rest, arrayTypes, items, hcut, hlater⟩ := ih hopen hgrown
        exact ⟨groups, rest, arrayTypes, items, by simpa using hcut, hlater⟩

theorem splitsInto_iff {owner child : Concrete} :
    owner.splitsInto child = true ↔
      child.type = "dimensions" ∧ owner.type ≠ "array_creation_expression" := by
  simp [splitsInto]

theorem convertChildren_replaces (place : Opening) {children : List Concrete}
    {items : List (Tree Unit)}
    (hitems : convertChildren source place.parent place.owner children = .ok items) :
    ∃ parts, items = parts.flatten ∧ List.Forall₂ (place.Replaces source) children parts := by
  induction children generalizing items with
  | nil =>
      rw [convertChildren] at hitems
      cases hitems
      exact ⟨[], rfl, .nil⟩
  | cons child rest ih =>
      rw [convertChildren_cons] at hitems
      split at hitems
      next hcomment =>
        obtain ⟨parts, rfl, hparts⟩ := ih hitems
        exact ⟨[] :: parts, rfl, .cons (.comment hcomment) hparts⟩
      next hcomment =>
        split at hitems
        next hsplits =>
          simp only [bind_eq_ok_iff, pure_eq_ok_iff] at hitems
          obtain ⟨pieces, hpieces, later, hlater, rfl⟩ := hitems
          obtain ⟨parts, rfl, hparts⟩ := ih hlater
          obtain ⟨htype, howner⟩ := splitsInto_iff.mp hsplits
          obtain ⟨groups, rest, arrayTypes, items, hcut, hgroups, hrest, hgrouped⟩ :=
            groupDimensions_cut (typeStart_dimensionOrigin place) (by simp) .nil
              (convertPieces_becomes hpieces)
          rw [hgrouped]
          exact ⟨(arrayTypes ++ items) :: parts, rfl,
            .cons (.dimensions htype howner hcut hgroups hrest) hparts⟩
        next hsplits =>
          simp only [bind_eq_ok_iff, pure_eq_ok_iff] at hitems
          obtain ⟨item, hitem, later, hlater, rfl⟩ := hitems
          obtain ⟨parts, rfl, hparts⟩ := ih hlater
          have hwhole : child.type = "dimensions" →
              place.owner.type = "array_creation_expression" := by
            simpa [splitsInto] using hsplits
          exact ⟨[item] :: parts, rfl,
            .cons (.item (eq_false_of_ne_true hcomment) hwhole (becomes_of_convertItem hitem))
              hparts⟩

/-! ## The nodes of a converted tree -/

/-- Every node below an item is the node of an opening or made of one of its brackets. -/
def Accounted (source : SourceBytes) (tree : Concrete) : Prop :=
  ∀ parent item, convertItem source parent tree = .ok item →
    List.Forall₂ (Opening.Gives source) (tree.openings parent) item.plainNodes ∧
      ∀ found ∈ item.arrayTypes, ∃ place ∈ tree.openings parent, place.Brackets source found

theorem gives_of_becomes {parent : Concrete} {children : List Concrete}
    {items : List (Tree Unit)} (hbelow : ∀ child ∈ children, child.Accounted source)
    (hitems : List.Forall₂ (Becomes source parent) children items) :
    List.Forall₂ (Opening.Gives source) (children.flatMap (openings (some parent)))
      (items.flatMap Tree.plainNodes) :=
  List.rel_flatMap ((List.forall₂_and_left _ _).mpr ⟨hbelow, hitems⟩)
    fun _ _ hchild => (hchild.1 _ _ hchild.2.converts).1

theorem gives_of_groups {place : Opening} {dimensions : Concrete}
    {groups : List BracketGroup} {arrayTypes : List (Tree Unit)}
    (hbelow : ∀ group ∈ groups, ∀ part ∈ group.parts, part.Accounted source)
    (hgroups : List.Forall₂ (place.MakesArrayType source dimensions) groups arrayTypes) :
    List.Forall₂ (Opening.Gives source)
      ((groups.flatMap BracketGroup.parts).flatMap (openings (some dimensions)))
      (arrayTypes.flatMap Tree.plainNodes) := by
  rw [List.flatMap_assoc]
  refine List.rel_flatMap ((List.forall₂_and_left _ _).mpr ⟨hbelow, hgroups⟩) ?_
  rintro group _ ⟨hparts, ⟨hstart, hitems⟩⟩
  rw [Tree.plainNodes_of_eq rfl]
  exact gives_of_becomes hparts hitems

theorem gives_of_replaces {place : Opening} {child : Concrete} {part : List (Tree Unit)}
    (hbelow : child.Accounted source ∧ ∀ piece ∈ child.children, piece.Accounted source)
    (hreplaces : place.Replaces source child part) :
    List.Forall₂ (Opening.Gives source) (place.owner.openingsFrom child)
      (part.flatMap Tree.plainNodes) := by
  cases hreplaces with
  | comment hcomment => simp [openingsFrom, pieces, hcomment]
  | dimensions htype howner hcut hgroups hrest =>
      have hpieces : ∀ piece ∈ child.children.filter (!·.isComment), piece.Accounted source :=
        fun piece hpiece => hbelow.2 piece (List.mem_of_mem_filter hpiece)
      rw [hcut.whole, List.forall_mem_append] at hpieces
      rw [openingsFrom_of_split htype howner, hcut.whole, List.flatMap_append,
        List.flatMap_append]
      refine List.rel_append (gives_of_groups ?_ hgroups) (gives_of_becomes hpieces.2 hrest)
      intro group hgroup piece hpiece
      exact hpieces.1 piece (List.mem_flatMap.mpr ⟨group, hgroup, hpiece⟩)
  | item hcomment hwhole hitem =>
      rw [openingsFrom_of_whole hcomment hwhole, List.flatMap_singleton]
      exact (hbelow.1 _ _ hitem.converts).1

theorem exists_left_of_mem {α β : Type} {related : α → β → Prop} {lefts : List α}
    {rights : List β} (hrelated : List.Forall₂ related lefts rights) {right : β}
    (hright : right ∈ rights) : ∃ left ∈ lefts, related left right := by
  induction hrelated with
  | nil => simp at hright
  | cons hfirst _ ih =>
      rcases List.mem_cons.mp hright with rfl | hlater
      · exact ⟨_, List.mem_cons_self, hfirst⟩
      · obtain ⟨left, hleft, hrelates⟩ := ih hlater
        exact ⟨left, List.mem_cons_of_mem _ hleft, hrelates⟩

theorem brackets_of_becomes {parent : Concrete} {among children : List Concrete}
    {items : List (Tree Unit)} (hbelow : ∀ child ∈ among, child.Accounted source)
    (hamong : children ⊆ among) (hitems : List.Forall₂ (Becomes source parent) children items)
    {found : Node Unit} (hfound : ∃ item ∈ items, found ∈ item.arrayTypes) :
    ∃ inner ∈ among.flatMap (openings (some parent)), inner.Brackets source found := by
  obtain ⟨item, hitem, hmem⟩ := hfound
  obtain ⟨child, hchild, hbecomes⟩ := exists_left_of_mem hitems hitem
  obtain ⟨inner, hinner, hbrackets⟩ :=
    (hbelow child (hamong hchild) _ _ hbecomes.converts).2 found hmem
  exact ⟨inner, List.mem_flatMap.mpr ⟨child, hamong hchild, hinner⟩, hbrackets⟩

theorem brackets_of_replaces {place : Opening} {child : Concrete} {part : List (Tree Unit)}
    (hbelow : child.Accounted source ∧ ∀ piece ∈ child.children, piece.Accounted source)
    (hchild : child ∈ place.owner.children) (hreplaces : place.Replaces source child part)
    {found : Node Unit} (hfound : ∃ item ∈ part, found ∈ item.arrayTypes) :
    place.Brackets source found ∨
      ∃ inner ∈ place.owner.openingsFrom child, inner.Brackets source found := by
  obtain ⟨item, hitem, hmem⟩ := hfound
  cases hreplaces with
  | comment hcomment => simp at hitem
  | @dimensions groups rest arrayTypes items htype howner hcut hgroups hrest =>
      have hpieces : ∀ piece ∈ child.children.filter (!·.isComment), piece.Accounted source :=
        fun piece hpiece => hbelow.2 piece (List.mem_of_mem_filter hpiece)
      rw [openingsFrom_of_split htype howner]
      rcases List.mem_append.mp hitem with harray | hlast
      · obtain ⟨group, hgroup, hmakes⟩ := exists_left_of_mem hgroups harray
        obtain ⟨hstart, hinner⟩ := hmakes
        rcases Tree.mem_arrayTypes_node hmem with ⟨rfl, -⟩ | hdeeper
        · exact .inl ⟨child, hchild, htype, howner, groups, rest, hcut, group, hgroup,
            .intro hstart hinner⟩
        · exact .inr (brackets_of_becomes hpieces (hcut.parts_subset hgroup) hinner hdeeper)
      · have hsubset : rest ⊆ child.children.filter (!·.isComment) := by
          rw [hcut.whole]
          exact List.subset_append_right _ _
        exact .inr (brackets_of_becomes hpieces hsubset hrest ⟨item, hlast, hmem⟩)
  | item hcomment hwhole hbecomes =>
      rw [List.mem_singleton.mp hitem] at hmem
      rw [openingsFrom_of_whole hcomment hwhole]
      exact .inr ((hbelow.1 _ _ hbecomes.converts).2 found hmem)

theorem accounted_of_children (place : Opening) {items : List (Tree Unit)}
    (hbelow : ∀ child ∈ place.owner.children,
      child.Accounted source ∧ ∀ piece ∈ child.children, piece.Accounted source)
    (hitems : convertChildren source place.parent place.owner place.owner.children = .ok items) :
    List.Forall₂ (Opening.Gives source)
        (place :: openingsAmong place.owner place.owner.children)
        (Tree.node () (headOf source place.owner) items).plainNodes ∧
      ∀ found ∈ (Tree.node () (headOf source place.owner) items).arrayTypes,
        ∃ inner ∈ place :: openingsAmong place.owner place.owner.children,
          inner.Brackets source found := by
  have hplain : (headOf source place.owner).construct ≠ some .arrayType :=
    construct?_ne_arrayType place.owner
  obtain ⟨parts, rfl, hparts⟩ := convertChildren_replaces place hitems
  rw [openingsAmong_eq]
  constructor
  · rw [Tree.plainNodes_of_ne hplain]
    refine .cons ⟨rfl, parts, rfl, hparts⟩ ?_
    rw [List.flatten_eq_flatMap, List.flatMap_assoc]
    exact List.rel_flatMap ((List.forall₂_and_left _ _).mpr ⟨hbelow, hparts⟩)
      fun _ _ hchild => gives_of_replaces hchild.1 hchild.2
  · intro found hfound
    rcases Tree.mem_arrayTypes_node hfound with ⟨-, harray⟩ | ⟨item, hitem, hmem⟩
    · exact absurd harray hplain
    · obtain ⟨part, hpart, hin⟩ := List.mem_flatten.mp hitem
      obtain ⟨child, hchild, hreplaces⟩ := exists_left_of_mem hparts hpart
      rcases brackets_of_replaces (hbelow child hchild) hchild hreplaces ⟨item, hin, hmem⟩ with
        hhere | ⟨inner, hinner, hbrackets⟩
      · exact ⟨place, List.mem_cons_self, hhere⟩
      · exact ⟨inner, List.mem_cons_of_mem _ (List.mem_flatMap.mpr ⟨child, hchild, hinner⟩),
          hbrackets⟩

theorem accounted (tree : Concrete) : tree.Accounted source := by
  refine (induction (motive := Accounted source) ?_ tree).1
  intro info children hbelow parent item hitem
  rw [convertItem_eq] at hitem
  rw [openings_eq]
  split at hitem
  next hleaf =>
    simp only [bind_eq_ok_iff, pure_eq_ok_iff] at hitem
    obtain ⟨token, -, rfl⟩ := hitem
    simp [hleaf, Tree.plainNodes, Tree.arrayTypes]
  next hopen =>
    simp only [bind_eq_ok_iff, pure_eq_ok_iff] at hitem
    obtain ⟨items, hitems, rfl⟩ := hitem
    rw [if_neg hopen]
    exact accounted_of_children ⟨parent, node info children⟩ hbelow hitems

theorem accounted_of_convert {root : Concrete} {tree : Tree Unit}
    (htree : root.convert source = .ok tree) :
    List.Forall₂ (Opening.Gives source) root.allOpenings tree.plainNodes ∧
      ∀ node ∈ tree.arrayTypes, ∃ place ∈ root.allOpenings, place.Brackets source node := by
  rw [convert_eq] at htree
  split at htree
  next => cases htree
  next =>
    simp only [bind_eq_ok_iff, pure_eq_ok_iff] at htree
    obtain ⟨items, hitems, rfl⟩ := htree
    exact accounted_of_children ⟨none, root⟩
      (fun child _ => ⟨accounted child, fun part _ => accounted part⟩) hitems

/--
Array types are the bracket pairs of dimensions.  A tree can be converted if its root
lacks no operator and all its tokens are text.  The nodes that are no array types are then
those of the opened nodes, in document order, and each has for its items what stands in
the place of its children: for dimensions one array type for every closing bracket, and
then the parts left over.  Every array type of the tree is one of these.
-/
theorem convert_arrayTypes_exact (source : SourceBytes) (root : Concrete) :
    ((∃ tree, root.convert source = .ok tree) ↔
        root.lacksOperator = false ∧ ∀ place ∈ root.allOpenings, place.Legible source) ∧
      ∀ tree, root.convert source = .ok tree →
        List.Forall₂ (Opening.Gives source) root.allOpenings tree.plainNodes ∧
          ∀ node ∈ tree.arrayTypes, ∃ place ∈ root.allOpenings, place.Brackets source node := by
  refine ⟨exists_convert_iff_legible, ?_⟩
  intro tree htree
  exact accounted_of_convert htree

/-- A declaration whose dimensions have a comment between their brackets, and an
annotation that no bracket follows. -/
def strayMarker : Concrete :=
  .node (.inLine "local_variable_declaration" 0 14)
    [.node { Info.inLine "type_identifier" 0 1 with fillsType := true } [],
     .node (.inLine "variable_declarator" 2 13)
       [.leaf "identifier" 2 3,
        .node (.inLine "dimensions" 3 13)
          [.leaf "[" 3 4, .leaf "block_comment" 4 8, .leaf "]" 8 9,
           .node (.inLine "marker_annotation" 10 13) [.leaf "@" 10 11, .leaf "identifier" 11 13]]],
     .leaf ";" 13 14]

def strayMarkerSource : SourceBytes :=
  .ofText "Dims.java" "T a[/**/] @No;".toList

theorem convert_strayMarker :
    ∃ tree, strayMarker.convert strayMarkerSource = .ok tree ∧
      tree.plainNodes.map (·.head.type) =
        ["local_variable_declaration", "variable_declarator", "marker_annotation"] ∧
      tree.arrayTypes.map (·.head) =
        [⟨"dimension", some .arrayType, "Dims.java", ⟨1, 1⟩, ⟨1, 10⟩⟩] ∧
      List.Forall₂ (Opening.Gives strayMarkerSource) strayMarker.allOpenings
        tree.plainNodes ∧
      ∀ node ∈ tree.arrayTypes, ∃ place ∈ strayMarker.allOpenings,
        place.Brackets strayMarkerSource node := by
  have hnodes : (strayMarker.convert strayMarkerSource).toOption.map (fun tree =>
      (tree.plainNodes.map (·.head.type), tree.arrayTypes.map (·.head))) =
        some (["local_variable_declaration", "variable_declarator", "marker_annotation"],
          [⟨"dimension", some .arrayType, "Dims.java", ⟨1, 1⟩, ⟨1, 10⟩⟩]) := by
    decide +kernel
  cases htree : strayMarker.convert strayMarkerSource with
  | error fault =>
      rw [htree] at hnodes
      cases hnodes
  | ok tree =>
      rw [htree] at hnodes
      obtain ⟨hplain, harrays⟩ := Prod.mk.inj (Option.some.inj hnodes)
      exact ⟨tree, rfl, hplain, harrays,
        (convert_arrayTypes_exact strayMarkerSource strayMarker).2 tree htree⟩

end Concrete

end Java

end TokenSpacing
