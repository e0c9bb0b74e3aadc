import Mathlib.Data.List.Basic
import TokenSpacing.Proofs.Conversion

/-!
# Comments are invisible

Three views of a node's children decide what it becomes: its construct is read off all
of them, its items are made of those that are no comments, and the parts of dimensions
are grouped without comments once more.  Where comments only stand between other
children the three views agree, and a tree is converted like the same tree with its
comments deleted.
-/

namespace TokenSpacing.Java.Concrete

/-! ## Deleting comments -/

mutual

def withoutComments : Concrete → Concrete
  | node info children => node info (dropComments children)

def dropComments : List Concrete → List Concrete
  | [] => []
  | tree :: rest =>
      if tree.isComment then dropComments rest
      else tree.withoutComments :: dropComments rest

end

@[simp] theorem info_withoutComments (tree : Concrete) : tree.withoutComments.info = tree.info := by
  cases tree
  simp [withoutComments, info]

@[simp] theorem type_withoutComments (tree : Concrete) : tree.withoutComments.type = tree.type := by
  simp [type]

@[simp] theorem isComment_withoutComments (tree : Concrete) :
    tree.withoutComments.isComment = tree.isComment := by
  simp [isComment]

@[simp] theorem isAtomic_withoutComments (tree : Concrete) :
    tree.withoutComments.isAtomic = tree.isAtomic := by
  simp [isAtomic]

@[simp] theorem splitsInto_withoutComments (owner child : Concrete) :
    owner.withoutComments.splitsInto child.withoutComments = owner.splitsInto child := by
  simp [splitsInto]

theorem children_node (info : Info) (children : List Concrete) :
    (node info children).children = children := rfl

theorem children_withoutComments (tree : Concrete) :
    tree.withoutComments.children = dropComments tree.children := by
  cases tree
  simp [withoutComments, children]

theorem dropComments_eq (trees : List Concrete) :
    dropComments trees = (trees.filter (!·.isComment)).map withoutComments := by
  induction trees with
  | nil => simp [dropComments]
  | cons tree rest ih => cases hcomment : tree.isComment <;> simp [dropComments, hcomment, ih]

/-! ## Comments between other children -/

def CommentsUntyped (tree : Concrete) : Prop :=
  ∀ child ∈ tree.children, child.isComment = true → child.info.fillsType = false

instance (tree : Concrete) : Decidable tree.CommentsUntyped :=
  inferInstanceAs (Decidable (∀ child ∈ tree.children, _ → _))

/-- Neither the first nor the last child is a comment, and no comment is a type. -/
structure CommentsBetween (tree : Concrete) : Prop where
  first : ∀ child ∈ tree.children.head?, child.isComment = false
  last : ∀ child ∈ tree.children.getLast?, child.isComment = false
  untyped : tree.CommentsUntyped

instance (tree : Concrete) : Decidable tree.CommentsBetween :=
  decidable_of_iff
    ((∀ child ∈ tree.children.head?, child.isComment = false) ∧
      (∀ child ∈ tree.children.getLast?, child.isComment = false) ∧ tree.CommentsUntyped)
    ⟨fun h => ⟨h.1, h.2.1, h.2.2⟩, fun h => ⟨h.first, h.last, h.untyped⟩⟩

variable {tree : Concrete}

theorem CommentsBetween.head?_dropComments (htree : tree.CommentsBetween) :
    (dropComments tree.children).head? = tree.children.head?.map withoutComments := by
  have hfirst := htree.first
  cases hchildren : tree.children with
  | nil => simp [dropComments]
  | cons child rest =>
      rw [hchildren] at hfirst
      have hkept : child.isComment = false := hfirst child rfl
      simp [dropComments, hkept]

theorem CommentsBetween.getLast?_dropComments (htree : tree.CommentsBetween) :
    (dropComments tree.children).getLast? = tree.children.getLast?.map withoutComments := by
  have hlast := htree.last
  rcases List.eq_nil_or_concat tree.children with hchildren | ⟨earlier, child, hchildren⟩
  · simp [hchildren, dropComments]
  · rw [hchildren] at hlast ⊢
    have hkept : child.isComment = false := hlast child (by simp)
    simp [dropComments_eq, hkept]

theorem CommentsBetween.isEmpty_dropComments (htree : tree.CommentsBetween) :
    (dropComments tree.children).isEmpty = tree.children.isEmpty := by
  rw [Bool.eq_iff_iff, List.isEmpty_iff, List.isEmpty_iff, ← List.head?_eq_none_iff,
    htree.head?_dropComments, Option.map_eq_none_iff, List.head?_eq_none_iff]

/-! ## Constructs and origins -/

theorem any_type_dropComments (trees : List Concrete) :
    (dropComments trees).any (·.type == ".") = trees.any (·.type == ".") := by
  induction trees with
  | nil => simp [dropComments]
  | cons child rest ih =>
      rw [dropComments]
      split
      next hcomment =>
        have hdot : (child.type == ".") = false := by
          rw [isComment, Bool.or_eq_true, beq_iff_eq, beq_iff_eq] at hcomment
          rcases hcomment with htype | htype <;> rw [htype] <;> decide
        rw [ih, List.any_cons, hdot, Bool.false_or]
      next => simp [ih]

theorem construct?_withoutComments
    (hends : tree.type = "unary_expression" ∨ tree.type = "update_expression" →
      tree.CommentsBetween) : tree.withoutComments.construct? = tree.construct? := by
  have hfirst : tree.CommentsBetween →
      tree.withoutComments.firstType? = tree.firstType? := by
    intro htree
    simp [firstType?, children_withoutComments, htree.head?_dropComments, Function.comp_def]
  have hlast : tree.CommentsBetween →
      tree.withoutComments.lastType? = tree.lastType? := by
    intro htree
    simp [lastType?, children_withoutComments, htree.getLast?_dropComments, Function.comp_def]
  unfold construct?
  rw [type_withoutComments, children_withoutComments, any_type_dropComments]
  by_cases hunary : tree.type = "unary_expression"
  · rw [hfirst (hends (.inl hunary))]
    simp [hunary]
  · by_cases hupdate : tree.type = "update_expression"
    · rw [hfirst (hends (.inr hupdate)), hlast (hends (.inr hupdate))]
    · simp [hunary, hupdate]

theorem headOf_withoutComments (source : SourceBytes)
    (hends : tree.type = "unary_expression" ∨ tree.type = "update_expression" →
      tree.CommentsBetween) : headOf source tree.withoutComments = headOf source tree := by
  simp [headOf, construct?_withoutComments hends]

theorem find?_dropComments {trees : List Concrete}
    (huntyped : ∀ child ∈ trees, child.isComment = true → child.info.fillsType = false) :
    ((dropComments trees).find? (·.info.fillsType)).map info =
      (trees.find? (·.info.fillsType)).map info := by
  induction trees with
  | nil => simp [dropComments]
  | cons child rest ih =>
      obtain ⟨hchild, hrest⟩ := List.forall_mem_cons.mp huntyped
      rw [dropComments]
      split
      next hcomment => rw [List.find?_cons_of_neg (by simp [hchild hcomment]), ih hrest]
      next =>
        cases htype : child.info.fillsType with
        | true => simp [htype]
        | false => simpa [htype] using ih hrest

theorem dimensionOrigin_withoutComments {parent : Option Concrete} {owner : Concrete}
    (hparent : ∀ above ∈ parent, above.CommentsUntyped) (howner : owner.CommentsUntyped) :
    dimensionOrigin (parent.map withoutComments) owner.withoutComments =
      dimensionOrigin parent owner := by
  have hdeclared : ∀ declaration : Option Concrete,
      (∀ above ∈ declaration, above.CommentsUntyped) →
      (((declaration.map withoutComments).bind fun above =>
          above.children.find? (·.info.fillsType)).map info) =
        (declaration.bind fun above => above.children.find? (·.info.fillsType)).map info := by
    intro declaration huntyped
    cases declaration with
    | none => rfl
    | some above =>
        have hfound := find?_dropComments (huntyped above rfl)
        simpa [children_withoutComments] using hfound
  unfold dimensionOrigin
  rw [type_withoutComments, info_withoutComments]
  split
  · exact congrArg (·.getD owner.info) (hdeclared parent hparent)
  · exact congrArg (·.getD owner.info) (hdeclared (some owner) (by simpa using howner))

/-! ## Conversion -/

variable {source : SourceBytes}

-- One equation for each of the three functions.  A node passes itself down as the parent
-- of its children, so the nodes above lose their comments as well.
mutual

theorem convertItem_withoutComments {parent : Option Concrete}
    (hparent : ∀ above ∈ parent, above.CommentsUntyped) :
    ∀ tree : Concrete, (∀ below ∈ tree.nodes, below.CommentsBetween) →
      convertItem source (parent.map withoutComments) tree.withoutComments =
        convertItem source parent tree
  | node info children, htree => by
      obtain ⟨hroot, hchildren⟩ := forall_nodes_iff.mp htree
      have hbelow := convertChildren_withoutComments hparent hroot.untyped children hchildren
      rw [convertItem_eq, convertItem_eq, children_withoutComments, hroot.isEmpty_dropComments,
        isAtomic_withoutComments, info_withoutComments,
        headOf_withoutComments source fun _ => hroot, children_node, hbelow]

theorem convertChildren_withoutComments {parent : Option Concrete} {owner : Concrete}
    (hparent : ∀ above ∈ parent, above.CommentsUntyped) (howner : owner.CommentsUntyped) :
    ∀ children : List Concrete,
      (∀ child ∈ children, ∀ below ∈ child.nodes, below.CommentsBetween) →
      convertChildren source (parent.map withoutComments) owner.withoutComments
          (dropComments children) =
        convertChildren source parent owner children
  | [], _ => by simp [dropComments, convertChildren]
  | node info children :: rest, hall => by
      obtain ⟨htree, hrest⟩ := List.forall_mem_cons.mp hall
      have hlater := convertChildren_withoutComments hparent howner rest hrest
      rw [dropComments, convertChildren_cons]
      split
      next => exact hlater
      next hkept =>
        rw [convertChildren_cons, if_neg (by simpa using hkept), splitsInto_withoutComments, hlater,
          dimensionOrigin_withoutComments hparent howner, children_withoutComments]
        split
        next =>
          obtain ⟨hroot, hparts⟩ := forall_nodes_iff.mp htree
          have hpieces := convertPieces_withoutComments hroot.untyped children hparts
          rw [children_node, hpieces]
        next =>
          have habove : ∀ above ∈ some owner, above.CommentsUntyped := by simpa using howner
          rw [← convertItem_withoutComments habove (node info children) htree, Option.map_some]

theorem convertPieces_withoutComments {dimensions : Concrete}
    (hdimensions : dimensions.CommentsUntyped) :
    ∀ parts : List Concrete, (∀ part ∈ parts, ∀ below ∈ part.nodes, below.CommentsBetween) →
      convertPieces source dimensions.withoutComments (dropComments parts) =
        convertPieces source dimensions parts
  | [], _ => by simp [dropComments, convertPieces]
  | node info children :: rest, hall => by
      obtain ⟨htree, hrest⟩ := List.forall_mem_cons.mp hall
      have hlater := convertPieces_withoutComments hdimensions rest hrest
      rw [dropComments, convertPieces_cons]
      split
      next => exact hlater
      next hkept =>
        have habove : ∀ above ∈ some dimensions, above.CommentsUntyped := by
          simpa using hdimensions
        rw [convertPieces_cons, if_neg (by simpa using hkept), hlater, info_withoutComments,
          ← convertItem_withoutComments habove (node info children) htree, Option.map_some]

end

/--
Comments are invisible.  Where they only stand between other children, and none of them
is the type of a declaration, a tree gives the same items as the tree without them: the
same constructs, spans and tokens in the same places.  Only the root may start or end
with comments, and only if it is no expression with an operator.
-/
theorem convert_withoutComments (source : SourceBytes) (root : Concrete)
    (hbetween : ∀ below ∈ nodesAmong root.children, below.CommentsBetween)
    (huntyped : root.CommentsUntyped) (hunary : root.type ≠ "unary_expression")
    (hupdate : root.type ≠ "update_expression") :
    root.withoutComments.convert source = root.convert source := by
  have hchildren : ∀ child ∈ root.children, ∀ below ∈ child.nodes, below.CommentsBetween := by
    intro child hchild below hbelow
    exact hbetween below (mem_nodesAmong.mpr ⟨child, hchild, hbelow⟩)
  have hnone : ∀ above ∈ (none : Option Concrete), above.CommentsUntyped := by simp
  have hitems : convertChildren source none root.withoutComments (dropComments root.children) =
      convertChildren source none root root.children :=
    convertChildren_withoutComments hnone huntyped root.children hchildren
  have hhead : headOf source root.withoutComments = headOf source root :=
    headOf_withoutComments source (by simp [hunary, hupdate])
  have hoperator : ∀ tree : Concrete, tree.type = root.type → tree.lacksOperator = false := by
    intro tree htype
    simp [lacksOperator, htype, hunary, hupdate]
  rw [convert_eq, convert_eq, hoperator _ (type_withoutComments root), hoperator _ rfl, hhead,
    children_withoutComments, hitems]

def commentedDeclaration : Concrete :=
  .node { Info.inLine "program" 0 29 with stop := ⟨1, 24⟩ }
    [.leaf "line_comment" 0 4,
     .node (.inRow 1 5 "local_variable_declaration" 0 24)
      [.node { Info.inRow 1 5 "integral_type" 0 3 with fillsType := true }
         [.node (.inRow 1 5 "int" 0 3) []],
       .node (.inRow 1 5 "variable_declarator" 4 23)
         [.node (.inRow 1 5 "identifier" 4 5) [],
          .node (.inRow 1 5 "dimensions" 5 11)
            [.node (.inRow 1 5 "[" 5 6) [], .node (.inRow 1 5 "block_comment" 6 10) [],
             .node (.inRow 1 5 "]" 10 11) []],
          .node (.inRow 1 5 "=" 12 13) [],
          .node (.inRow 1 5 "update_expression" 14 23)
            [.node (.inRow 1 5 "identifier" 14 15) [],
             .node (.inRow 1 5 "block_comment" 16 20) [], .node (.inRow 1 5 "++" 21 23) []]],
       .node (.inRow 1 5 ";" 23 24) []]]

def commentedText : List Char :=
  "// x\nint a[/**/] = b /**/ ++;".toList

theorem convert_commentedDeclaration :
    (∀ below ∈ nodesAmong commentedDeclaration.children, below.CommentsBetween) ∧
      (nodesAmong commentedDeclaration.withoutComments.children).map type =
        ["local_variable_declaration", "integral_type", "int", "variable_declarator", "identifier",
         "dimensions", "[", "]", "=", "update_expression", "identifier", "++", ";"] ∧
      ∃ tree, commentedDeclaration.convert (.ofText "Comments.java" commentedText) = .ok tree ∧
        commentedDeclaration.withoutComments.convert (.ofText "Comments.java" commentedText) =
          .ok tree := by
  have hconsistent : commentedDeclaration.Consistent commentedText := by decide +kernel
  obtain ⟨tree, htree, -⟩ := convert_inPlace "Comments.java" hconsistent (by decide)
  have hbetween : ∀ below ∈ nodesAmong commentedDeclaration.children, below.CommentsBetween := by
    decide +kernel
  have hsame := convert_withoutComments (.ofText "Comments.java" commentedText)
    commentedDeclaration hbetween (by decide +kernel) (by decide) (by decide)
  exact ⟨hbetween, by decide +kernel, tree, htree, hsame.trans htree⟩

end TokenSpacing.Java.Concrete
