import Mathlib.Data.List.Forall2
import TokenSpacing.Proofs.Conversion

/-!
# Conversion keeps every leaf

The tokens of a converted tree are the leaves of the concrete tree, one for each and
in the same order.  Comments have no leaves, and an atomic node is a leaf itself.
Splitting dimensions into nodes moves no token, because their parts are cut into
consecutive groups.
-/

namespace TokenSpacing.Java

/-- A token that has the bytes of a concrete node for its text, and the span of the
node. -/
structure Carries (source : SourceBytes) (info : Info) (token : Token) : Prop where
  bytes : Text.encode token.text.toList = source.slice info.startByte info.stopByte
  span : token.span = source.spanOf info

namespace Concrete

/-! ## Leaves of a concrete tree -/

mutual

/-- The nodes that tokens are made of, in document order. -/
def leaves : Concrete → List Info
  | node info children =>
      if (node info children).isComment then []
      else if children.isEmpty || (node info children).isAtomic then [info]
      else leavesAmong children

def leavesAmong : List Concrete → List Info
  | [] => []
  | tree :: rest => tree.leaves ++ leavesAmong rest

end

def DimensionsFilled (tree : Concrete) : Prop :=
  ∀ node ∈ tree.nodes, node.type = "dimensions" → node.children ≠ []

instance (tree : Concrete) : Decidable tree.DimensionsFilled :=
  inferInstanceAs (Decidable (∀ node ∈ tree.nodes, _ → _))

theorem dimensionsFilled_node_iff {info : Info} {children : List Concrete} :
    (node info children).DimensionsFilled ↔
      (info.type = "dimensions" → children ≠ []) ∧
        ∀ child ∈ children, child.DimensionsFilled :=
  forall_nodes_iff

theorem leaves_of_splitsInto {owner : Concrete} {info : Info} {children : List Concrete}
    (hcomment : (node info children).isComment = false)
    (hsplits : owner.splitsInto (node info children) = true)
    (hfilled : info.type = "dimensions" → children ≠ []) :
    (node info children).leaves = leavesAmong children := by
  have htype : info.type = "dimensions" := by
    simp only [splitsInto, Bool.and_eq_true, beq_iff_eq] at hsplits
    exact hsplits.1
  have hatomic : (node info children).isAtomic = false := by
    change ["string_literal", "text_block", "character_literal"].contains info.type = false
    rw [htype]
    decide
  simp [leaves, hcomment, hatomic, hfilled htype]

/-! ## Tokens of the converted tree -/

theorem tokenOf_eq_ok_iff {source : SourceBytes} {info : Info} {token : Token} :
    tokenOf source info = .ok token ↔ Carries source info token := by
  have hdecode : ∀ text : List Char,
      Text.decode? (source.slice info.startByte info.stopByte) = some text ↔
        Text.encode text = source.slice info.startByte info.stopByte :=
    fun text => Text.decode?_eq_some_iff.trans eq_comm
  unfold tokenOf
  constructor
  · intro htoken
    cases htext : Text.decode? (source.slice info.startByte info.stopByte) with
    | none =>
        rw [htext] at htoken
        contradiction
    | some text =>
        rw [htext] at htoken
        cases htoken
        exact ⟨by simpa using (hdecode text).mp htext, rfl⟩
  · rintro ⟨hbytes, hspan⟩
    rw [(hdecode _).mpr hbytes, ← hspan]
    simp

theorem exists_tokenOf_iff {source : SourceBytes} {info : Info} :
    (∃ token, tokenOf source info = .ok token) ↔
      ∃ text, Text.encode text = source.slice info.startByte info.stopByte := by
  simp only [tokenOf_eq_ok_iff]
  constructor
  · rintro ⟨token, hcarries⟩
    exact ⟨token.text.toList, hcarries.bytes⟩
  · rintro ⟨text, hbytes⟩
    exact ⟨⟨String.ofList text, source.spanOf info⟩, by simpa using hbytes, rfl⟩

theorem groupDimensions_tokens (source : SourceBytes) (start : Position)
    (pending : List (Tree Unit)) (pieces : List (Info × Tree Unit)) :
    (groupDimensions source start pending pieces).flatMap Tree.tokens =
      pending.flatMap Tree.tokens ++ pieces.flatMap fun piece => piece.2.tokens := by
  induction pieces generalizing pending with
  | nil => simp [groupDimensions]
  | cons piece rest ih =>
      obtain ⟨info, item⟩ := piece
      rw [groupDimensions]
      split <;> simp [ih]

variable {source : SourceBytes}

mutual

theorem convertItem_tokens (parent : Option Concrete) :
    ∀ tree : Concrete, tree.DimensionsFilled → tree.isComment = false →
      Tree.tokens <$> convertItem source parent tree = tree.leaves.mapM (tokenOf source)
  | node info children, htree, hcomment => by
      obtain ⟨-, hchildren⟩ := dimensionsFilled_node_iff.mp htree
      have hbelow := convertChildren_tokens parent (node info children) children hchildren
      simp only [convertItem, leaves, hcomment]
      split
      · simp
      · simp [← hbelow]

theorem convertChildren_tokens (parent : Option Concrete) (owner : Concrete) :
    ∀ children : List Concrete, (∀ child ∈ children, child.DimensionsFilled) →
      (fun items => items.flatMap Tree.tokens) <$> convertChildren source parent owner children =
        (leavesAmong children).mapM (tokenOf source)
  | [], _ => by
      rw [convertChildren, leavesAmong]
      rfl
  | node info children :: rest, hall => by
      obtain ⟨htree, hrest⟩ := List.forall_mem_cons.mp hall
      have hlater := convertChildren_tokens parent owner rest hrest
      rw [convertChildren, leavesAmong, List.mapM_append, ← hlater]
      split
      next hcomment => simp [leaves, hcomment]
      next hcomment =>
        have hkept := eq_false_of_ne_true hcomment
        split
        next hsplits =>
          obtain ⟨hfilled, hparts⟩ := dimensionsFilled_node_iff.mp htree
          have hpieces := convertPieces_tokens (node info children) children hparts
          rw [leaves_of_splitsInto hkept hsplits hfilled, ← hpieces]
          simp [groupDimensions_tokens]
        next =>
          have hitem := convertItem_tokens (some owner) (node info children) htree hkept
          rw [← hitem]
          simp

theorem convertPieces_tokens (dimensions : Concrete) :
    ∀ parts : List Concrete, (∀ part ∈ parts, part.DimensionsFilled) →
      (fun pieces => pieces.flatMap fun piece => piece.2.tokens) <$>
          convertPieces source dimensions parts =
        (leavesAmong parts).mapM (tokenOf source)
  | [], _ => by
      rw [convertPieces, leavesAmong]
      rfl
  | node info children :: rest, hall => by
      obtain ⟨htree, hrest⟩ := List.forall_mem_cons.mp hall
      have hlater := convertPieces_tokens dimensions rest hrest
      rw [convertPieces, leavesAmong, List.mapM_append, ← hlater]
      split
      next hcomment => simp [leaves, hcomment]
      next hcomment =>
        have hitem := convertItem_tokens (some dimensions) (node info children) htree
          (eq_false_of_ne_true hcomment)
        rw [← hitem]
        simp

end

theorem convert_tokens (source : SourceBytes) {root : Concrete}
    (hdimensions : root.DimensionsFilled) (hoperator : root.lacksOperator = false) :
    Tree.tokens <$> root.convert source = (leavesAmong root.children).mapM (tokenOf source) := by
  have hchildren : ∀ child ∈ root.children, child.DimensionsFilled := by
    cases root
    exact (dimensionsFilled_node_iff.mp hdimensions).2
  rw [convert_eq, if_neg (by simp [hoperator]), ← convertChildren_tokens none root _ hchildren]
  simp

theorem exists_convert_iff {root : Concrete} (hdimensions : root.DimensionsFilled)
    (hoperator : root.lacksOperator = false) :
    (∃ tree, root.convert source = .ok tree) ↔
      ∀ info ∈ leavesAmong root.children, ∃ text,
        Text.encode text = source.slice info.startByte info.stopByte := by
  have hsucceeds : (∃ tree, root.convert source = .ok tree) ↔
      ∃ tokens, (leavesAmong root.children).mapM (tokenOf source) = .ok tokens := by
    simp only [← convert_tokens source hdimensions hoperator, map_eq_ok_iff]
    constructor
    · rintro ⟨tree, htree⟩
      exact ⟨tree.tokens, tree, htree, rfl⟩
    · rintro ⟨tokens, tree, htree, -⟩
      exact ⟨tree, htree⟩
  rw [hsucceeds, exists_mapM_eq_ok_iff]
  exact forall₂_congr fun info _ => exists_tokenOf_iff

/--
Conversion loses, repeats and moves no token.  It succeeds exactly where all leaves are
text.  The draft is then read as a tree whose walk meets every item that was made, each
of them once and below its parent, and one token for each leaf, in the same order.  Every
item but the root stands once, in the list of children of the node it has for a parent.
-/
theorem convert_keeps_leaves (source : SourceBytes) (root : Concrete)
    (hdimensions : root.DimensionsFilled) (hoperator : root.lacksOperator = false) :
    ((∃ draft, root.build source = .ok draft) ↔
        ∀ info ∈ leavesAmong root.children, ∃ text,
          Text.encode text = source.slice info.startByte info.stopByte) ∧
      ∀ draft, root.build source = .ok draft →
        draft.HangsOnce ∧
          ∃ tree, draft.tree? 0 = some tree ∧ root.convert source = .ok tree.unmarked ∧
            draft.sites 0 = tree.sites none ∧
            (tree.walk.map Tree.mark).Perm (List.range draft.size) ∧
            List.Forall₂ (Carries source) (leavesAmong root.children) tree.tokens := by
  refine ⟨?_, ?_⟩
  · rw [← exists_convert_iff hdimensions hoperator]
    exact exists_return_eq_ok_iff.symm
  · intro draft hbuild
    obtain ⟨hhangs, tree, htree, hroot, hshows, hconvert⟩ := convert_of_build hbuild
    refine ⟨hhangs, tree, htree, hconvert, hhangs.sites_eq hshows hroot,
      hhangs.walk_perm_range hshows hroot, ?_⟩
    have hmap := convert_tokens source hdimensions hoperator
    rw [hconvert] at hmap
    have hpairs := mapM_eq_ok_iff.mp hmap.symm
    simpa only [tokenOf_eq_ok_iff, Tree.tokens_unmarked] using hpairs

/-- A declaration with an annotation and a comment among its dimensions, and with a
literal that has parts. -/
def annotatedDimensions : Concrete :=
  .node (.inLine "program" 0 26)
    [.node (.inLine "local_variable_declaration" 0 26)
      [.node { Info.inLine "integral_type" 0 3 with fillsType := true } [.leaf "int" 0 3],
       .node (.inLine "variable_declarator" 4 25)
         [.leaf "identifier" 4 6,
          .node (.inLine "dimensions" 7 19)
            [.node (.inLine "marker_annotation" 7 9) [.leaf "@" 7 8, .leaf "identifier" 8 9],
             .leaf "[" 10 11, .leaf "]" 11 12, .leaf "block_comment" 13 17, .leaf "[" 17 18,
             .leaf "]" 18 19],
          .leaf "=" 20 21,
          .node (.inLine "string_literal" 22 25)
            [.leaf "\"" 22 23, .leaf "string_fragment" 23 24, .leaf "\"" 24 25]],
       .leaf ";" 25 26]]

def annotatedText : List Char :=
  "int é @A [] /**/[] = \"x\";".toList

theorem convert_annotatedDimensions :
    annotatedDimensions.DimensionsFilled ∧
      (leavesAmong annotatedDimensions.children).map Info.type =
        ["int", "identifier", "@", "identifier", "[", "]", "[", "]", "=", "string_literal", ";"] ∧
      ∃ draft, annotatedDimensions.build (.ofText "Dims.java" annotatedText) = .ok draft ∧
        draft.HangsOnce ∧
          ∃ tree, draft.tree? 0 = some tree ∧
            annotatedDimensions.convert (.ofText "Dims.java" annotatedText) =
              .ok tree.unmarked ∧
            draft.sites 0 = tree.sites none ∧
            (tree.walk.map Tree.mark).Perm (List.range draft.size) ∧
            List.Forall₂ (Carries (.ofText "Dims.java" annotatedText))
              (leavesAmong annotatedDimensions.children) tree.tokens := by
  have hfilled : annotatedDimensions.DimensionsFilled := by decide +kernel
  have hconsistent : annotatedDimensions.Consistent annotatedText := by decide +kernel
  obtain ⟨tree, htree, -⟩ := convert_inPlace "Dims.java" hconsistent (by decide)
  obtain ⟨draft, hbuild, -⟩ := bind_eq_ok_iff.mp htree
  obtain ⟨-, hkept⟩ := convert_keeps_leaves (.ofText "Dims.java" annotatedText)
    annotatedDimensions hfilled (by decide)
  exact ⟨hfilled, by decide +kernel, draft, hbuild, hkept draft hbuild⟩

end Concrete

end TokenSpacing.Java
