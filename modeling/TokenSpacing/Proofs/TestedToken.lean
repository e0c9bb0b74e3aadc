import Mathlib.Data.List.Basic
import TokenSpacing.Proofs.Adjacency
import TokenSpacing.Proofs.Walk
import TokenSpacing.TokenUnderTest

/-!
# The token that a construct is tested by

For each construct the token under test is said as a relation between a node and one
of its tokens: the first direct child with a spelling, or the token that first or
last children lead to.  The search for it finds a token exactly where the relation
holds, unless the node is an annotated array type.
-/

namespace TokenSpacing

variable {Mark : Type}

/-! ## Relations -/

inductive Tree.StartsWith : Tree Mark → Leaf Mark → Prop
  | leaf (mark token) : StartsWith (.leaf mark token) ⟨mark, token⟩
  | node (mark head first rest) {found} :
      StartsWith first found → StartsWith (.node mark head (first :: rest)) found

inductive Tree.EndsWith : Tree Mark → Leaf Mark → Prop
  | leaf (mark token) : EndsWith (.leaf mark token) ⟨mark, token⟩
  | node (mark head earlier last) {found} :
      EndsWith last found → EndsWith (.node mark head (earlier ++ [last])) found

namespace Node

def FirstSpelled (node : Node Mark) (text : String) (found : Leaf Mark) : Prop :=
  ∃ earlier later, node.children = earlier ++ .leaf found.mark found.token :: later ∧
    found.token.text = text ∧ ∀ item ∈ earlier, item.isToken text = false

/-- The token under test of a construct; literal constructs are never tagged. -/
def Tests (node : Node Mark) (construct : Construct) (found : Leaf Mark) : Prop :=
  match construct with
  | .annotationMark => node.FirstSpelled "@" found
  | .arrayAccess | .arrayType => node.FirstSpelled "[" found
  | .memberSelect => node.FirstSpelled "." found
  | .methodReference => node.FirstSpelled "::" found
  | .newArray => node.FirstSpelled "\x7b" found
  | .typeCast => node.FirstSpelled ")" found
  | .labeledStatement => node.FirstSpelled ":" found
  | .bitwiseComplement | .logicalComplement | .unaryPlus | .unaryMinus
  | .prefixIncrement | .prefixDecrement | .synchronizedStatement =>
      node.toTree.StartsWith found
  | .postfixIncrement | .postfixDecrement => node.toTree.EndsWith found
  | .comma | .semicolon | .dot | .ellipsis | .genericStart | .genericEnd => False

theorem isLiteral_of_tests {node : Node Mark} {construct : Construct} {found : Leaf Mark}
    (htests : node.Tests construct found) : construct.isLiteral = false := by
  cases construct <;> first | rfl | exact htests.elim

/-- Whether an annotation is among the children, or ends the text before the bracket. -/
def Annotated (node : Node Mark) (before : List Char) : Prop :=
  (∃ child ∈ node.nodes, child.head.construct = some .annotationMark) ∨
    EndsWithAnnotation before

def CastSplit (node : Node Mark) : Prop :=
  ∃ opening closing, node.FirstSpelled "(" opening ∧ node.FirstSpelled ")" closing ∧
    opening.token.span.start.line ≠ closing.token.span.start.line

end Node

/-! ## Searches -/

theorem Tree.firstToken?_eq_some_iff {tree : Tree Mark} {found : Leaf Mark} :
    tree.firstToken? = some found ↔ tree.StartsWith found := by
  induction tree using Tree.induction with
  | leaf mark token =>
      constructor
      · intro hfound
        cases hfound
        exact .leaf mark token
      · rintro ⟨⟩
        rfl
  | node mark head children ih =>
      cases children with
      | nil =>
          constructor
          · intro hfound
            cases hfound
          · intro hstarts
            cases hstarts
      | cons first rest =>
          have hfirst := ih first List.mem_cons_self
          constructor
          · intro hfound
            exact .node mark head first rest (hfirst.mp hfound)
          · intro hstarts
            cases hstarts with
            | node _ _ _ _ hbelow => exact hfirst.mpr hbelow

theorem Tree.lastToken?_eq_some_iff {tree : Tree Mark} {found : Leaf Mark} :
    tree.lastToken? = some found ↔ tree.EndsWith found := by
  induction tree using Tree.induction with
  | leaf mark token =>
      constructor
      · intro hfound
        obtain rfl : (⟨mark, token⟩ : Leaf Mark) = found := by
          simpa [lastToken?] using hfound
        exact .leaf mark token
      · rintro ⟨⟩
        simp [lastToken?]
  | node mark head children ih =>
      rw [lastToken?]
      constructor
      · intro hfound
        rcases List.eq_nil_or_concat children with rfl | ⟨earlier, last, rfl⟩
        · simp [lastTokenAmong?] at hfound
        · rw [List.concat_eq_append] at hfound ih ⊢
          rw [lastTokenAmong?_concat] at hfound
          exact .node mark head earlier last ((ih last (by simp)).mp hfound)
      · intro hends
        cases hends with
        | node _ _ earlier last hbelow =>
            rw [lastTokenAmong?_concat]
            exact (ih last (by simp)).mpr hbelow

namespace Node

theorem token?_eq_find? (node : Node Mark) (text : String) :
    node.token? text = (node.children.find? (·.isToken text)).bind Tree.toLeaf? := by
  have hspelled : ∀ item : Tree Mark,
      item.toLeaf?.any (·.token.text == text) = item.isToken text := by
    intro item
    cases item <;> rfl
  rw [token?, tokens, List.find?_filterMap]
  simp only [hspelled]

theorem token?_eq_some_iff {node : Node Mark} {text : String} {found : Leaf Mark} :
    node.token? text = some found ↔ node.FirstSpelled text found := by
  rw [token?_eq_find?, Option.bind_eq_some_iff]
  constructor
  · rintro ⟨item, hitem, hleaf⟩
    obtain ⟨hspelled, earlier, later, hchildren, hearlier⟩ :=
      List.find?_eq_some_iff_append.mp hitem
    cases item with
    | leaf mark token =>
        cases hleaf
        refine ⟨earlier, later, hchildren, by simpa [Tree.isToken] using hspelled, ?_⟩
        simpa using hearlier
    | node mark head children => cases hleaf
  · rintro ⟨earlier, later, hchildren, hspelled, hearlier⟩
    refine ⟨.leaf found.mark found.token, ?_, rfl⟩
    rw [List.find?_eq_some_iff_append]
    exact ⟨by simp [Tree.isToken, hspelled], earlier, later, hchildren, by simpa using hearlier⟩

theorem castSpansLines_iff (node : Node Mark) :
    node.castSpansLines = true ↔ node.CastSplit := by
  unfold castSpansLines CastSplit
  simp only [← token?_eq_some_iff]
  cases node.token? "(" with
  | none => simp
  | some opening =>
      cases node.token? ")" with
      | none => simp
      | some closing => simp

theorem arrayTypeBracket?_eq_some_iff {node : Node Mark} {lines : List (List Char)}
    {separator : List Char} {found : Option (Leaf Mark)}
    (hfound : node.arrayTypeBracket? (.ofLines lines separator) = .ok found)
    (bracket : Leaf Mark) :
    found = some bracket ↔
      node.FirstSpelled "[" bracket ∧
        ¬node.Annotated (bracket.token.span.start.textBefore lines separator) := by
  have hmarked : node.nodes.any (·.head.construct == some .annotationMark) = true ↔
      ∃ child ∈ node.nodes, child.head.construct = some .annotationMark := by
    simp
  rw [← token?_eq_some_iff]
  unfold arrayTypeBracket? at hfound
  cases htoken : node.token? "[" with
  | none =>
      rw [htoken] at hfound
      cases hfound
      simp
  | some first =>
      simp only [htoken] at hfound
      split at hfound
      next hany =>
        cases hfound
        simp [Annotated, hmarked.mp hany]
      next hany =>
        cases hoffset : (SourceText.ofLines lines separator).offsetOf first.token.span.start with
        | error violation =>
            rw [hoffset] at hfound
            contradiction
        | ok offset =>
            rw [hoffset] at hfound
            have hmark := SourceText.touches_annotationMark_iff hoffset
            rw [← Except.ok.inj hfound]
            split
            next htouches =>
              constructor
              · intro hnone
                cases hnone
              · rintro ⟨hfirst, hnot⟩
                cases hfirst
                exact absurd (.inr (hmark.mp htouches)) hnot
            next htouches =>
              constructor
              · intro hfirst
                cases hfirst
                refine ⟨rfl, ?_⟩
                rintro (hchild | hends)
                · exact hany (hmarked.mpr hchild)
                · exact htouches (hmark.mpr hends)
              · rintro ⟨hfirst, -⟩
                exact hfirst

theorem tokenUnderTest?_eq_some_iff {node : Node Mark} {lines : List (List Char)}
    {separator : List Char} {construct : Construct} {found : Option (Leaf Mark)}
    (hconstruct : node.head.construct = some construct)
    (hfound : node.tokenUnderTest? (.ofLines lines separator) = .ok found)
    (tested : Leaf Mark) :
    found = some tested ↔
      node.Tests construct tested ∧
        (construct = .arrayType →
          ¬node.Annotated (tested.token.span.start.textBefore lines separator)) := by
  unfold tokenUnderTest? at hfound
  rw [hconstruct] at hfound
  cases construct with
  | arrayType => simpa [Tests] using arrayTypeBracket?_eq_some_iff hfound tested
  | annotationMark | arrayAccess | memberSelect | methodReference | newArray | typeCast
  | labeledStatement =>
      cases hfound
      simp [Tests, token?_eq_some_iff]
  | bitwiseComplement | logicalComplement | unaryPlus | unaryMinus | prefixIncrement
  | prefixDecrement | synchronizedStatement =>
      cases hfound
      simp [Tests, Tree.firstToken?_eq_some_iff]
  | postfixIncrement | postfixDecrement =>
      cases hfound
      simp [Tests, Tree.lastToken?_eq_some_iff]
  | comma | semicolon | dot | ellipsis | genericStart | genericEnd => contradiction

end Node

end TokenSpacing
