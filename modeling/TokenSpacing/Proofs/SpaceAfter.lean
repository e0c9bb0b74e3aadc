import Mathlib.Data.List.Basic
import TokenSpacing.Proofs.Findings

/-!
# The rule for white space after a token

What the rule has to report is said about the tree, the settings and the text around
the token under test.  A scan that succeeds reports exactly that, in document order
and at most once for each node.
-/

namespace TokenSpacing

variable {Mark : Type}

/-! ## What has to be reported -/

inductive GovernedAfter : Construct → String → Prop
  | annotationMark : GovernedAfter .annotationMark "@"
  | arrayAccess : GovernedAfter .arrayAccess "ARRAY_ACCESS_EXPRESSION"
  | arrayType : GovernedAfter .arrayType "ARRAY_TYPE"
  | bitwiseComplement : GovernedAfter .bitwiseComplement "~"
  | logicalComplement : GovernedAfter .logicalComplement "!"
  | memberSelect : GovernedAfter .memberSelect "."
  | methodReference : GovernedAfter .methodReference "::"
  | newArray : GovernedAfter .newArray "\x7b"
  | prefixDecrement : GovernedAfter .prefixDecrement "--"
  | prefixIncrement : GovernedAfter .prefixIncrement "++"
  | synchronizedStatement : GovernedAfter .synchronizedStatement "synchronized"
  | typeCast : GovernedAfter .typeCast ")"
  | unaryMinus : GovernedAfter .unaryMinus "-"
  | unaryPlus : GovernedAfter .unaryPlus "+"

/-- White space that counts against the token under test: in front of the bracket of an
array, behind every other token. -/
def Node.SpacedAfter (node : Node Mark) (unit : SourceUnit Mark) (allowLineBreaks : Bool)
    (construct : Construct) (tested : Token) : Prop :=
  if construct = .arrayAccess ∨ construct = .arrayType then
    SpacedAtEnd (tested.span.start.textBefore unit.lines unit.separator) allowLineBreaks
  else
    SpacedAtStart (tested.span.stop.textAfter unit.lines unit.separator) allowLineBreaks
      (construct = .typeCast ∧ node.CastSplit)

/-- A node that the rule for white space after a token has to report. -/
structure OffendsAfter (unit : SourceUnit Mark) (settings : Settings) (node : Node Mark)
    (construct : Construct) (label : String) (tested : Leaf Mark) : Prop where
  tagged : node.head.construct = some construct
  governed : GovernedAfter construct label
  enabled : settings.value (.construct construct) = true
  chosen : node.Tests construct tested
  notAnnotated : construct = .arrayType →
    ¬node.Annotated (tested.token.span.start.textBefore unit.lines unit.separator)
  spaced : node.SpacedAfter unit (settings.value .allowLineBreaks) construct tested.token

/-! ## What one visit returns -/

theorem Rule.label?_after_eq_some_iff {construct : Construct} {label : String} :
    Rule.after.label? construct = some label ↔ GovernedAfter construct label := by
  constructor
  · intro hlabel
    cases construct <;> cases hlabel <;> constructor
  · rintro ⟨⟩ <;> rfl

namespace Check

variable {unit : SourceUnit Mark} {settings : Settings} {node : Node Mark}

theorem spacedAfterToken_iff {check : Check} {construct : Construct} {tested : Token}
    {spaced : Bool} (hspaced : check.spacedAfterToken unit.source node construct tested = .ok spaced) :
    spaced = true ↔ node.SpacedAfter unit check.allowLineBreaks construct tested := by
  unfold spacedAfterToken at hspaced
  unfold Node.SpacedAfter
  split at hspaced
  next hleading =>
    rw [if_pos ((Rule.isLeading_iff construct).mp hleading)]
    exact (SourceText.spacedBefore_eq_ok_iff.mp hspaced).2
  next hleading =>
    have hbroken : (construct == .typeCast && node.castSpansLines) = true ↔
        construct = .typeCast ∧ node.CastSplit := by
      rw [Bool.and_eq_true, beq_iff_eq, Node.castSpansLines_iff]
    rw [if_neg (mt (Rule.isLeading_iff construct).mpr hleading), ← hbroken]
    exact (SourceText.spacedAfter_eq_ok_iff.mp hspaced).2

theorem visitNode_after_eq_some_iff {construct : Construct} {found : Option (Finding Mark)}
    (hconstruct : node.head.construct = some construct)
    (hvisit : (⟨.after, settings⟩ : Check).visitNode unit.source node = .ok found)
    (finding : Finding Mark) :
    found = some finding ↔
      ∃ construct label tested, OffendsAfter unit settings node construct label tested ∧
        finding = ⟨node.anchor, "'" ++ label ++ "' is followed by whitespace."⟩ := by
  obtain ⟨chosen, hchosen, hfound⟩ := (visitNode_eq_ok_iff hconstruct).mp hvisit
  have htested := Node.tokenUnderTest?_eq_some_iff hconstruct hchosen
  cases chosen with
  | none =>
      subst hfound
      constructor
      · intro hnone
        cases hnone
      · rintro ⟨other, label, tested, hoffends, -⟩
        obtain rfl := Option.some.inj (hconstruct.symm.trans hoffends.tagged)
        cases (htested tested).mpr ⟨hoffends.chosen, hoffends.notAnnotated⟩
  | some tested =>
      obtain ⟨label, spaced, hlabel, hspaced, rfl⟩ := afterFinding?_eq_ok_iff.mp hfound
      have hcounts := spacedAfterToken_iff hspaced
      obtain ⟨hchoice, hexempt⟩ := (htested tested).mp rfl
      constructor
      · intro hsome
        split at hsome
        next hboth =>
          obtain ⟨his, hon⟩ := Bool.and_eq_true_iff.mp hboth
          cases hsome
          exact ⟨construct, label, tested,
            ⟨hconstruct, Rule.label?_after_eq_some_iff.mp hlabel, hon, hchoice, hexempt,
              hcounts.mp his⟩, rfl⟩
        next => cases hsome
      · rintro ⟨other, otherLabel, otherTested, hoffends, rfl⟩
        obtain rfl := Option.some.inj (hconstruct.symm.trans hoffends.tagged)
        have hgoverned := Rule.label?_after_eq_some_iff.mpr hoffends.governed
        obtain rfl := Option.some.inj (hlabel.symm.trans hgoverned)
        have hsame := (htested otherTested).mpr ⟨hoffends.chosen, hoffends.notAnnotated⟩
        obtain rfl := Option.some.inj hsame
        have hboth : (spaced && settings.value (.construct construct)) = true :=
          Bool.and_eq_true_iff.mpr ⟨hcounts.mpr hoffends.spaced, hoffends.enabled⟩
        exact if_pos hboth

theorem found?_after_node_iff {parent : Option (Node Mark)}
    (hclear : (⟨.after, settings⟩ : Check).Clear unit.source ⟨parent, node.toTree⟩)
    (finding : Finding Mark) :
    (⟨.after, settings⟩ : Check).found? unit.source ⟨parent, node.toTree⟩ = some finding ↔
      ∃ construct label tested, OffendsAfter unit settings node construct label tested ∧
        finding = ⟨node.anchor, "'" ++ label ++ "' is followed by whitespace."⟩ := by
  rw [found?_eq_some_iff]
  constructor
  · rintro ⟨hasks, hvisit⟩
    obtain ⟨construct, label, hconstruct, -, -⟩ := (asksFor_node_iff _ node).mp hasks
    exact (visitNode_after_eq_some_iff hconstruct hvisit finding).mp rfl
  · rintro ⟨construct, label, tested, hoffends, hfinding⟩
    have hasks := (asksFor_node_iff ⟨.after, settings⟩ node).mpr
      ⟨construct, label, hoffends.tagged, Rule.label?_after_eq_some_iff.mpr hoffends.governed,
        Node.isLiteral_of_tests hoffends.chosen⟩
    obtain ⟨found, hvisit⟩ := visit_of_clear hasks hclear
    have hsome := (visitNode_after_eq_some_iff hoffends.tagged hvisit finding).mpr
      ⟨construct, label, tested, hoffends, hfinding⟩
    exact ⟨hasks, hsome ▸ hvisit⟩

end Check

/-! ## What a scan reports -/

/--
The findings are those of the nodes that offend, in the recursive pre-order of the
tree and one for each of them.
-/
theorem after_scan_exact (unit : SourceUnit Mark) (settings : Settings)
    (passes : List (Pass Mark)) (hscan : unit.scan [⟨.after, settings⟩] = .ok passes) :
    ∃ report : Node Mark → Option (Finding Mark),
      passes = [⟨⟨.after, settings⟩,
        (unit.root.walk.filterMap Tree.toNode?).filterMap report⟩] ∧
      ∀ node ∈ unit.root.walk.filterMap Tree.toNode?, ∀ finding,
        report node = some finding ↔
          ∃ construct label tested, OffendsAfter unit settings node construct label tested ∧
            finding = ⟨node.anchor, "'" ++ label ++ "' is followed by whitespace."⟩ := by
  obtain ⟨hclear, rfl⟩ := SourceUnit.scan_eq_ok_iff.mp hscan
  refine ⟨fun node => (⟨.after, settings⟩ : Check).found? unit.source ⟨none, node.toTree⟩,
    ?_, ?_⟩
  · have hsite : ∀ site : Site Mark,
        (⟨.after, settings⟩ : Check).found? unit.source site =
          site.item.toNode?.bind fun node =>
            (⟨.after, settings⟩ : Check).found? unit.source ⟨none, node.toTree⟩ := by
      rintro ⟨parent, item⟩
      cases item <;> rfl
    rw [Tree.walk, List.filterMap_map, List.filterMap_filterMap]
    simp only [List.map_cons, List.map_nil]
    congr 2
    exact List.filterMap_congr fun site _ => hsite site
  · intro node hnode finding
    obtain ⟨item, hitem, hitemNode⟩ := List.mem_filterMap.mp hnode
    obtain ⟨⟨parent, item⟩, hsite, rfl⟩ := List.mem_map.mp hitem
    cases item with
    | leaf mark token => cases hitemNode
    | node mark head children =>
        cases hitemNode
        have hnodeClear := hclear _ List.mem_cons_self _ hsite
        exact Check.found?_after_node_iff hnodeClear finding

def splitCast : SourceUnit Nat :=
  let token (mark : Nat) (text : String) (line column stop : Int) : Tree Nat :=
    .leaf mark ⟨text, "Cast.java", ⟨line, column⟩, ⟨line, stop⟩⟩
  let head (construct : Construct) (start stop : Position) : Head :=
    ⟨"expression", some construct, "Cast.java", start, stop⟩
  ⟨"Cast.java", ["(int".toList, ") a [0]".toList], ['\n'],
    .node 0 (head .typeCast ⟨1, 1⟩ ⟨2, 8⟩)
      [token 1 "(" 1 1 2, token 2 "int" 1 2 5, token 3 ")" 2 1 2,
       .node 4 (head .arrayAccess ⟨2, 3⟩ ⟨2, 8⟩)
         [token 5 "a" 2 3 4, token 6 "[" 2 5 6, token 7 "0" 2 6 7, token 8 "]" 2 7 8]]⟩

def strictCasts : Settings :=
  ((Settings.default .after).set (.construct .typeCast) true).set .allowLineBreaks false

def splitCastFindings : List (Finding Nat) :=
  [⟨⟨0, "Cast.java", ⟨1, 1⟩, ⟨2, 8⟩⟩, "')' is followed by whitespace."⟩,
   ⟨⟨4, "Cast.java", ⟨2, 3⟩, ⟨2, 8⟩⟩, "'ARRAY_ACCESS_EXPRESSION' is followed by whitespace."⟩]

theorem after_scan_splitCast :
    splitCast.scan [⟨.after, strictCasts⟩] =
        .ok [⟨⟨.after, strictCasts⟩, splitCastFindings⟩] ∧
      ∃ report : Node Nat → Option (Finding Nat),
        splitCastFindings =
          (splitCast.root.walk.filterMap Tree.toNode?).filterMap report ∧
        ∀ node ∈ splitCast.root.walk.filterMap Tree.toNode?, ∀ finding,
          report node = some finding ↔
            ∃ construct label tested,
              OffendsAfter splitCast strictCasts node construct label tested ∧
                finding = ⟨node.anchor, "'" ++ label ++ "' is followed by whitespace."⟩ := by
  have hscan : splitCast.scan [⟨.after, strictCasts⟩] =
      .ok [⟨⟨.after, strictCasts⟩, splitCastFindings⟩] := by rfl
  obtain ⟨report, hpasses, hreport⟩ := after_scan_exact splitCast strictCasts _ hscan
  refine ⟨hscan, report, ?_, hreport⟩
  simpa using hpasses

end TokenSpacing
