import Mathlib.Data.List.Basic
import TokenSpacing.Proofs.Findings

/-!
# The rule for white space before a token

The rule looks at tokens that spell a literal construct and at tagged nodes, in one
walk.  A token is reported at the node that it hangs below, unless members are listed
there; a node is reported at its token under test.  A scan that succeeds reports
exactly what offends, in document order and at most once for each item.
-/

namespace TokenSpacing

variable {Mark : Type}

/-! ## What has to be reported -/

inductive LiteralAt (parent : Option (Node Mark)) : String → Construct → Prop
  | comma : LiteralAt parent "," .comma
  | semicolon (hheader : inEmptyForHeader parent = false) : LiteralAt parent ";" .semicolon
  | dot : LiteralAt parent "." .dot
  | ellipsis : LiteralAt parent "..." .ellipsis
  | genericStart {node} (hparent : parent = some node)
      (htype : node.head.type = "type_arguments" ∨ node.head.type = "type_parameters") :
      LiteralAt parent "<" .genericStart
  | genericEnd {node} (hparent : parent = some node)
      (htype : node.head.type = "type_arguments" ∨ node.head.type = "type_parameters") :
      LiteralAt parent ">" .genericEnd

def memberLists : List String :=
  ["program", "class_body", "interface_body", "enum_body", "enum_body_declarations",
   "annotation_type_body"]

inductive ReportedAt : Option (Node Mark) → Leaf Mark → Anchor Mark → Prop
  | root (leaf) : ReportedAt none leaf leaf.anchor
  | member {node} (leaf) (hlists : node.head.type ∈ memberLists) :
      ReportedAt (some node) leaf leaf.anchor
  | part {node} (leaf) (hlists : node.head.type ∉ memberLists) :
      ReportedAt (some node) leaf node.anchor

inductive GovernedBefore : Construct → String → Prop
  | labeledStatement : GovernedBefore .labeledStatement ":"
  | methodReference : GovernedBefore .methodReference "::"
  | postfixDecrement : GovernedBefore .postfixDecrement "--"
  | postfixIncrement : GovernedBefore .postfixIncrement "++"

structure SpacedBefore (unit : SourceUnit Mark) (settings : Settings)
    (construct : Construct) (tested : Token) : Prop where
  enabled : settings.value (.construct construct) = true
  spaced : SpacedAtEnd (tested.span.start.textBefore unit.lines unit.separator)
    (settings.value .allowLineBreaks)

/-- A site that the rule for white space before a token has to report, and the finding. -/
inductive OffendsBefore (unit : SourceUnit Mark) (settings : Settings) :
    Site Mark → Finding Mark → Prop
  | literal {parent mark token construct anchor}
      (spelled : LiteralAt parent token.text construct)
      (spaced : SpacedBefore unit settings construct token)
      (reported : ReportedAt parent ⟨mark, token⟩ anchor) :
      OffendsBefore unit settings ⟨parent, .leaf mark token⟩
        ⟨anchor, "'" ++ token.text ++ "' is preceded by whitespace."⟩
  | tagged {parent construct label} {node : Node Mark} {tested : Leaf Mark}
      (tagged : node.head.construct = some construct)
      (governed : GovernedBefore construct label)
      (chosen : node.Tests construct tested)
      (spaced : SpacedBefore unit settings construct tested.token) :
      OffendsBefore unit settings ⟨parent, node.toTree⟩
        ⟨tested.anchor, "'" ++ label ++ "' is preceded by whitespace."⟩

/-! ## Spellings, labels and anchors -/

theorem Construct.ofLiteral?_eq_some_iff {text : String} {construct : Construct} :
    Construct.ofLiteral? text = some construct ↔ construct.literal? = some text := by
  constructor
  · intro hfound
    unfold Construct.ofLiteral? at hfound
    simpa using List.find?_some hfound
  · intro hspelled
    cases construct <;> cases hspelled <;> decide

theorem any_isGeneric_iff {parent : Option (Node Mark)} :
    parent.any Node.isGeneric = true ↔
      ∃ node, parent = some node ∧
        (node.head.type = "type_arguments" ∨ node.head.type = "type_parameters") := by
  cases parent with
  | none => simp
  | some node => simp [Node.isGeneric]

theorem LiteralAt.literal?_eq {parent : Option (Node Mark)} {text : String}
    {construct : Construct} (hspelled : LiteralAt parent text construct) :
    construct.literal? = some text := by
  cases hspelled <;> rfl

theorem literalConstruct?_eq_some_iff {parent : Option (Node Mark)} {token : Token}
    {construct : Construct} :
    literalConstruct? parent token = some construct ↔
      LiteralAt parent token.text construct := by
  unfold literalConstruct?
  constructor
  · intro hfound
    cases hliteral : Construct.ofLiteral? token.text with
    | none =>
        rw [hliteral] at hfound
        cases hfound
    | some spelled =>
        rw [hliteral] at hfound
        have htext := Construct.ofLiteral?_eq_some_iff.mp hliteral
        generalize token.text = text at htext
        cases spelled with
        | comma | dot | ellipsis =>
            cases htext
            cases hfound
            constructor
        | semicolon =>
            cases htext
            obtain ⟨hheader, hsame⟩ := Option.ite_none_left_eq_some.mp hfound
            cases hsame
            exact .semicolon (eq_false_of_ne_true hheader)
        | genericStart =>
            cases htext
            obtain ⟨hgeneric, hsame⟩ := Option.ite_none_right_eq_some.mp hfound
            cases hsame
            obtain ⟨node, hparent, htype⟩ := any_isGeneric_iff.mp hgeneric
            exact .genericStart hparent htype
        | genericEnd =>
            cases htext
            obtain ⟨hgeneric, hsame⟩ := Option.ite_none_right_eq_some.mp hfound
            cases hsame
            obtain ⟨node, hparent, htype⟩ := any_isGeneric_iff.mp hgeneric
            exact .genericEnd hparent htype
        | _ => cases htext
  · intro hspelled
    rw [Construct.ofLiteral?_eq_some_iff.mpr hspelled.literal?_eq]
    generalize token.text = text at hspelled
    cases hspelled with
    | comma | dot | ellipsis => rfl
    | semicolon hheader => exact if_neg (by simp [hheader])
    | genericStart hparent htype => exact if_pos (any_isGeneric_iff.mpr ⟨_, hparent, htype⟩)
    | genericEnd hparent htype => exact if_pos (any_isGeneric_iff.mpr ⟨_, hparent, htype⟩)

theorem Node.listsMembers_iff (node : Node Mark) :
    node.listsMembers = true ↔ node.head.type ∈ memberLists :=
  List.contains_iff_mem

theorem reportedAt_iff {parent : Option (Node Mark)} {leaf : Leaf Mark} {anchor : Anchor Mark} :
    ReportedAt parent leaf anchor ↔ anchor = Check.literalAnchor parent leaf := by
  constructor
  · rintro (_ | ⟨_, hlists⟩ | ⟨_, hlists⟩)
    · rfl
    · exact (if_pos ((Node.listsMembers_iff _).mpr hlists)).symm
    · exact (if_neg (mt (Node.listsMembers_iff _).mp hlists)).symm
  · rintro rfl
    cases parent with
    | none => exact .root leaf
    | some node =>
        rw [Check.literalAnchor]
        split
        next hlists => exact .member leaf ((Node.listsMembers_iff node).mp hlists)
        next hlists => exact .part leaf (mt (Node.listsMembers_iff node).mpr hlists)

theorem Rule.label?_before_of_literal {construct : Construct} {text : String}
    (hspelled : construct.literal? = some text) : Rule.before.label? construct = some text := by
  cases construct <;> cases hspelled <;> rfl

theorem Rule.label?_before_eq_some_iff {construct : Construct} {label : String}
    (hstructured : construct.isLiteral = false) :
    Rule.before.label? construct = some label ↔ GovernedBefore construct label := by
  constructor
  · intro hlabel
    cases construct with
    | comma | semicolon | dot | ellipsis | genericStart | genericEnd => cases hstructured
    | _ => cases hlabel <;> constructor
  · rintro ⟨⟩ <;> rfl

theorem offendsBefore_node_iff {unit : SourceUnit Mark} {settings : Settings}
    {parent : Option (Node Mark)} {node : Node Mark} {finding : Finding Mark} :
    OffendsBefore unit settings ⟨parent, node.toTree⟩ finding ↔
      ∃ construct label tested, node.head.construct = some construct ∧
        GovernedBefore construct label ∧ node.Tests construct tested ∧
        SpacedBefore unit settings construct tested.token ∧
        finding = ⟨tested.anchor, "'" ++ label ++ "' is preceded by whitespace."⟩ := by
  constructor
  · intro hoffends
    obtain ⟨mark, head, children⟩ := node
    cases hoffends with
    | tagged htagged hgoverned hchosen hspaced =>
        exact ⟨_, _, _, htagged, hgoverned, hchosen, hspaced, rfl⟩
  · rintro ⟨construct, label, tested, htagged, hgoverned, hchosen, hspaced, rfl⟩
    exact .tagged htagged hgoverned hchosen hspaced

/-! ## What one visit returns -/

namespace Check

variable {unit : SourceUnit Mark} {settings : Settings}

theorem beforeFinding?_eq_some_iff {construct : Construct} {tested : Token}
    {anchor : Anchor Mark} {label : String} {found : Option (Finding Mark)}
    (hlabel : Rule.before.label? construct = some label)
    (hvisit : (⟨.before, settings⟩ : Check).beforeFinding? unit.source construct tested anchor =
      .ok found) (finding : Finding Mark) :
    found = some finding ↔
      SpacedBefore unit settings construct tested ∧
        finding = ⟨anchor, "'" ++ label ++ "' is preceded by whitespace."⟩ := by
  obtain ⟨other, hother, hfound⟩ := beforeFinding?_eq_ok_iff.mp hvisit
  obtain rfl := Option.some.inj (hlabel.symm.trans hother)
  split at hfound
  next hon =>
    obtain ⟨spaced, hspaced, rfl⟩ := hfound
    have hcounts := (SourceText.spacedBefore_eq_ok_iff.mp hspaced).2
    rw [Option.ite_none_right_eq_some, hcounts]
    constructor
    · rintro ⟨hends, hsame⟩
      exact ⟨⟨hon, hends⟩, (Option.some.inj hsame).symm⟩
    · rintro ⟨hbefore, rfl⟩
      exact ⟨hbefore.spaced, rfl⟩
  next hoff =>
    subst hfound
    constructor
    · intro hnone
      cases hnone
    · rintro ⟨hbefore, -⟩
      exact absurd hbefore.enabled hoff

theorem visitLeaf_before_eq_some_iff {parent : Option (Node Mark)} {mark : Mark}
    {token : Token} {found : Option (Finding Mark)}
    (hvisit : (⟨.before, settings⟩ : Check).visitLeaf unit.source parent ⟨mark, token⟩ =
      .ok found) (finding : Finding Mark) :
    found = some finding ↔
      OffendsBefore unit settings ⟨parent, .leaf mark token⟩ finding := by
  simp only [visitLeaf] at hvisit
  cases hliteral : literalConstruct? parent token with
  | none =>
      rw [hliteral] at hvisit
      cases hvisit
      constructor
      · intro hnone
        cases hnone
      · rintro (⟨hspelled, -, -⟩ | -)
        rw [literalConstruct?_eq_some_iff.mpr hspelled] at hliteral
        cases hliteral
  | some construct =>
      rw [hliteral] at hvisit
      have hspelled := literalConstruct?_eq_some_iff.mp hliteral
      have hlabel := Rule.label?_before_of_literal hspelled.literal?_eq
      rw [beforeFinding?_eq_some_iff hlabel hvisit]
      constructor
      · rintro ⟨hspaced, rfl⟩
        exact .literal hspelled hspaced (reportedAt_iff.mpr rfl)
      · rintro (⟨hother, hspaced, hreported⟩ | -)
        have hsame := literalConstruct?_eq_some_iff.mpr hother
        obtain rfl := Option.some.inj (hliteral.symm.trans hsame)
        rw [reportedAt_iff.mp hreported]
        exact ⟨hspaced, rfl⟩

theorem visitNode_before_eq_some_iff {parent : Option (Node Mark)} {node : Node Mark}
    {construct : Construct} {found : Option (Finding Mark)}
    (hconstruct : node.head.construct = some construct)
    (hvisit : (⟨.before, settings⟩ : Check).visitNode unit.source node = .ok found)
    (finding : Finding Mark) :
    found = some finding ↔
      OffendsBefore unit settings ⟨parent, node.toTree⟩ finding := by
  rw [offendsBefore_node_iff]
  obtain ⟨chosen, hchosen, hfound⟩ := (visitNode_eq_ok_iff hconstruct).mp hvisit
  have htested := Node.tokenUnderTest?_eq_some_iff hconstruct hchosen
  have hchosen_of : ∀ {label tested}, GovernedBefore construct label →
      node.Tests construct tested → chosen = some tested := by
    intro label tested hgoverned htests
    refine (htested tested).mpr ⟨htests, ?_⟩
    rintro rfl
    cases hgoverned
  cases chosen with
  | none =>
      subst hfound
      constructor
      · intro hnone
        cases hnone
      · rintro ⟨other, label, tested, htagged, hgoverned, htests, -⟩
        obtain rfl := Option.some.inj (hconstruct.symm.trans htagged)
        cases hchosen_of hgoverned htests
  | some tested =>
      obtain ⟨htests, -⟩ := (htested tested).mp rfl
      have hstructured := Node.isLiteral_of_tests htests
      obtain ⟨label, hlabel, -⟩ := beforeFinding?_eq_ok_iff.mp hfound
      rw [beforeFinding?_eq_some_iff hlabel hfound]
      constructor
      · rintro ⟨hspaced, rfl⟩
        exact ⟨construct, label, tested, hconstruct,
          (Rule.label?_before_eq_some_iff hstructured).mp hlabel, htests, hspaced, rfl⟩
      · rintro ⟨other, otherLabel, otherTested, htagged, hgoverned, hothers, hspaced, rfl⟩
        obtain rfl := Option.some.inj (hconstruct.symm.trans htagged)
        obtain rfl := Option.some.inj (hchosen_of hgoverned hothers)
        have hquoted := (Rule.label?_before_eq_some_iff hstructured).mpr hgoverned
        obtain rfl := Option.some.inj (hlabel.symm.trans hquoted)
        exact ⟨hspaced, rfl⟩

theorem found?_before_iff {site : Site Mark}
    (hclear : (⟨.before, settings⟩ : Check).Clear unit.source site)
    (finding : Finding Mark) :
    (⟨.before, settings⟩ : Check).found? unit.source site = some finding ↔
      OffendsBefore unit settings site finding := by
  rw [found?_eq_some_iff]
  obtain ⟨parent, item⟩ := site
  cases item with
  | leaf mark token =>
      obtain ⟨found, hvisit⟩ := visit_of_clear rfl hclear
      rw [← visitLeaf_before_eq_some_iff hvisit, hvisit, Except.ok.injEq]
      exact and_iff_right rfl
  | node mark head children =>
      let node : Node Mark := ⟨mark, head, children⟩
      constructor
      · rintro ⟨hasks, hvisit⟩
        obtain ⟨construct, label, hconstruct, -, -⟩ := (asksFor_node_iff _ node).mp hasks
        exact (visitNode_before_eq_some_iff hconstruct hvisit finding).mp rfl
      · intro hoffends
        obtain ⟨construct, label, tested, htagged, hgoverned, htests, -⟩ :=
          offendsBefore_node_iff.mp
            (show OffendsBefore unit settings ⟨parent, node.toTree⟩ finding from hoffends)
        have hstructured := Node.isLiteral_of_tests htests
        have hasks := (asksFor_node_iff ⟨.before, settings⟩ node).mpr ⟨construct, label, htagged,
          (Rule.label?_before_eq_some_iff hstructured).mpr hgoverned, hstructured⟩
        obtain ⟨found, hvisit⟩ := visit_of_clear hasks hclear
        have hsome := (visitNode_before_eq_some_iff htagged hvisit finding).mpr hoffends
        exact ⟨hasks, hsome ▸ hvisit⟩

end Check

/-! ## What a scan reports -/

/--
The findings are those of the sites that offend, in the recursive pre-order of the
tree and one for each of them.
-/
theorem before_scan_exact (unit : SourceUnit Mark) (settings : Settings)
    (passes : List (Pass Mark)) (hscan : unit.scan [⟨.before, settings⟩] = .ok passes) :
    ∃ report : Site Mark → Option (Finding Mark),
      passes = [⟨⟨.before, settings⟩, (unit.root.sites none).filterMap report⟩] ∧
      ∀ site ∈ unit.root.sites none, ∀ finding,
        report site = some finding ↔ OffendsBefore unit settings site finding := by
  obtain ⟨hclear, rfl⟩ := SourceUnit.scan_eq_ok_iff.mp hscan
  refine ⟨(⟨.before, settings⟩ : Check).found? unit.source, rfl, ?_⟩
  intro site hsite finding
  exact Check.found?_before_iff (hclear _ List.mem_cons_self site hsite) finding

/-- A loop whose header is empty, with a blank in front of each semicolon but one and in
front of an increment. -/
def endlessLoop : SourceUnit Nat :=
  let span (start stop : Int) : Span := ⟨"Loop.java", ⟨1, start⟩, ⟨1, stop⟩⟩
  let token (mark : Nat) (text : String) (start stop : Int) : Tree Nat :=
    .leaf mark ⟨text, span start stop⟩
  ⟨"Loop.java", ["for ( ;;) x ++ ;".toList], ['\n'],
    .node 0 ⟨"for_statement", none, span 1 17⟩
      [token 1 "for" 1 4, token 2 "(" 5 6, token 3 ";" 7 8, token 4 ";" 8 9, token 5 ")" 9 10,
       .node 6 ⟨"expression_statement", none, span 11 17⟩
         [.node 7 ⟨"update_expression", some .postfixIncrement, span 11 15⟩
            [token 8 "x" 11 12, token 9 "++" 13 15],
          token 10 ";" 16 17]]⟩

def endlessLoopFindings : List (Finding Nat) :=
  [⟨⟨9, "Loop.java", ⟨1, 13⟩, ⟨1, 15⟩⟩, "'++' is preceded by whitespace."⟩,
   ⟨⟨6, "Loop.java", ⟨1, 11⟩, ⟨1, 17⟩⟩, "';' is preceded by whitespace."⟩]

theorem before_scan_endlessLoop :
    endlessLoop.scan [Check.default .before] =
        .ok [⟨Check.default .before, endlessLoopFindings⟩] ∧
      ∃ report : Site Nat → Option (Finding Nat),
        endlessLoopFindings = (endlessLoop.root.sites none).filterMap report ∧
        ∀ site ∈ endlessLoop.root.sites none, ∀ finding,
          report site = some finding ↔
            OffendsBefore endlessLoop (Settings.default .before) site finding := by
  have hscan : endlessLoop.scan [Check.default .before] =
      .ok [⟨Check.default .before, endlessLoopFindings⟩] := by rfl
  obtain ⟨report, hpasses, hreport⟩ :=
    before_scan_exact endlessLoop (Settings.default .before) _ hscan
  refine ⟨hscan, report, ?_, hreport⟩
  simpa [Check.default] using hpasses

end TokenSpacing
