import Mathlib.Data.List.Basic
import TokenSpacing.Proofs.SpaceBefore

/-!
# Probes and verdicts

A visit has two halves.  Rule, tree and text choose a probe: one boundary of one token,
the construct it is tested for and the item it is reported at.  The settings then give
a verdict on the probe.  Both rules and both kinds of items have this form, so that two
runs can be compared probe by probe.
-/

namespace TokenSpacing

variable {Mark : Type}

/-- A boundary that a rule tests.  It is `broken` where a line break is taken for granted. -/
structure Probe (Mark : Type) where
  rule : Rule
  construct : Construct
  label : String
  position : Position
  side : Side
  broken : Bool
  anchor : Anchor Mark

/-! ## Choosing a probe -/

namespace Rule

def visited? (rule : Rule) (head : Head) : Option (Construct × String) :=
  head.construct.bind fun construct =>
    if construct.isLiteral then none
    else (rule.label? construct).map fun label => (construct, label)

def nodeProbe (rule : Rule) (node : Node Mark) (construct : Construct) (label : String)
    (tested : Leaf Mark) : Probe Mark :=
  match rule with
  | .after =>
      if isLeading construct then
        ⟨.after, construct, label, tested.token.span.start, .left, false, node.anchor⟩
      else
        ⟨.after, construct, label, tested.token.span.stop, .right,
          construct == .typeCast && node.castSpansLines, node.anchor⟩
  | .before => ⟨.before, construct, label, tested.token.span.start, .left, false, tested.anchor⟩

def leafProbe? (rule : Rule) (parent : Option (Node Mark)) (leaf : Leaf Mark) :
    Option (Probe Mark) :=
  match rule with
  | .after => none
  | .before =>
      (literalConstruct? parent leaf.token).map fun construct =>
        ⟨.before, construct, leaf.token.text, leaf.token.span.start, .left, false,
          Check.literalAnchor parent leaf⟩

def probe? (rule : Rule) (source : SourceText) (site : Site Mark) :
    Except Violation (Option (Probe Mark)) :=
  match site.item with
  | .leaf mark token => .ok (rule.leafProbe? site.parent ⟨mark, token⟩)
  | .node mark head children =>
      match rule.visited? head with
      | none => .ok none
      | some (construct, label) => do
          let tested ← (⟨mark, head, children⟩ : Node Mark).tokenUnderTest? source
          return tested.map (rule.nodeProbe ⟨mark, head, children⟩ construct label)

theorem visited?_eq_some_iff {rule : Rule} {head : Head} {construct : Construct}
    {label : String} :
    rule.visited? head = some (construct, label) ↔
      head.construct = some construct ∧ rule.label? construct = some label ∧
        construct.isLiteral = false := by
  rw [visited?, Option.bind_eq_some_iff]
  constructor
  · rintro ⟨tagged, htagged, hfound⟩
    obtain ⟨hliteral, hlabel⟩ := Option.ite_none_left_eq_some.mp hfound
    obtain ⟨other, hother, hsame⟩ := Option.map_eq_some_iff.mp hlabel
    cases hsame
    exact ⟨htagged, hother, eq_false_of_ne_true hliteral⟩
  · rintro ⟨htagged, hlabel, hliteral⟩
    exact ⟨construct, htagged, by simp [hliteral, hlabel]⟩

theorem nodeProbe_fields (rule : Rule) (node : Node Mark) (construct : Construct)
    (label : String) (tested : Leaf Mark) :
    (rule.nodeProbe node construct label tested).rule = rule ∧
      (rule.nodeProbe node construct label tested).construct = construct ∧
      (rule.nodeProbe node construct label tested).label = label := by
  cases rule with
  | after =>
      unfold nodeProbe
      cases isLeading construct <;> exact ⟨rfl, rfl, rfl⟩
  | before => exact ⟨rfl, rfl, rfl⟩

theorem probe?_cases {rule : Rule} {source : SourceText} {site : Site Mark}
    {probe : Probe Mark} (hprobe : rule.probe? source site = .ok (some probe)) :
    (∃ (leaf : Leaf Mark) (construct : Construct),
      site.item = .leaf leaf.mark leaf.token ∧ rule = .before ∧
        literalConstruct? site.parent leaf.token = some construct ∧
        probe = ⟨.before, construct, leaf.token.text, leaf.token.span.start, .left, false,
          Check.literalAnchor site.parent leaf⟩) ∨
    ∃ (node : Node Mark) (construct : Construct) (label : String) (tested : Leaf Mark),
      site.item = node.toTree ∧ rule.label? construct = some label ∧
        node.tokenUnderTest? source = .ok (some tested) ∧
        probe = rule.nodeProbe node construct label tested := by
  obtain ⟨parent, item⟩ := site
  cases item with
  | leaf mark token =>
      left
      have hleaf : rule.leafProbe? parent ⟨mark, token⟩ = some probe := Except.ok.inj hprobe
      cases rule with
      | after => cases hleaf
      | before =>
          obtain ⟨construct, hliteral, rfl⟩ := Option.map_eq_some_iff.mp hleaf
          exact ⟨⟨mark, token⟩, construct, rfl, rfl, hliteral, rfl⟩
  | node mark head children =>
      right
      simp only [probe?] at hprobe
      split at hprobe
      · cases hprobe
      next construct label hvisited =>
        obtain ⟨chosen, htested, hchosen⟩ := bind_eq_ok_iff.mp hprobe
        obtain ⟨tested, rfl, rfl⟩ := Option.map_eq_some_iff.mp (pure_eq_ok_iff.mp hchosen)
        exact ⟨⟨mark, head, children⟩, construct, label, tested, rfl,
          (visited?_eq_some_iff.mp hvisited).2.1, htested, rfl⟩

theorem label?_of_probe? {rule : Rule} {source : SourceText} {site : Site Mark}
    {probe : Probe Mark} (hprobe : rule.probe? source site = .ok (some probe)) :
    probe.rule = rule ∧ rule.label? probe.construct = some probe.label := by
  obtain ⟨leaf, construct, -, rfl, hliteral, rfl⟩ | ⟨node, construct, label, tested, -, hlabel,
    -, rfl⟩ := probe?_cases hprobe
  · have hspelled := (literalConstruct?_eq_some_iff.mp hliteral).literal?_eq
    exact ⟨rfl, label?_before_of_literal hspelled⟩
  · obtain ⟨hrule, hconstruct, hsame⟩ := rule.nodeProbe_fields node construct label tested
    rw [hconstruct, hsame]
    exact ⟨hrule, hlabel⟩

end Rule

/-! ## The verdict on a probe -/

namespace Probe

def finding (probe : Probe Mark) : Finding Mark :=
  ⟨probe.anchor, probe.rule.message probe.label⟩

def spaced (probe : Probe Mark) (source : SourceText) (allowLineBreaks : Bool) :
    Except Violation Bool := do
  let offset ← source.offsetOf probe.position
  return if probe.broken || source.touches offset probe.side .lineBreak then !allowLineBreaks
    else source.touches offset probe.side .whitespace

end Probe

namespace Check

def switchedOn (check : Check) (probe : Probe Mark) : Bool :=
  check.settings.value (.construct probe.construct)

/-- One rule tests all boundaries, the other only those of constructs that are on. -/
def tests (check : Check) (probe : Probe Mark) : Bool :=
  check.rule == .after || check.switchedOn probe

def judge (check : Check) (source : SourceText) (probe : Probe Mark) :
    Except Violation (Option (Finding Mark)) :=
  if check.tests probe then do
    let spaced ← probe.spaced source check.allowLineBreaks
    return if spaced && check.switchedOn probe then some probe.finding else none
  else .ok none

def verdict (check : Check) (source : SourceText) :
    Option (Probe Mark) → Except Violation (Option (Finding Mark))
  | none => .ok none
  | some probe => check.judge source probe

/-! ## Every visit is a verdict on a probe -/

theorem afterFinding?_eq_judge {settings : Settings} {source : SourceText} {node : Node Mark}
    {construct : Construct} {label : String} {tested : Leaf Mark}
    (hlabel : Rule.after.label? construct = some label) :
    (⟨.after, settings⟩ : Check).afterFinding? source node construct tested =
      (⟨.after, settings⟩ : Check).judge source
        (Rule.after.nodeProbe node construct label tested) := by
  unfold afterFinding? judge lookup spacedAfterToken Rule.nodeProbe
  rw [hlabel]
  cases Rule.isLeading construct <;> rfl

theorem beforeFinding?_eq_judge {settings : Settings} {source : SourceText}
    {construct : Construct} {label : String} {tested : Token} {anchor : Anchor Mark}
    (hlabel : Rule.before.label? construct = some label) :
    (⟨.before, settings⟩ : Check).beforeFinding? source construct tested anchor =
      (⟨.before, settings⟩ : Check).judge source
        ⟨.before, construct, label, tested.span.start, .left, false, anchor⟩ := by
  unfold beforeFinding? judge lookup tests switchedOn
  rw [hlabel]
  cases settings.value (.construct construct) with
  | false => rfl
  | true =>
      simp only [Bool.or_true, Bool.and_true]
      rfl

theorem visitLeaf_eq_verdict (check : Check) (source : SourceText)
    (parent : Option (Node Mark)) (leaf : Leaf Mark) :
    check.visitLeaf source parent leaf =
      check.verdict source (check.rule.leafProbe? parent leaf) := by
  obtain ⟨rule, settings⟩ := check
  cases rule with
  | after => rfl
  | before =>
      unfold visitLeaf Rule.leafProbe?
      cases hliteral : literalConstruct? parent leaf.token with
      | none => rfl
      | some construct =>
          have hspelled := (literalConstruct?_eq_some_iff.mp hliteral).literal?_eq
          exact beforeFinding?_eq_judge (Rule.label?_before_of_literal hspelled)

theorem visitNode_eq_verdict (check : Check) (source : SourceText) {node : Node Mark}
    {construct : Construct} {label : String}
    (hconstruct : node.head.construct = some construct)
    (hlabel : check.rule.label? construct = some label) :
    check.visitNode source node =
      node.tokenUnderTest? source >>= fun tested =>
        check.verdict source (tested.map (check.rule.nodeProbe node construct label)) := by
  unfold visitNode
  rw [hconstruct]
  refine congrArg _ (funext fun chosen => ?_)
  cases chosen with
  | none => rfl
  | some tested =>
      obtain ⟨rule, settings⟩ := check
      cases rule with
      | after => exact afterFinding?_eq_judge hlabel
      | before => exact beforeFinding?_eq_judge hlabel

theorem respond_eq_verdict (check : Check) (source : SourceText) (site : Site Mark) :
    check.respond source site = check.rule.probe? source site >>= check.verdict source := by
  obtain ⟨parent, item⟩ := site
  cases item with
  | leaf mark token =>
      have hvisit := check.visitLeaf_eq_verdict source parent ⟨mark, token⟩
      obtain ⟨rule, settings⟩ := check
      cases rule with
      | after => rfl
      | before => exact hvisit
  | node mark head children =>
      have hasks := check.asksFor_node_iff ⟨mark, head, children⟩
      cases hvisited : check.rule.visited? head with
      | none =>
          have hnot : check.asksFor (.node mark head children) = false := by
            refine eq_false_of_ne_true fun hasked => ?_
            obtain ⟨construct, label, hfound⟩ := hasks.mp hasked
            rw [Rule.visited?_eq_some_iff.mpr hfound] at hvisited
            cases hvisited
          simp only [respond, Rule.probe?, hnot, hvisited]
          rfl
      | some visited =>
          obtain ⟨construct, label⟩ := visited
          have hfound := Rule.visited?_eq_some_iff.mp hvisited
          have hasked : check.asksFor (.node mark head children) = true :=
            hasks.mpr ⟨construct, label, hfound⟩
          simp only [respond, Rule.probe?, hasked, hvisited, bind_assoc, pure_bind]
          exact check.visitNode_eq_verdict source hfound.1 hfound.2.1

end Check

/-! ## Findings and violations in terms of probes -/

namespace Rule

def probeAt? (rule : Rule) (source : SourceText) (site : Site Mark) : Option (Probe Mark) :=
  match rule.probe? source site with
  | .ok chosen => chosen
  | .error _ => none

theorem probeAt?_eq_some_iff {rule : Rule} {source : SourceText} {site : Site Mark}
    {probe : Probe Mark} :
    rule.probeAt? source site = some probe ↔ rule.probe? source site = .ok (some probe) := by
  unfold probeAt?
  cases rule.probe? source site <;> simp

end Rule

namespace Probe

def breaksLine (probe : Probe Mark) (source : SourceText) : Bool :=
  probe.broken ||
    match source.offsetOf probe.position with
    | .ok offset => source.touches offset probe.side .lineBreak
    | .error _ => false

def touchesBlank (probe : Probe Mark) (source : SourceText) : Bool :=
  match source.offsetOf probe.position with
  | .ok offset => source.touches offset probe.side .whitespace
  | .error _ => false

theorem spaced_of_offsetOf {probe : Probe Mark} {source : SourceText} {offset : Nat}
    (hoffset : source.offsetOf probe.position = .ok offset) (allowLineBreaks : Bool) :
    probe.spaced source allowLineBreaks =
      .ok (if probe.breaksLine source then !allowLineBreaks else probe.touchesBlank source) := by
  unfold spaced breaksLine touchesBlank
  rw [hoffset]
  rfl

theorem spaced_eq_ok_iff {probe : Probe Mark} {source : SourceText} {allowLineBreaks : Bool}
    {counts : Bool} :
    probe.spaced source allowLineBreaks = .ok counts ↔
      (∃ offset, source.offsetOf probe.position = .ok offset) ∧
        counts = if probe.breaksLine source then !allowLineBreaks
          else probe.touchesBlank source := by
  constructor
  · intro hspaced
    obtain ⟨offset, hoffset, -⟩ := bind_eq_ok_iff.mp hspaced
    rw [spaced_of_offsetOf hoffset] at hspaced
    exact ⟨⟨offset, hoffset⟩, (Except.ok.inj hspaced).symm⟩
  · rintro ⟨⟨offset, hoffset⟩, rfl⟩
    exact spaced_of_offsetOf hoffset allowLineBreaks

end Probe

namespace Check

def reports (check : Check) (source : SourceText) (probe : Probe Mark) : Bool :=
  check.switchedOn probe &&
    if probe.breaksLine source then !check.allowLineBreaks else probe.touchesBlank source

theorem judge_eq_ok_iff {check : Check} {source : SourceText} {probe : Probe Mark}
    {found : Option (Finding Mark)} :
    check.judge source probe = .ok found ↔
      (check.tests probe = true → ∃ offset, source.offsetOf probe.position = .ok offset) ∧
        found = if check.reports source probe then some probe.finding else none := by
  unfold judge reports
  split
  next htests =>
    simp only [bind_eq_ok_iff, pure_eq_ok_iff, Probe.spaced_eq_ok_iff]
    constructor
    · rintro ⟨counts, ⟨hoffset, rfl⟩, rfl⟩
      exact ⟨fun _ => hoffset, by rw [Bool.and_comm]⟩
    · rintro ⟨hoffset, rfl⟩
      exact ⟨_, ⟨hoffset htests, rfl⟩, by rw [Bool.and_comm]⟩
  next htests =>
    have hoff : check.switchedOn probe = false := by
      have hneither := eq_false_of_ne_true htests
      exact (Bool.or_eq_false_iff.mp hneither).2
    rw [hoff]
    constructor
    · rintro ⟨⟩
      exact ⟨fun htested => absurd htested htests, rfl⟩
    · rintro ⟨-, rfl⟩
      rfl

theorem respond_eq_ok_iff {check : Check} {source : SourceText} {site : Site Mark}
    {found : Option (Finding Mark)} :
    check.respond source site = .ok found ↔
      ∃ chosen, check.rule.probe? source site = .ok chosen ∧
        (∀ probe ∈ chosen, check.tests probe = true →
          ∃ offset, source.offsetOf probe.position = .ok offset) ∧
        found = (chosen.filter (check.reports source)).map Probe.finding := by
  rw [respond_eq_verdict, bind_eq_ok_iff]
  refine exists_congr fun chosen => and_congr_right fun _ => ?_
  cases chosen with
  | none =>
      constructor
      · rintro ⟨⟩
        exact ⟨by simp, rfl⟩
      · rintro ⟨-, rfl⟩
        rfl
  | some probe =>
      rw [verdict, judge_eq_ok_iff, Option.filter_some]
      cases check.reports source probe <;> simp

theorem clear_iff {check : Check} {source : SourceText} {site : Site Mark} :
    check.Clear source site ↔
      ∃ chosen, check.rule.probe? source site = .ok chosen ∧
        ∀ probe ∈ chosen, check.tests probe = true →
          ∃ offset, source.offsetOf probe.position = .ok offset := by
  unfold Clear
  simp only [respond_eq_ok_iff]
  constructor
  · rintro ⟨-, chosen, hchosen, hlocated, -⟩
    exact ⟨chosen, hchosen, hlocated⟩
  · rintro ⟨chosen, hchosen, hlocated⟩
    exact ⟨_, chosen, hchosen, hlocated, rfl⟩

theorem found?_of_clear {check : Check} {source : SourceText} {site : Site Mark}
    (hclear : check.Clear source site) :
    check.found? source site =
      ((check.rule.probeAt? source site).filter (check.reports source)).map Probe.finding := by
  obtain ⟨found, hrespond⟩ := hclear
  obtain ⟨chosen, hchosen, -, hfound⟩ := respond_eq_ok_iff.mp hrespond
  rw [found?_of_respond hrespond, hfound, Rule.probeAt?, hchosen]

end Check

end TokenSpacing
