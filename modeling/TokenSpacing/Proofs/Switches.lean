import Mathlib
import TokenSpacing.Check
import TokenSpacing.Proofs.Issues

/-!
# What a switch changes

Two configurations choose the same probes and differ in their verdicts.  If one tests
no more than the other and reports a part of what the other reports, it returns
whenever the other does, and its issues are that part in the same order.

Switching a construct off takes away the issues that quote its label.  Allowing line
breaks takes away the issues at line breaks, and no run ends in a violation because of
it.
-/

namespace TokenSpacing

variable {Mark : Type}

namespace Config

def set (config : Config) (rule : Rule) (field : Field) (value : Bool) : Config where
  settings other :=
    if other = rule then (config.settings other).set field value else config.settings other

def setLineBreaks (config : Config) (value : Bool) : Config where
  settings rule := (config.settings rule).set .allowLineBreaks value

end Config

/-! ## Two runs over one unit -/

namespace SourceUnit

variable {unit : SourceUnit Mark}

theorem Clear.of_tests {check other : Check} (hclear : unit.Clear check)
    (hrule : other.rule = check.rule)
    (htests : ∀ probe : Probe Mark, other.tests probe = true → check.tests probe = true) :
    unit.Clear other := by
  intro site hsite
  obtain ⟨chosen, hchosen, hlocated⟩ := Check.clear_iff.mp (hclear site hsite)
  refine Check.clear_iff.mpr ⟨chosen, ?_, ?_⟩
  · rw [hrule, hchosen]
  · intro probe hprobe htested
    exact hlocated probe hprobe (htests probe htested)

theorem allReported_of_reports {rules : List Rule} {config part : Config}
    {keep : Probe Mark → Bool}
    (hreports : ∀ rule, ∀ probe ∈ unit.probes rule,
      (part.check rule).reports unit.source probe =
        ((config.check rule).reports unit.source probe && keep probe)) :
    unit.allReported (rules.map part.check) =
      (unit.allReported (rules.map config.check)).filter keep := by
  have hrule : ∀ rule,
      unit.reported (part.check rule) = (unit.reported (config.check rule)).filter keep := by
    intro rule
    rw [reported, reported, List.filter_filter]
    refine List.filter_congr fun probe hprobe => ?_
    rw [hreports rule probe hprobe, Bool.and_comm]
  rw [allReported, allReported, Probe.filter_sort, List.filter_flatMap, List.flatMap_map,
    List.flatMap_map]
  simp only [hrule]

theorem exists_issues_of_tests {rules : List Rule} {config part : Config}
    (htests : ∀ rule, ∀ probe : Probe Mark,
      (part.check rule).tests probe = true → (config.check rule).tests probe = true)
    (hreturns : ∃ issues, unit.issues (rules.map config.check) = .ok issues) :
    ∃ issues, unit.issues (rules.map part.check) = .ok issues := by
  rw [exists_issues_iff, List.forall_mem_map] at *
  intro rule hrule
  exact (hreturns rule hrule).of_tests rfl (htests rule)

theorem issues_of_reports {rules : List Rule} {config part : Config} {keep : Probe Mark → Bool}
    {issues : List Issue}
    (htests : ∀ rule, ∀ probe : Probe Mark,
      (part.check rule).tests probe = true → (config.check rule).tests probe = true)
    (hreports : ∀ rule, ∀ probe ∈ unit.probes rule,
      (part.check rule).reports unit.source probe =
        ((config.check rule).reports unit.source probe && keep probe))
    (hissues : unit.issues (rules.map config.check) = .ok issues) :
    unit.issues (rules.map part.check) =
      .ok (((unit.allReported (rules.map config.check)).filter keep).map
        (Probe.issue unit.file)) := by
  obtain ⟨others, hothers⟩ := exists_issues_of_tests htests ⟨issues, hissues⟩
  rw [hothers, (issues_eq_ok_iff.mp hothers).2, allReported_of_reports hreports]

end SourceUnit

/-! ## Switching a construct off -/

def Issue.quotes (issue : Issue) (label : String) : Bool :=
  ("'" ++ label ++ "'").toList.isPrefixOf issue.message.toList

theorem isPrefixOf_quoted_iff {first second rest : List Char} (hfirst : '\'' ∉ first)
    (hsecond : '\'' ∉ second) :
    (first ++ ['\'']).isPrefixOf (second ++ '\'' :: rest) = true ↔ first = second := by
  induction first generalizing second with
  | nil => cases second <;> simp_all
  | cons c first ih =>
      rw [List.mem_cons, not_or] at hfirst
      cases second with
      | nil => simp [Ne.symm hfirst.1]
      | cons d second =>
          rw [List.mem_cons, not_or] at hsecond
          have hrest := ih hfirst.2 hsecond.2
          simpa using fun _ => hrest

namespace Rule

theorem quote_notMem_labels (rule : Rule) : ∀ entry ∈ rule.labels, '\'' ∉ entry.2.toList := by
  cases rule <;> decide

theorem labels_injective (rule : Rule) : ∀ first ∈ rule.labels, ∀ second ∈ rule.labels,
    first.2 = second.2 → first.1 = second.1 := by
  cases rule <;> decide

theorem mem_labels_of_label? {rule : Rule} {construct : Construct} {label : String}
    (hlabel : rule.label? construct = some label) : (construct, label) ∈ rule.labels := by
  obtain ⟨before, after, hsplit, -⟩ := List.lookup_eq_some_iff.mp hlabel
  rw [hsplit]
  simp

theorem toList_message (rule : Rule) (label : String) :
    ∃ rest, (rule.message label).toList = '\'' :: (label.toList ++ '\'' :: rest) := by
  cases rule <;> simp [message]

end Rule

theorem Probe.quotes_issue_iff {rule : Rule} {construct : Construct} {label : String}
    {probe : Probe Mark} (file : String) (hlabel : rule.label? construct = some label)
    (hprobe : rule.label? probe.construct = some probe.label) :
    (probe.issue file).quotes label = true ↔ probe.construct = construct := by
  have hentry := Rule.mem_labels_of_label? hlabel
  have hother := Rule.mem_labels_of_label? hprobe
  obtain ⟨rest, hmessage⟩ := probe.rule.toList_message probe.label
  have hquoted : (label.toList ++ ['\'']).isPrefixOf (probe.label.toList ++ '\'' :: rest) = true ↔
      label.toList = probe.label.toList :=
    isPrefixOf_quoted_iff (rule.quote_notMem_labels _ hentry) (rule.quote_notMem_labels _ hother)
  have hquotes : (probe.issue file).quotes label =
      (label.toList ++ ['\'']).isPrefixOf (probe.label.toList ++ '\'' :: rest) := by
    simp [Issue.quotes, issue, hmessage]
  rw [hquotes, hquoted, String.toList_inj]
  constructor
  · intro hsame
    exact (rule.labels_injective _ hentry _ hother hsame).symm
  · rintro rfl
    exact Option.some.inj (hlabel.symm.trans hprobe)

namespace Config

theorem switchedOn_set (config : Config) (rule other : Rule) (construct : Construct)
    (value : Bool) (probe : Probe Mark) :
    ((config.set rule (.construct construct) value).check other).switchedOn probe =
      if other = rule ∧ probe.construct = construct then value
      else (config.check other).switchedOn probe := by
  unfold Check.switchedOn check set Settings.set
  by_cases hrule : other = rule <;> simp [hrule]

theorem allowLineBreaks_set (config : Config) (rule other : Rule) (construct : Construct)
    (value : Bool) :
    ((config.set rule (.construct construct) value).check other).allowLineBreaks =
      (config.check other).allowLineBreaks := by
  unfold Check.allowLineBreaks check set Settings.set
  by_cases hrule : other = rule <;> simp [hrule]

theorem tests_set_false {config : Config} {rule other : Rule} {construct : Construct}
    {probe : Probe Mark}
    (htests : ((config.set rule (.construct construct) false).check other).tests probe = true) :
    ((config.set rule (.construct construct) true).check other).tests probe = true := by
  rw [Check.tests, switchedOn_set, Bool.or_eq_true] at *
  refine htests.imp_right fun hon => ?_
  by_cases hsame : other = rule ∧ probe.construct = construct
  · exact if_pos hsame
  · rwa [if_neg hsame] at *

theorem reports_set_false (config : Config) (rule other : Rule) (construct : Construct)
    (source : SourceText) (probe : Probe Mark) :
    ((config.set rule (.construct construct) false).check other).reports source probe =
      (((config.set rule (.construct construct) true).check other).reports source probe &&
        !decide (other = rule ∧ probe.construct = construct)) := by
  rw [Check.reports, Check.reports, switchedOn_set, switchedOn_set, allowLineBreaks_set,
    allowLineBreaks_set]
  by_cases hsame : other = rule ∧ probe.construct = construct
  · rw [if_pos hsame, decide_eq_true hsame]
    simp
  · rw [if_neg hsame, if_neg hsame, decide_eq_false hsame]
    simp

end Config

namespace SourceUnit

/-- With a construct switched off, the issues are those with it switched on, without the
ones of its rule that quote its label. -/
theorem issues_switch_off (unit : SourceUnit Mark) (config : Config) (rules : List Rule)
    {rule : Rule} {construct : Construct} {label : String} {issues : List Issue}
    (hlabel : rule.label? construct = some label)
    (hissues : unit.issues (rules.map (config.set rule (.construct construct) true).check) =
      .ok issues) :
    unit.issues (rules.map (config.set rule (.construct construct) false).check) =
      .ok (issues.filter fun issue => !(issue.rule == rule && issue.quotes label)) := by
  let remains (issue : Issue) : Bool := !(issue.rule == rule && issue.quotes label)
  have hremains : ∀ other, ∀ probe ∈ unit.probes other,
      remains (probe.issue unit.file) =
        !decide (other = rule ∧ probe.construct = construct) := by
    intro other probe hprobe
    obtain ⟨rfl, hgoverned⟩ := label?_of_mem_probes hprobe
    refine congrArg not (Bool.eq_iff_iff.mpr ?_)
    rw [Bool.and_eq_true, beq_iff_eq, decide_eq_true_iff]
    refine and_congr_right fun hrule => ?_
    rw [← hrule] at hlabel
    exact Probe.quotes_issue_iff unit.file hlabel hgoverned
  have hreports : ∀ other, ∀ probe ∈ unit.probes other,
      ((config.set rule (.construct construct) false).check other).reports unit.source probe =
        (((config.set rule (.construct construct) true).check other).reports unit.source probe &&
          remains (probe.issue unit.file)) := by
    intro other probe hprobe
    rw [hremains other probe hprobe, Config.reports_set_false]
  obtain ⟨-, rfl⟩ := issues_eq_ok_iff.mp hissues
  rw [issues_of_reports (fun _ _ => Config.tests_set_false) hreports hissues, List.filter_map]
  rfl

def looseReference : SourceUnit Nat :=
  let token (mark : Nat) (text : String) (first last : Int) : Tree Nat :=
    .leaf mark ⟨text, "Loose.java", ⟨1, first⟩, ⟨1, last⟩⟩
  ⟨"Loose.java", ["a :: b ;".toList], ['\n'],
    .node 0 ⟨"program", none, "Loose.java", ⟨1, 1⟩, ⟨1, 9⟩⟩
      [.node 1 ⟨"method_reference", some .methodReference, "Loose.java", ⟨1, 1⟩, ⟨1, 7⟩⟩
         [token 2 "a" 1 2, token 3 "::" 3 5, token 4 "b" 6 7],
       token 5 ";" 8 9]⟩

def looseBefore : List Issue :=
  [⟨.before, "Loose.java", ⟨1, 3⟩, "'::' is preceded by whitespace."⟩,
   ⟨.before, "Loose.java", ⟨1, 8⟩, "';' is preceded by whitespace."⟩]

theorem issues_looseReference :
    looseReference.issues
        (Rule.all.map (Config.default.set .after (.construct .methodReference) true).check) =
      .ok (⟨.after, "Loose.java", ⟨1, 1⟩, "'::' is followed by whitespace."⟩ :: looseBefore) ∧
    looseReference.issues
        (Rule.all.map (Config.default.set .after (.construct .methodReference) false).check) =
      .ok looseBefore := by
  have hon : looseReference.issues
        (Rule.all.map (Config.default.set .after (.construct .methodReference) true).check) =
      .ok (⟨.after, "Loose.java", ⟨1, 1⟩, "'::' is followed by whitespace."⟩ :: looseBefore) := by
    cbv
  have hlabel : Rule.after.label? .methodReference = some "::" := by decide
  refine ⟨hon, (issues_switch_off looseReference Config.default Rule.all hlabel hon).trans ?_⟩
  decide

end SourceUnit

/-! ## Allowing line breaks -/

/-- The boundary of a site's probe is at a line break, or the site is a type cast whose
parentheses start on different lines. -/
def Site.BreaksLine (site : Site Mark) (source : SourceText) (probe : Probe Mark) : Prop :=
  (∃ offset, source.offsetOf probe.position = .ok offset ∧
      source.touches offset probe.side .lineBreak = true) ∨
    probe.construct = .typeCast ∧
      ∃ node : Node Mark, site.item = node.toTree ∧ node.castSpansLines = true

namespace Rule

theorem broken_nodeProbe_iff {rule : Rule} {node : Node Mark} {construct : Construct}
    {label : String} {tested : Leaf Mark} (hlabel : rule.label? construct = some label) :
    (rule.nodeProbe node construct label tested).broken = true ↔
      construct = .typeCast ∧ node.castSpansLines = true := by
  cases rule with
  | after =>
      by_cases hcast : construct = .typeCast
      · subst hcast
        simp [nodeProbe, isLeading]
      · cases hleading : isLeading construct <;> simp [nodeProbe, hleading, hcast]
  | before =>
      have hcast : construct ≠ .typeCast := by
        rintro rfl
        cases hlabel
      simp [nodeProbe, hcast]

theorem broken_iff_of_probe? {rule : Rule} {source : SourceText} {site : Site Mark}
    {probe : Probe Mark} (hprobe : rule.probe? source site = .ok (some probe)) :
    probe.broken = true ↔
      probe.construct = .typeCast ∧
        ∃ node : Node Mark, site.item = node.toTree ∧ node.castSpansLines = true := by
  obtain ⟨leaf, construct, hitem, rfl, hliteral, rfl⟩ | ⟨node, construct, label, tested, hitem,
    hlabel, -, rfl⟩ := probe?_cases hprobe
  · simp [hitem, Node.toTree]
  · rw [broken_nodeProbe_iff hlabel, (rule.nodeProbe_fields node construct label tested).2.1, hitem]
    refine and_congr_right fun _ => ?_
    constructor
    · intro hspans
      exact ⟨node, rfl, hspans⟩
    · rintro ⟨other, hsame, hspans⟩
      obtain ⟨mark, head, children⟩ := other
      obtain ⟨rfl, rfl, rfl⟩ := Tree.node.inj hsame
      exact hspans

end Rule

theorem Probe.breaksLine_iff_of_probe? {rule : Rule} {source : SourceText} {site : Site Mark}
    {probe : Probe Mark} (hprobe : rule.probe? source site = .ok (some probe)) :
    probe.breaksLine source = true ↔ site.BreaksLine source probe := by
  rw [breaksLine, Bool.or_eq_true, Rule.broken_iff_of_probe? hprobe, or_comm, Site.BreaksLine]
  refine or_congr_left ?_
  cases source.offsetOf probe.position <;> simp

namespace Config

theorem tests_setLineBreaks (config : Config) (first second : Bool) (rule : Rule)
    (probe : Probe Mark) :
    ((config.setLineBreaks first).check rule).tests probe =
      ((config.setLineBreaks second).check rule).tests probe := by
  simp [Check.tests, Check.switchedOn, check, setLineBreaks, Settings.set]

theorem reports_setLineBreaks (config : Config) (rule : Rule) (source : SourceText)
    (probe : Probe Mark) :
    ((config.setLineBreaks true).check rule).reports source probe =
      (((config.setLineBreaks false).check rule).reports source probe &&
        !probe.breaksLine source) := by
  cases hbreaks : probe.breaksLine source <;>
    simp [Check.reports, Check.switchedOn, Check.allowLineBreaks, check, setLineBreaks,
      Settings.set, hbreaks]

end Config

namespace SourceUnit

theorem exists_issues_setLineBreaks {unit : SourceUnit Mark} {config : Config}
    {rules : List Rule} {first : Bool} (second : Bool)
    (hreturns : ∃ issues, unit.issues (rules.map (config.setLineBreaks first).check) = .ok issues) :
    ∃ issues, unit.issues (rules.map (config.setLineBreaks second).check) = .ok issues := by
  refine exists_issues_of_tests (fun rule probe htested => ?_) hreturns
  rwa [config.tests_setLineBreaks first second]

theorem breaksLine_iff_of_mem_allReported {unit : SourceUnit Mark} {checks : List Check}
    {probe : Probe Mark} (hprobe : probe ∈ unit.allReported checks) :
    ∃ site ∈ unit.root.sites none,
      probe.rule.probe? unit.source site = .ok (some probe) ∧
        (probe.breaksLine unit.source = true ↔ site.BreaksLine unit.source probe) := by
  obtain ⟨check, -, hmem, -⟩ := mem_allReported_iff.mp hprobe
  obtain ⟨site, hsite, hchosen⟩ := mem_probes_iff.mp hmem
  obtain ⟨hrule, -⟩ := label?_of_mem_probes hmem
  rw [hrule]
  exact ⟨site, hsite, hchosen, Probe.breaksLine_iff_of_probe? hchosen⟩

/-- Allowing line breaks leaves out the issues at line breaks and keeps all others in
their order; it neither causes nor prevents a violation. -/
theorem issues_setLineBreaks (unit : SourceUnit Mark) (config : Config) (rules : List Rule) :
    let strict := rules.map (config.setLineBreaks false).check
    let relaxed := rules.map (config.setLineBreaks true).check
    let kept := (unit.allReported strict).filter (!·.breaksLine unit.source)
    ((∃ violation, unit.issues strict = .error violation) ∧
        ∃ violation, unit.issues relaxed = .error violation) ∨
      (unit.issues strict = .ok ((unit.allReported strict).map (Probe.issue unit.file)) ∧
        unit.issues relaxed = .ok (kept.map (Probe.issue unit.file)) ∧
        (kept.map (Probe.issue unit.file)).Sublist
          ((unit.allReported strict).map (Probe.issue unit.file)) ∧
        ∀ probe ∈ unit.allReported strict, ∃ site ∈ unit.root.sites none,
          probe.rule.probe? unit.source site = .ok (some probe) ∧
            (probe.breaksLine unit.source = true ↔ site.BreaksLine unit.source probe)) := by
  intro strict relaxed kept
  cases hstrict : unit.issues strict with
  | error violation =>
      left
      refine ⟨⟨violation, rfl⟩, ?_⟩
      cases hrelaxed : unit.issues relaxed with
      | error other => exact ⟨other, rfl⟩
      | ok issues =>
          obtain ⟨others, hothers⟩ := exists_issues_setLineBreaks false ⟨issues, hrelaxed⟩
          cases hstrict.symm.trans hothers
  | ok issues =>
      right
      have hkept : unit.allReported relaxed = kept :=
        allReported_of_reports fun rule probe _ =>
          config.reports_setLineBreaks rule unit.source probe
      obtain ⟨others, hrelaxed⟩ := exists_issues_setLineBreaks true ⟨issues, hstrict⟩
      refine ⟨?_, ?_, List.filter_sublist.map _, fun _ => breaksLine_iff_of_mem_allReported⟩
      · rw [(issues_eq_ok_iff.mp hstrict).2]
      · rw [← hkept, ← (issues_eq_ok_iff.mp hrelaxed).2]
        exact hrelaxed

/-- A cast over two lines, a semicolon after a blank and one that starts a line. -/
def brokenCast : SourceUnit Nat :=
  let token (mark : Nat) (text : String) (line first last : Int) : Tree Nat :=
    .leaf mark ⟨text, "Cast.java", ⟨line, first⟩, ⟨line, last⟩⟩
  ⟨"Cast.java", ["(int".toList, ") a ;".toList, ";".toList], ['\n'],
    .node 0 ⟨"program", none, "Cast.java", ⟨1, 1⟩, ⟨3, 2⟩⟩
      [.node 1 ⟨"cast_expression", some .typeCast, "Cast.java", ⟨1, 1⟩, ⟨2, 4⟩⟩
         [token 2 "(" 1 1 2, token 3 "int" 1 2 5, token 4 ")" 2 1 2, token 5 "a" 2 3 4],
       token 6 ";" 2 5 6, token 7 ";" 3 1 2]⟩

def castsOn : Config :=
  Config.default.set .after (.construct .typeCast) true

theorem issues_brokenCast :
    brokenCast.issues (Rule.all.map (castsOn.setLineBreaks false).check) =
        .ok [⟨.after, "Cast.java", ⟨1, 1⟩, "')' is followed by whitespace."⟩,
          ⟨.before, "Cast.java", ⟨2, 5⟩, "';' is preceded by whitespace."⟩,
          ⟨.before, "Cast.java", ⟨3, 1⟩, "';' is preceded by whitespace."⟩] ∧
      brokenCast.issues (Rule.all.map (castsOn.setLineBreaks true).check) =
        .ok [⟨.before, "Cast.java", ⟨2, 5⟩, "';' is preceded by whitespace."⟩] := by
  have hstrict : brokenCast.issues (Rule.all.map (castsOn.setLineBreaks false).check) =
      .ok [⟨.after, "Cast.java", ⟨1, 1⟩, "')' is followed by whitespace."⟩,
        ⟨.before, "Cast.java", ⟨2, 5⟩, "';' is preceded by whitespace."⟩,
        ⟨.before, "Cast.java", ⟨3, 1⟩, "';' is preceded by whitespace."⟩] := by
    cbv
  refine ⟨hstrict, ?_⟩
  obtain ⟨⟨violation, hviolation⟩, -⟩ | ⟨-, hrelaxed, -⟩ :=
    issues_setLineBreaks brokenCast castsOn Rule.all
  · rw [hstrict] at hviolation
    contradiction
  · rw [hrelaxed]
    cbv

end SourceUnit

end TokenSpacing
