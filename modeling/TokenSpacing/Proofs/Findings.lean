import Mathlib.Data.List.Basic
import TokenSpacing.Proofs.Scanning
import TokenSpacing.Proofs.TestedToken

/-!
# Visits and what comes out of them

A check finds something at a site if it asks for the item there and the visit returns
it.  For both rules a visit looks the construct up, tests one boundary of one token and
heeds the switch of the construct; the lemmas say which answer that gives.
-/

namespace TokenSpacing

variable {Mark : Type}

/-! ## Constructs that a check asks for -/

namespace Rule

theorem contains_visitedConstructs (rule : Rule) (construct : Construct) :
    rule.visitedConstructs.contains construct =
      ((rule.label? construct).isSome && !construct.isLiteral) := by
  cases rule <;> cases construct <;> rfl

theorem isLeading_iff (construct : Construct) :
    isLeading construct = true ↔ construct = .arrayAccess ∨ construct = .arrayType := by
  simp [isLeading]

end Rule

namespace Check

theorem lookup_eq_ok_iff {check : Check} {construct : Construct} {policy : Policy} :
    check.lookup construct = .ok policy ↔
      check.rule.label? construct = some policy.label ∧
        policy.enabled = check.settings.value (.construct construct) := by
  obtain ⟨enabled, label⟩ := policy
  unfold lookup
  cases check.rule.label? construct with
  | none => simp
  | some found => simp [and_comm, eq_comm]

theorem asksFor_node_iff (check : Check) (node : Node Mark) :
    check.asksFor node.toTree = true ↔
      ∃ construct label, node.head.construct = some construct ∧
        check.rule.label? construct = some label ∧ construct.isLiteral = false := by
  change node.head.construct.any check.rule.visitedConstructs.contains = true ↔ _
  cases node.head.construct with
  | none => simp
  | some construct =>
      rw [Option.any_some, Rule.contains_visitedConstructs, Bool.and_eq_true,
        Option.isSome_iff_exists]
      simp

theorem found?_eq_some_iff {check : Check} {source : SourceText} {site : Site Mark}
    {finding : Finding Mark} :
    check.found? source site = some finding ↔
      check.asksFor site.item = true ∧ check.visit source site = .ok (some finding) := by
  unfold found? respond
  cases check.asksFor site.item with
  | false => simp
  | true => cases check.visit source site <;> simp

theorem visit_of_clear {check : Check} {source : SourceText} {site : Site Mark}
    (hasks : check.asksFor site.item = true) (hclear : check.Clear source site) :
    ∃ found, check.visit source site = .ok found := by
  obtain ⟨found, hrespond⟩ := hclear
  rw [respond, if_pos hasks] at hrespond
  exact ⟨found, hrespond⟩

/-! ## Visits that succeed -/

theorem afterFinding?_eq_ok_iff {check : Check} {source : SourceText} {node : Node Mark}
    {construct : Construct} {tested : Leaf Mark} {found : Option (Finding Mark)} :
    check.afterFinding? source node construct tested = .ok found ↔
      ∃ label spaced, check.rule.label? construct = some label ∧
        check.spacedAfterToken source node construct tested.token = .ok spaced ∧
        found = if spaced && check.settings.value (.construct construct) then
          some ⟨node.anchor, check.rule.message label⟩ else none := by
  simp only [afterFinding?, bind_eq_ok_iff, pure_eq_ok_iff, lookup_eq_ok_iff]
  constructor
  · rintro ⟨⟨enabled, label⟩, ⟨hlabel, rfl⟩, spaced, hspaced, rfl⟩
    exact ⟨label, spaced, hlabel, hspaced, rfl⟩
  · rintro ⟨label, spaced, hlabel, hspaced, rfl⟩
    exact ⟨⟨_, label⟩, ⟨hlabel, rfl⟩, spaced, hspaced, rfl⟩

theorem beforeFinding?_eq_ok_iff {check : Check} {source : SourceText}
    {construct : Construct} {tested : Token} {anchor : Anchor Mark}
    {found : Option (Finding Mark)} :
    check.beforeFinding? source construct tested anchor = .ok found ↔
      ∃ label, check.rule.label? construct = some label ∧
        if check.settings.value (.construct construct) then
          ∃ spaced, source.spacedBefore tested.span.start check.allowLineBreaks = .ok spaced ∧
            found = if spaced then some ⟨anchor, check.rule.message label⟩ else none
        else found = none := by
  simp only [beforeFinding?, bind_eq_ok_iff, lookup_eq_ok_iff]
  constructor
  · rintro ⟨⟨enabled, label⟩, ⟨hlabel, rfl⟩, hfound⟩
    refine ⟨label, hlabel, ?_⟩
    split at hfound
    next hon =>
      rw [if_pos hon]
      obtain ⟨spaced, hspaced, hvalue⟩ := bind_eq_ok_iff.mp hfound
      exact ⟨spaced, hspaced, (pure_eq_ok_iff.mp hvalue).symm⟩
    next hoff =>
      rw [if_neg hoff]
      exact (pure_eq_ok_iff.mp hfound).symm
  · rintro ⟨label, hlabel, hfound⟩
    refine ⟨⟨_, label⟩, ⟨hlabel, rfl⟩, ?_⟩
    split at hfound
    next hon =>
      obtain ⟨spaced, hspaced, rfl⟩ := hfound
      rw [if_pos hon]
      exact bind_eq_ok_iff.mpr ⟨spaced, hspaced, rfl⟩
    next hoff =>
      rw [if_neg hoff, hfound]
      rfl

theorem visitNode_eq_ok_iff {check : Check} {source : SourceText} {node : Node Mark}
    {construct : Construct} {found : Option (Finding Mark)}
    (hconstruct : node.head.construct = some construct) :
    check.visitNode source node = .ok found ↔
      ∃ chosen, node.tokenUnderTest? source = .ok chosen ∧
        match chosen with
        | none => found = none
        | some tested =>
            match check.rule with
            | .after => check.afterFinding? source node construct tested = .ok found
            | .before =>
                check.beforeFinding? source construct tested.token tested.anchor = .ok found := by
  rw [visitNode, bind_eq_ok_iff, hconstruct]
  refine exists_congr fun chosen => and_congr_right fun _ => ?_
  cases chosen with
  | none => exact pure_eq_ok_iff.trans eq_comm
  | some tested => cases check.rule <;> exact Iff.rfl

end Check

end TokenSpacing
