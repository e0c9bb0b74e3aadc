import Mathlib.Data.List.Basic
import TokenSpacing.Files.Workspace
import TokenSpacing.Proofs.Conversion
import TokenSpacing.Proofs.SpaceAfter
import TokenSpacing.Proofs.SpaceBefore

/-!
# No violation is reachable from a parsed text

In a tree whose items all start and stop inside the text, every construct that a check
visits has a token rule and a label, and every boundary that is tested has an offset.
So a scan succeeds, and what it reports starts at an item of the tree.  Trees that come
from a parser are such trees, whatever the settings and the chosen rules.
-/

namespace TokenSpacing

variable {Mark : Type}

/-! ## Positions that have an offset -/

def SourceText.Locates (source : SourceText) (position : Position) : Prop :=
  ∃ offset, source.offsetOf position = .ok offset

def Tree.Inside (tree : Tree Mark) (source : SourceText) : Prop :=
  ∀ item ∈ tree.walk, source.Locates item.span.start ∧ source.Locates item.span.stop

/-- Every token of a tree starts and stops inside the text; that is all a check asks. -/
def Tree.TokensInside (tree : Tree Mark) (source : SourceText) : Prop :=
  ∀ token ∈ tree.tokens, source.Locates token.span.start ∧ source.Locates token.span.stop

theorem Tree.Inside.tokensInside {tree : Tree Mark} {source : SourceText}
    (hinside : tree.Inside source) : tree.TokensInside source := by
  intro token htoken
  obtain ⟨mark, hleaf⟩ := mem_tokens_iff.mp htoken
  exact hinside _ hleaf

theorem Tree.TokensInside.of_mem_walk {tree item : Tree Mark} {source : SourceText}
    (htokens : tree.TokensInside source) (hitem : item ∈ tree.walk) :
    item.TokensInside source := by
  intro token htoken
  obtain ⟨mark, hleaf⟩ := mem_tokens_iff.mp htoken
  exact htokens token (mem_tokens_iff.mpr ⟨mark, walk_subset_of_mem_walk hitem hleaf⟩)

namespace SourceText

variable {source : SourceText} {position : Position}

theorem Locates.spacedBefore (hlocates : source.Locates position) (allowLineBreaks : Bool) :
    ∃ spaced, source.spacedBefore position allowLineBreaks = .ok spaced := by
  obtain ⟨offset, hoffset⟩ := hlocates
  exact ⟨_, bind_eq_ok_iff.mpr ⟨offset, hoffset, rfl⟩⟩

theorem Locates.spacedAfter (hlocates : source.Locates position)
    (allowLineBreaks broken : Bool) :
    ∃ spaced, source.spacedAfter position allowLineBreaks broken = .ok spaced := by
  obtain ⟨offset, hoffset⟩ := hlocates
  exact ⟨_, bind_eq_ok_iff.mpr ⟨offset, hoffset, rfl⟩⟩

end SourceText

/-! ## Visits -/

namespace Node

theorem mem_walk_of_tests {node : Node Mark} {construct : Construct} {tested : Leaf Mark}
    (htests : node.Tests construct tested) :
    Tree.leaf tested.mark tested.token ∈ node.toTree.walk := by
  cases construct with
  | annotationMark | arrayAccess | arrayType | memberSelect | methodReference | newArray
  | typeCast | labeledStatement => exact mem_walk_of_token? (token?_eq_some_iff.mpr htests)
  | bitwiseComplement | logicalComplement | unaryPlus | unaryMinus | prefixIncrement
  | prefixDecrement | synchronizedStatement =>
      exact Tree.mem_walk_of_firstToken? (Tree.firstToken?_eq_some_iff.mpr htests)
  | postfixIncrement | postfixDecrement =>
      exact Tree.mem_walk_of_lastToken? (Tree.lastToken?_eq_some_iff.mpr htests)
  | comma | semicolon | dot | ellipsis | genericStart | genericEnd => exact htests.elim

theorem arrayTypeBracket?_of_inside {node : Node Mark} {source : SourceText}
    (hinside : node.toTree.TokensInside source) :
    ∃ found, node.arrayTypeBracket? source = .ok found := by
  unfold arrayTypeBracket?
  cases hbracket : node.token? "[" with
  | none => exact ⟨none, rfl⟩
  | some bracket =>
      have hmem := Tree.mem_tokens_iff.mpr ⟨bracket.mark, mem_walk_of_token? hbracket⟩
      obtain ⟨offset, hoffset⟩ := (hinside _ hmem).1
      simp only
      split
      next => exact ⟨none, rfl⟩
      next => exact ⟨_, bind_eq_ok_iff.mpr ⟨offset, hoffset, rfl⟩⟩

theorem tokenUnderTest?_of_inside {node : Node Mark} {source : SourceText}
    {construct : Construct} (hinside : node.toTree.TokensInside source)
    (hconstruct : node.head.construct = some construct)
    (hstructured : construct.isLiteral = false) :
    ∃ found, node.tokenUnderTest? source = .ok found := by
  unfold tokenUnderTest?
  rw [hconstruct]
  cases construct with
  | arrayType => exact arrayTypeBracket?_of_inside hinside
  | comma | semicolon | dot | ellipsis | genericStart | genericEnd => cases hstructured
  | _ => exact ⟨_, rfl⟩

end Node

namespace Check

variable {unit : SourceUnit Mark} {node : Node Mark}

theorem afterFinding?_of_inside {check : Check} {construct : Construct} {label : String}
    {tested : Leaf Mark} (node : Node Mark) (hlabel : check.rule.label? construct = some label)
    (hstart : unit.source.Locates tested.token.span.start)
    (hstop : unit.source.Locates tested.token.span.stop) :
    ∃ found, check.afterFinding? unit.source node construct tested = .ok found := by
  have hspaced : ∃ spaced,
      check.spacedAfterToken unit.source node construct tested.token = .ok spaced := by
    unfold spacedAfterToken
    split
    next => exact hstart.spacedBefore _
    next => exact hstop.spacedAfter _ _
  obtain ⟨spaced, hspaced⟩ := hspaced
  exact ⟨_, afterFinding?_eq_ok_iff.mpr ⟨label, spaced, hlabel, hspaced, rfl⟩⟩

theorem beforeFinding?_of_inside {check : Check} {construct : Construct} {label : String}
    {tested : Token} (anchor : Anchor Mark)
    (hlabel : check.rule.label? construct = some label)
    (hstart : unit.source.Locates tested.span.start) :
    ∃ found, check.beforeFinding? unit.source construct tested anchor = .ok found := by
  obtain ⟨spaced, hspaced⟩ := hstart.spacedBefore check.allowLineBreaks
  by_cases hon : check.settings.value (.construct construct) = true
  · refine ⟨if spaced then some ⟨anchor, check.rule.message label⟩ else none,
      beforeFinding?_eq_ok_iff.mpr ⟨label, hlabel, ?_⟩⟩
    rw [if_pos hon]
    exact ⟨spaced, hspaced, rfl⟩
  · refine ⟨none, beforeFinding?_eq_ok_iff.mpr ⟨label, hlabel, ?_⟩⟩
    rw [if_neg hon]

theorem visitNode_of_inside {check : Check} {construct : Construct} {label : String}
    (hinside : node.toTree.TokensInside unit.source)
    (hconstruct : node.head.construct = some construct)
    (hlabel : check.rule.label? construct = some label)
    (hstructured : construct.isLiteral = false) :
    ∃ found, check.visitNode unit.source node = .ok found := by
  obtain ⟨chosen, hchosen⟩ :=
    Node.tokenUnderTest?_of_inside hinside hconstruct hstructured
  cases chosen with
  | none => exact ⟨none, (visitNode_eq_ok_iff hconstruct).mpr ⟨none, hchosen, rfl⟩⟩
  | some tested =>
      have htests := ((Node.tokenUnderTest?_eq_some_iff hconstruct hchosen tested).mp rfl).1
      obtain ⟨hstart, hstop⟩ :=
        hinside _ (Tree.mem_tokens_iff.mpr ⟨tested.mark, Node.mem_walk_of_tests htests⟩)
      obtain ⟨rule, settings⟩ := check
      cases rule with
      | after =>
          obtain ⟨found, hfound⟩ := afterFinding?_of_inside node hlabel hstart hstop
          exact ⟨found, (visitNode_eq_ok_iff hconstruct).mpr ⟨some tested, hchosen, hfound⟩⟩
      | before =>
          obtain ⟨found, hfound⟩ := beforeFinding?_of_inside tested.anchor hlabel hstart
          exact ⟨found, (visitNode_eq_ok_iff hconstruct).mpr ⟨some tested, hchosen, hfound⟩⟩

theorem visitLeaf_of_inside {check : Check} {parent : Option (Node Mark)} {leaf : Leaf Mark}
    (hstart : unit.source.Locates leaf.token.span.start) :
    ∃ found, check.visitLeaf unit.source parent leaf = .ok found := by
  obtain ⟨rule, settings⟩ := check
  cases rule with
  | after => exact ⟨none, rfl⟩
  | before =>
      simp only [visitLeaf]
      cases hliteral : literalConstruct? parent leaf.token with
      | none => exact ⟨none, rfl⟩
      | some construct =>
          have hspelled := (literalConstruct?_eq_some_iff.mp hliteral).literal?_eq
          exact beforeFinding?_of_inside _ (Rule.label?_before_of_literal hspelled) hstart

theorem clear_of_inside (check : Check) {site : Site Mark}
    (hinside : site.item.TokensInside unit.source) : check.Clear unit.source site := by
  obtain ⟨parent, item⟩ := site
  unfold Clear respond
  split
  next hasks =>
    cases item with
    | leaf mark token =>
        exact visitLeaf_of_inside (hinside token (by simp)).1
    | node mark head children =>
        obtain ⟨construct, label, hconstruct, hlabel, hstructured⟩ :=
          (asksFor_node_iff check ⟨mark, head, children⟩).mp hasks
        exact visitNode_of_inside hinside hconstruct hlabel hstructured
  next => exact ⟨none, rfl⟩

theorem clear_of_tokensInside (check : Check) (hinside : unit.root.TokensInside unit.source)
    {site : Site Mark} (hsite : site ∈ unit.root.sites none) : check.Clear unit.source site :=
  check.clear_of_inside (hinside.of_mem_walk (Tree.item_mem_walk_of_mem_sites hsite))

/-- What is reported is the item visited, one below it, or the node above it. -/
theorem found?_anchor_mem {check : Check} {site : Site Mark} {finding : Finding Mark}
    (hsite : site ∈ unit.root.sites none) (hclear : check.Clear unit.source site)
    (hfound : check.found? unit.source site = some finding) :
    ∃ item ∈ unit.root.walk, finding.anchor.span = item.span := by
  have hitem := Tree.item_mem_walk_of_mem_sites hsite
  obtain ⟨rule, settings⟩ := check
  cases rule with
  | after =>
      obtain ⟨parent, item⟩ := site
      cases item with
      | leaf mark token => cases (found?_eq_some_iff.mp hfound).1
      | node mark head children =>
          let node : Node Mark := ⟨mark, head, children⟩
          have hnodeClear : Check.Clear ⟨.after, settings⟩ unit.source ⟨parent, node.toTree⟩ :=
            hclear
          obtain ⟨construct, label, tested, -, rfl⟩ :=
            (found?_after_node_iff hnodeClear finding).mp hfound
          exact ⟨node.toTree, hitem, rfl⟩
  | before =>
      cases (found?_before_iff hclear finding).mp hfound with
      | @literal parent mark token construct anchor hspelled hspaced hreported =>
          cases hreported with
          | root => exact ⟨_, hitem, rfl⟩
          | member => exact ⟨_, hitem, rfl⟩
          | part =>
              rcases Tree.parent_of_mem_sites hsite with hnone | ⟨above, habove, hmem⟩
              · cases hnone
              · cases habove
                exact ⟨_, hmem, rfl⟩
      | tagged htagged hgoverned hchosen hspaced =>
          have hbelow := Tree.walk_subset_of_mem_walk hitem (Node.mem_walk_of_tests hchosen)
          exact ⟨_, hbelow, rfl⟩

end Check

/-! ## Scans and issues -/

namespace SourceUnit

theorem issues_of_inside (unit : SourceUnit Mark) (checks : List Check)
    (hinside : unit.root.Inside unit.source) :
    ∃ issues, unit.issues checks = .ok issues ∧
      ∀ issue ∈ issues, unit.source.Locates issue.position := by
  have hclear : ∀ check ∈ checks, ∀ site ∈ unit.root.sites none,
      check.Clear unit.source site :=
    fun check _ site hsite => check.clear_of_tokensInside hinside.tokensInside hsite
  refine ⟨_, bind_eq_ok_iff.mpr ⟨_, scan_eq_ok_iff.mpr ⟨hclear, rfl⟩, rfl⟩, ?_⟩
  intro issue hissue
  rw [issuesOf, Issue.sort, List.mem_mergeSort] at hissue
  obtain ⟨pass, hpass, hmem⟩ := List.mem_flatMap.mp hissue
  obtain ⟨check, hcheck, rfl⟩ := List.mem_map.mp hpass
  obtain ⟨finding, hfinding, rfl⟩ := List.mem_map.mp hmem
  obtain ⟨site, hsite, hfound⟩ := List.mem_filterMap.mp hfinding
  obtain ⟨item, hitem, hspan⟩ :=
    Check.found?_anchor_mem hsite (hclear check hcheck site hsite) hfound
  change unit.source.Locates finding.anchor.span.start
  rw [hspan]
  exact (hinside item hitem).1

end SourceUnit

/-! ## Texts -/

theorem Java.AllInPlace.inside {text : List Char} {tree : Tree Unit}
    (hplaced : Java.AllInPlace text tree) :
    tree.Inside (.ofLines (Text.splitLines text) ['\n']) := by
  intro item hitem
  have hitemPlaced := hplaced item hitem
  cases item with
  | leaf mark token => exact ⟨hitemPlaced.start.offset, hitemPlaced.stop.offset⟩
  | node mark head children => exact ⟨hitemPlaced.1.offset, hitemPlaced.2.offset⟩

theorem Config.checks_some {config : Config} {keys : List String}
    (hknown : ∀ key ∈ keys, ∃ rule : Rule, rule.key = key) :
    config.checks (some keys) =
      .ok ((Rule.all.map config.check).filter fun check => keys.contains check.rule.key) := by
  have hunknown : keys.filter (fun key => (Rule.ofKey? key).isNone) = [] := by
    rw [List.filter_eq_nil_iff]
    intro key hkey
    obtain ⟨rule, rfl⟩ := hknown key hkey
    cases rule <;> decide
  simp only [Config.checks, hunknown, List.filter_map]
  rfl

theorem Config.checks_of_known (config : Config) {rules : Option (List String)}
    (hknown : ∀ keys ∈ rules, ∀ key ∈ keys, ∃ rule : Rule, rule.key = key) :
    ∃ checks, config.checks rules = .ok checks := by
  cases rules with
  | none => exact ⟨_, rfl⟩
  | some keys => exact ⟨_, checks_some (hknown keys rfl)⟩

theorem Logged.outcome_bind {α β : Type} {first : Logged α} {value : α}
    (hfirst : first.outcome = .ok value) (next : α → Logged β) :
    (first >>= next).outcome = (next value).outcome := by
  change (first.bind next).outcome = _
  rw [Logged.bind, hfirst]

namespace Workspace

/--
Checking a text gives issues and never fails, and every issue is at a position inside
the text.
-/
theorem checkText_locates_issues (workspace : Workspace) (file : String) (text : List Char)
    (config : Config) (rules : Option (List String))
    (hroot : (workspace.parser text).Consistent text)
    (hclean : (workspace.parser text).info.hasError = false)
    (hoperator : (workspace.parser text).lacksOperator = false)
    (hknown : ∀ keys ∈ rules, ∀ key ∈ keys, ∃ rule : Rule, rule.key = key) :
    ∃ issues, (workspace.checkText file text config rules).outcome = .ok issues ∧
      ∀ issue ∈ issues, ∃ offset,
        (SourceText.ofLines (Text.splitLines text) ['\n']).offsetOf issue.position =
          .ok offset := by
  obtain ⟨tree, hparse, hplaced⟩ := Java.parseText_inPlace file hroot hclean hoperator
  obtain ⟨checks, hchecks⟩ := config.checks_of_known hknown
  obtain ⟨issues, hissues, hlocates⟩ :=
    SourceUnit.issues_of_inside ⟨file, Text.splitLines text, ['\n'], tree⟩ checks
      hplaced.inside
  refine ⟨issues, ?_, hlocates⟩
  have hunit : (workspace.parseText file text).outcome =
      .ok ⟨file, Text.splitLines text, ['\n'], tree⟩ := by
    rw [parseText, hparse]
    rfl
  have hchosen : (Logged.ofExcept (chosenChecks config rules)).outcome = .ok checks := by
    rw [chosenChecks, hchecks]
    rfl
  rw [checkText, Logged.outcome_bind hunit, Logged.outcome_bind hchosen, checkUnit, hissues]
  rfl

def trailingDimensions : Workspace :=
  let tree : Java.Concrete :=
    .node (.inLine "program" 0 10)
      [.node (.inLine "local_variable_declaration" 0 10)
        [.node { Java.Info.inLine "type_identifier" 0 2 with fillsType := true } [],
         .node (.inLine "variable_declarator" 3 8)
           [.leaf "identifier" 3 5,
            .node (.inLine "dimensions" 6 8) [.leaf "[" 6 7, .leaf "]" 7 8]],
         .leaf ";" 9 10]]
  ⟨⟨[], []⟩, [], fun _ => tree⟩

theorem checkText_trailingDimensions :
    (trailingDimensions.parser "É é [] ;".toList).Consistent "É é [] ;".toList ∧
      ∃ issues, (trailingDimensions.checkText "Dims.java" "É é [] ;".toList Config.default
          (some ["no-whitespace-before", "no-whitespace-after"])).outcome = .ok issues ∧
        ∀ issue ∈ issues, ∃ offset,
          (SourceText.ofLines (Text.splitLines "É é [] ;".toList) ['\n']).offsetOf
            issue.position = .ok offset := by
  have hconsistent :
      (trailingDimensions.parser "É é [] ;".toList).Consistent "É é [] ;".toList := by
    decide +kernel
  have hknown : ∀ keys ∈ some ["no-whitespace-before", "no-whitespace-after"],
      ∀ key ∈ keys, ∃ rule : Rule, rule.key = key := by
    rintro _ ⟨⟩ key hkey
    rcases List.mem_pair.mp hkey with rfl | rfl
    · exact ⟨.before, rfl⟩
    · exact ⟨.after, rfl⟩
  exact ⟨hconsistent, checkText_locates_issues trailingDimensions "Dims.java" _ Config.default _
    hconsistent rfl (by decide) hknown⟩

end Workspace

end TokenSpacing
