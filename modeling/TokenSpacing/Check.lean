import TokenSpacing.Config.Error
import TokenSpacing.Settings
import TokenSpacing.TokenUnderTest

/-!
A check is a rule with its settings.  It looks at one site at a time and reports at
most one finding there.
-/

namespace TokenSpacing

variable {Mark : Type}

structure Finding (Mark : Type) where
  anchor : Anchor Mark
  message : String
  deriving DecidableEq, Repr

structure Check where
  rule : Rule
  settings : Settings

structure SettingsMismatch where
  needed : Rule
  given : Rule
  deriving DecidableEq, Repr

namespace SettingsMismatch

def message (mismatch : SettingsMismatch) : String :=
  mismatch.needed.checkName ++ " needs " ++ mismatch.needed.settingsName ++ ", got " ++
    mismatch.given.settingsName

end SettingsMismatch

structure Policy where
  enabled : Bool
  label : String
  deriving DecidableEq, Repr

namespace Check

def ofSettings (rule given : Rule) (settings : Settings) : Except SettingsMismatch Check :=
  if rule = given then .ok ⟨rule, settings⟩ else .error ⟨rule, given⟩

def default (rule : Rule) : Check :=
  ⟨rule, Settings.default rule⟩

def describe (check : Check) : String :=
  check.rule.checkName ++ "(" ++ check.settings.describe check.rule ++ ")"

def allowLineBreaks (check : Check) : Bool :=
  check.settings.value .allowLineBreaks

def lookup (check : Check) (construct : Construct) : Except Violation Policy :=
  match check.rule.label? construct with
  | none => .error (.notGoverned construct)
  | some label => .ok ⟨check.settings.value (.construct construct), label⟩

def spacedAfterToken (check : Check) (source : SourceText) (node : Node Mark)
    (construct : Construct) (tested : Token) : Except Violation Bool :=
  if Rule.isLeading construct then
    source.spacedBefore tested.span.start check.allowLineBreaks
  else
    source.spacedAfter tested.span.stop check.allowLineBreaks
      (construct == .typeCast && node.castSpansLines)

/-- The boundary is tested even where the construct is switched off. -/
def afterFinding? (check : Check) (source : SourceText) (node : Node Mark)
    (construct : Construct) (tested : Leaf Mark) : Except Violation (Option (Finding Mark)) := do
  let policy ← check.lookup construct
  let spaced ← check.spacedAfterToken source node construct tested.token
  return if spaced && policy.enabled then
      some ⟨node.anchor, check.rule.message policy.label⟩
    else none

/-- The boundary is tested only where the construct is switched on. -/
def beforeFinding? (check : Check) (source : SourceText) (construct : Construct)
    (tested : Token) (anchor : Anchor Mark) : Except Violation (Option (Finding Mark)) := do
  let policy ← check.lookup construct
  if policy.enabled then
    let spaced ← source.spacedBefore tested.span.start check.allowLineBreaks
    return if spaced then some ⟨anchor, check.rule.message policy.label⟩ else none
  else
    return none

def visitNode (check : Check) (source : SourceText) (node : Node Mark) :
    Except Violation (Option (Finding Mark)) := do
  match ← node.tokenUnderTest? source, node.head.construct with
  | some tested, some construct =>
      match check.rule with
      | .after => check.afterFinding? source node construct tested
      | .before => check.beforeFinding? source construct tested.token tested.anchor
  | _, _ => return none

/-- A literal token is reported at the node it hangs below, unless that node lists
members. -/
def literalAnchor (parent : Option (Node Mark)) (leaf : Leaf Mark) : Anchor Mark :=
  match parent with
  | none => leaf.anchor
  | some node => if node.listsMembers then leaf.anchor else node.anchor

def visitLeaf (check : Check) (source : SourceText) (parent : Option (Node Mark))
    (leaf : Leaf Mark) : Except Violation (Option (Finding Mark)) :=
  match check.rule with
  | .after => .ok none
  | .before =>
      match literalConstruct? parent leaf.token with
      | none => .ok none
      | some construct =>
          check.beforeFinding? source construct leaf.token (literalAnchor parent leaf)

def visit (check : Check) (source : SourceText) (site : Site Mark) :
    Except Violation (Option (Finding Mark)) :=
  match site.item with
  | .leaf mark token => check.visitLeaf source site.parent ⟨mark, token⟩
  | .node mark head children => check.visitNode source ⟨mark, head, children⟩

def asksFor (check : Check) : Tree Mark → Bool
  | .leaf _ _ => check.rule.visitsTokens
  | .node _ head _ => head.construct.any check.rule.visitedConstructs.contains

end Check

/-! ## The checks of a configuration -/

namespace Config

def check (config : Config) (rule : Rule) : Check :=
  ⟨rule, config.settings rule⟩

def sortNames (names : List String) : List String :=
  (names.mergeSort fun first second => !(second < first)).eraseReps

def checks (config : Config) (chosen : Option (List String)) : Except ConfigError (List Check) :=
  match chosen with
  | none => .ok (Rule.all.map config.check)
  | some keys =>
      match keys.filter fun key => (Rule.ofKey? key).isNone with
      | [] => .ok ((Rule.all.filter fun rule => keys.contains rule.key).map config.check)
      | unknown => .error ⟨"rules", .unknownRules (sortNames unknown)⟩

end Config

end TokenSpacing
