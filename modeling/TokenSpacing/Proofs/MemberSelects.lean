import TokenSpacing.Proofs.Safety

/-!
# Dots of member selects

The rule for white space after a token tests one dot of a member select, the first one
directly below it.  A blank behind that dot is always reported.  A blank behind a later
dot goes with the verdict on the first one: it is missed where no white space that counts
follows the first dot.
-/

namespace TokenSpacing

variable {Mark : Type}

namespace SourceUnit

def SpacedBehind (unit : SourceUnit Mark) (settings : Settings) (token : Token) : Prop :=
  SpacedAtStart (token.span.stop.textAfter unit.lines unit.separator)
    (settings.value .allowLineBreaks) False

def BlankBehind (unit : SourceUnit Mark) (token : Token) : Prop :=
  ∃ c ∈ (token.span.stop.textAfter unit.lines unit.separator).head?, c = ' ' ∨ c = '\t'

theorem BlankBehind.spaced {unit : SourceUnit Mark} {token : Token}
    (hblank : unit.BlankBehind token) (settings : Settings) :
    unit.SpacedBehind settings token := by
  obtain ⟨c, hc, hspace⟩ := hblank
  refine .inr ⟨?_, c, hc, ?_⟩
  · rintro (hfalse | ⟨other, hother, hbreak⟩)
    · exact hfalse
    · obtain rfl := Option.some.inj (hc.symm.trans hother)
      rcases hspace with rfl | rfl
      · exact absurd hbreak (by decide)
      · exact absurd hbreak (by decide)
  · rcases hspace with rfl | rfl <;> decide

end SourceUnit

namespace Node

/-- One of the earlier children is the dot under test, and no white space that counts
follows it. -/
def TightDotAmong (node : Node Mark) (unit : SourceUnit Mark) (settings : Settings)
    (earlier : List (Tree Mark)) : Prop :=
  ∃ first, node.FirstSpelled "." first ∧ Tree.leaf first.mark first.token ∈ earlier ∧
    ¬unit.SpacedBehind settings first.token

theorem FirstSpelled.unique {node : Node Mark} {text : String} {first second : Leaf Mark}
    (hfirst : node.FirstSpelled text first) (hsecond : node.FirstSpelled text second) :
    first = second :=
  Option.some.inj ((token?_eq_some_iff.mpr hfirst).symm.trans (token?_eq_some_iff.mpr hsecond))

theorem exists_firstSpelled {node : Node Mark} {earlier later : List (Tree Mark)} {mark : Mark}
    {token : Token} (hchildren : node.children = earlier ++ .leaf mark token :: later) :
    ∃ first, node.FirstSpelled token.text first ∧
      (first = ⟨mark, token⟩ ∨ Tree.leaf first.mark first.token ∈ earlier) := by
  cases hfind : earlier.find? (·.isToken token.text) with
  | none =>
      refine ⟨⟨mark, token⟩, ⟨earlier, later, hchildren, rfl, ?_⟩, .inl rfl⟩
      simpa using List.find?_eq_none.mp hfind
  | some item =>
      obtain ⟨hitem, before, after, rfl, hbefore⟩ := List.find?_eq_some_iff_append.mp hfind
      cases item with
      | leaf firstMark first =>
          refine ⟨⟨firstMark, first⟩, ⟨before, after ++ .leaf mark token :: later, ?_, ?_, ?_⟩,
            .inr (by simp)⟩
          · simpa using hchildren
          · simpa [Tree.isToken] using hitem
          · simpa using hbefore
      | node firstMark head children => cases hitem

end Node

/-! ## What is reported at a member select -/

theorem offendsAfter_memberSelect_iff {unit : SourceUnit Mark} {settings : Settings}
    {node : Node Mark} (htagged : node.head.construct = some .memberSelect)
    (hon : settings.value (.construct .memberSelect) = true) (finding : Finding Mark) :
    (∃ construct label tested, OffendsAfter unit settings node construct label tested ∧
        finding = ⟨node.anchor, "'" ++ label ++ "' is followed by whitespace."⟩) ↔
      finding = ⟨node.anchor, "'.' is followed by whitespace."⟩ ∧
        ∃ first, node.FirstSpelled "." first ∧ unit.SpacedBehind settings first.token := by
  have hspaced : ∀ tested : Token,
      node.SpacedAfter unit (settings.value .allowLineBreaks) .memberSelect tested ↔
        unit.SpacedBehind settings tested := by
    intro tested
    simp [Node.SpacedAfter, SourceUnit.SpacedBehind]
  constructor
  · rintro ⟨construct, label, tested, hoffends, rfl⟩
    obtain rfl := Option.some.inj (htagged.symm.trans hoffends.tagged)
    cases hoffends.governed
    exact ⟨rfl, tested, hoffends.chosen, (hspaced _).mp hoffends.spaced⟩
  · rintro ⟨rfl, first, hfirst, hbehind⟩
    exact ⟨.memberSelect, ".", first,
      ⟨htagged, .memberSelect, hon, hfirst, by simp, (hspaced _).mpr hbehind⟩, rfl⟩

theorem missed_iff_tightDot {unit : SourceUnit Mark} {settings : Settings} {node : Node Mark}
    {found : Option (Finding Mark)}
    (hfound : ∀ finding, found = some finding ↔
      finding = ⟨node.anchor, "'.' is followed by whitespace."⟩ ∧
        ∃ first, node.FirstSpelled "." first ∧ unit.SpacedBehind settings first.token)
    {earlier later : List (Tree Mark)} {mark : Mark} {token : Token}
    (hchildren : node.children = earlier ++ .leaf mark token :: later)
    (htext : token.text = ".") (hblank : unit.BlankBehind token) :
    found = none ↔ node.TightDotAmong unit settings earlier := by
  obtain ⟨first, hfirst, hplace⟩ := Node.exists_firstSpelled hchildren
  rw [htext] at hfirst
  constructor
  · rintro rfl
    have htight : ¬unit.SpacedBehind settings first.token := by
      intro hspaced
      exact nomatch (hfound _).mpr ⟨rfl, first, hfirst, hspaced⟩
    rcases hplace with rfl | hearlier
    · exact absurd (hblank.spaced settings) htight
    · exact ⟨first, hfirst, hearlier, htight⟩
  · rintro ⟨other, hother, -, htight⟩
    rw [Option.eq_none_iff_forall_ne_some]
    intro finding hsome
    obtain ⟨-, tested, htested, hspaced⟩ := (hfound finding).mp hsome
    rw [htested.unique hother] at hspaced
    exact htight hspaced

/--
A scan of a tree with valid token positions succeeds.  A member select is reported if
white space that counts follows its first dot.  So a blank behind any of its dots is
reported, unless an earlier dot is the first one and has no such white space behind it.
-/
theorem memberSelect_dots_exact (unit : SourceUnit Mark) (settings : Settings)
    (hinside : ∀ token ∈ unit.root.tokens,
      token.span.start.Inside unit.lines ∧ token.span.stop.Inside unit.lines)
    (hon : settings.value (.construct .memberSelect) = true) :
    ∃ report : Site Mark → Option (Finding Mark),
      unit.scan [⟨.after, settings⟩] =
        .ok [⟨⟨.after, settings⟩, (unit.root.sites none).filterMap report⟩] ∧
      ∀ parent (node : Node Mark), ⟨parent, node.toTree⟩ ∈ unit.root.sites none →
        node.head.construct = some .memberSelect →
        (∀ finding, report ⟨parent, node.toTree⟩ = some finding ↔
          finding = ⟨node.anchor, "'.' is followed by whitespace."⟩ ∧
            ∃ first, node.FirstSpelled "." first ∧ unit.SpacedBehind settings first.token) ∧
        ∀ earlier mark token later, node.children = earlier ++ .leaf mark token :: later →
          token.text = "." → unit.BlankBehind token →
          (report ⟨parent, node.toTree⟩ = none ↔
            node.TightDotAmong unit settings earlier) := by
  have htokens : unit.root.TokensInside unit.source := by
    intro token htoken
    obtain ⟨hstart, hstop⟩ := hinside token htoken
    exact ⟨⟨_, SourceText.offsetOf_of_inside unit.separator hstart⟩,
      ⟨_, SourceText.offsetOf_of_inside unit.separator hstop⟩⟩
  have hclear : ∀ site ∈ unit.root.sites none,
      (⟨.after, settings⟩ : Check).Clear unit.source site :=
    fun site hsite => Check.clear_of_tokensInside _ htokens hsite
  refine ⟨(⟨.after, settings⟩ : Check).found? unit.source,
    SourceUnit.scan_eq_ok_iff.mpr ⟨by simpa using hclear, rfl⟩, ?_⟩
  intro parent node hsite htagged
  have hfound := fun finding => (Check.found?_after_node_iff (hclear _ hsite) finding).trans
    (offendsAfter_memberSelect_iff htagged hon finding)
  refine ⟨hfound, ?_⟩
  intro earlier mark token later hchildren htext hblank
  exact missed_iff_tightDot hfound hchildren htext hblank

def superCall : Node Nat :=
  let span (start stop : Int) : Span := ⟨"Call.java", ⟨1, start⟩, ⟨1, stop⟩⟩
  let token (mark : Nat) (text : String) (start stop : Int) : Tree Nat :=
    .leaf mark ⟨text, span start stop⟩
  ⟨0, ⟨"method_invocation", some .memberSelect, span 1 13⟩,
    [token 1 "A" 1 2, token 2 "." 2 3, token 3 "super" 3 8, token 4 "." 8 9, token 5 "f" 10 11,
     .node 6 ⟨"argument_list", none, span 11 13⟩ [token 7 "(" 11 12, token 8 ")" 12 13]]⟩

def superCallUnit : SourceUnit Nat :=
  ⟨"Call.java", ["A.super. f()".toList], ['\n'], superCall.toTree⟩

def superCallDot : Token :=
  ⟨".", "Call.java", ⟨1, 8⟩, ⟨1, 9⟩⟩

theorem superCall_inside : ∀ token ∈ superCallUnit.root.tokens,
    token.span.start.Inside superCallUnit.lines ∧ token.span.stop.Inside superCallUnit.lines := by
  decide

theorem superCall_blankBehind : superCallUnit.BlankBehind superCallDot :=
  ⟨' ', by decide, .inl rfl⟩

theorem memberSelect_dots_superCall :
    (∀ token ∈ superCallUnit.root.tokens, token.span.start.Inside superCallUnit.lines ∧
        token.span.stop.Inside superCallUnit.lines) ∧
      (Settings.default .after).value (.construct .memberSelect) = true ∧
      superCallUnit.BlankBehind superCallDot ∧
      superCall.TightDotAmong superCallUnit (Settings.default .after)
        (superCall.children.take 3) := by
  have hsite : ⟨none, superCall.toTree⟩ ∈ superCallUnit.root.sites none := List.mem_cons_self
  obtain ⟨report, hscan, hreport⟩ := memberSelect_dots_exact superCallUnit
    (Settings.default .after) superCall_inside (by decide)
  obtain ⟨-, hdots⟩ := hreport none superCall hsite rfl
  refine ⟨superCall_inside, by decide, superCall_blankBehind, ?_⟩
  refine (hdots _ 4 superCallDot _ rfl rfl superCall_blankBehind).mp ?_
  have hnothing : superCallUnit.scan [⟨.after, Settings.default .after⟩] =
      .ok [⟨⟨.after, Settings.default .after⟩, []⟩] := by rfl
  have hempty : (superCallUnit.root.sites none).filterMap report = [] := by
    rw [hnothing] at hscan
    simpa using hscan.symm
  exact List.filterMap_eq_nil_iff.mp hempty _ hsite

/-- A dot of a member select can be missed. -/
theorem superCall_dot_missed :
    (∀ token ∈ superCallUnit.root.tokens, token.span.start.Inside superCallUnit.lines ∧
        token.span.stop.Inside superCallUnit.lines) ∧
      (Settings.default .after).value (.construct .memberSelect) = true ∧
      superCall.head.construct = some .memberSelect ∧
      Tree.leaf 4 superCallDot ∈ superCall.children ∧ superCallDot.text = "." ∧
      superCallUnit.BlankBehind superCallDot ∧
      superCallUnit.scan [Check.default .after] = .ok [⟨Check.default .after, []⟩] :=
  ⟨superCall_inside, by decide, rfl, by simp [superCall, superCallDot], rfl,
    superCall_blankBehind, rfl⟩

end TokenSpacing
