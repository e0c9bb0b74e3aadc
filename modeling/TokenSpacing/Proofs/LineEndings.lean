import Mathlib
import TokenSpacing.Proofs.Issues

/-!
# Line endings do not matter

Two texts are alike if they differ in their line endings only, each of them one or more
breaking blanks.  No boundary test tells such texts apart, from either side, so two
sources that give every position an offset in like texts have the same issues.

Lines that keep a carriage return at their end are the case of a separator of two
characters.  Their positions reach one column further, so here one run follows from the
other, but not the other way round.
-/

namespace TokenSpacing

variable {Mark : Type}

namespace Text

def IsLineEnding (ending : List Char) : Prop :=
  ending ≠ [] ∧ ∀ c ∈ ending, c ∈ breakingBlanks

/-- Two texts with the same characters between their line endings. -/
inductive Alike : List Char → List Char → Prop
  | nil : Alike [] []
  | char (c : Char) {first second : List Char} :
      Alike first second → Alike (c :: first) (c :: second)
  | ending {before after first second : List Char} :
      IsLineEnding before → IsLineEnding after → Alike first second →
        Alike (before ++ first) (after ++ second)

namespace IsLineEnding

variable {ending : List Char}

theorem reverse (hending : IsLineEnding ending) : IsLineEnding ending.reverse := by
  simpa [IsLineEnding] using hending

theorem isBlank (hending : IsLineEnding ending) : ∀ c ∈ ending, Text.isBlank c = true :=
  fun c hc => isBlank_of_mem_breakingBlanks (hending.2 c hc)

theorem exists_cons (hending : IsLineEnding ending) :
    ∃ c rest, ending = c :: rest ∧ c ∈ breakingBlanks := by
  obtain ⟨c, rest, rfl⟩ := List.exists_cons_of_ne_nil hending.1
  exact ⟨c, rest, rfl, hending.2 c List.mem_cons_self⟩

end IsLineEnding

namespace Alike

theorem refl (text : List Char) : Alike text text := by
  induction text with
  | nil => exact .nil
  | cons c text ih => exact .char c ih

theorem append {first second third fourth : List Char} (hstart : Alike first second)
    (hend : Alike third fourth) : Alike (first ++ third) (second ++ fourth) := by
  induction hstart with
  | nil => exact hend
  | char c _ ih => exact .char c ih
  | ending hbefore hafter _ ih =>
      rw [List.append_assoc, List.append_assoc]
      exact .ending hbefore hafter ih

theorem of_endings {before after : List Char} (hbefore : IsLineEnding before)
    (hafter : IsLineEnding after) : Alike before after := by
  simpa using Alike.ending hbefore hafter .nil

theorem reverse {first second : List Char} (halike : Alike first second) :
    Alike first.reverse second.reverse := by
  induction halike with
  | nil => exact .nil
  | char c _ ih =>
      rw [List.reverse_cons, List.reverse_cons]
      exact ih.append (refl [c])
  | ending hbefore hafter _ ih =>
      rw [List.reverse_append, List.reverse_append]
      exact ih.append (of_endings hbefore.reverse hafter.reverse)

/-! ## Patterns -/

theorem dropWhile_isBlank {first second : List Char} (halike : Alike first second) :
    Alike (first.dropWhile isBlank) (second.dropWhile isBlank) := by
  induction halike with
  | nil => exact .nil
  | char c hrest ih =>
      rw [List.dropWhile_cons, List.dropWhile_cons]
      split
      · exact ih
      · exact .char c hrest
  | ending hbefore hafter _ ih =>
      rw [List.dropWhile_append_of_pos hbefore.isBlank,
        List.dropWhile_append_of_pos hafter.isBlank]
      exact ih

theorem dropWhile_isWord {first second : List Char} (halike : Alike first second) :
    Alike (first.dropWhile isWord) (second.dropWhile isWord) := by
  have hstops : ∀ {ending rest : List Char}, IsLineEnding ending →
      (ending ++ rest).dropWhile isWord = ending ++ rest := by
    intro ending rest hending
    obtain ⟨c, tail, rfl, hc⟩ := hending.exists_cons
    have hword : isWord c = false := by
      refine eq_false_of_ne_true fun hword => ?_
      have hblank := isBlank_of_isWord hword
      rw [isBlank_of_mem_breakingBlanks hc] at hblank
      contradiction
    simp [hword]
  induction halike with
  | nil => exact .nil
  | char c hrest ih =>
      rw [List.dropWhile_cons, List.dropWhile_cons]
      split
      · exact ih
      · exact .char c hrest
  | ending hbefore hafter hrest _ =>
      rw [hstops hbefore, hstops hafter]
      exact .ending hbefore hafter hrest

end Alike

end Text

namespace Pattern

open Text

theorem opens_lineEnding (pattern : Pattern) {ending : List Char} (rest : List Char)
    (hending : IsLineEnding ending) :
    pattern.opens (ending ++ rest) = (pattern != .annotationMark) := by
  obtain ⟨c, tail, rfl, hc⟩ := hending.exists_cons
  have hblank := isBlank_of_mem_breakingBlanks hc
  have hbreak := (isLineBreak_iff c).mpr (.inl hc)
  have hat : c ≠ '@' := by
    rintro rfl
    exact absurd hc (by decide)
  cases pattern <;> simp [opens, hblank, hbreak, hat]

theorem opens_of_alike (pattern : Pattern) {first second : List Char}
    (halike : Alike first second) : pattern.opens first = pattern.opens second := by
  cases halike with
  | nil => rfl
  | char c _ => cases pattern <;> rfl
  | ending hbefore hafter _ =>
      rw [opens_lineEnding pattern _ hbefore, opens_lineEnding pattern _ hafter]

theorem closesLineBreak_of_alike {first second : List Char} (halike : Alike first second) :
    closesLineBreak first = closesLineBreak second := by
  have hending : ∀ {ending rest : List Char}, IsLineEnding ending →
      closesLineBreak (ending ++ rest) = true := by
    intro ending rest hending
    obtain ⟨c, tail, rfl, hc⟩ := hending.exists_cons
    simp [closesLineBreak, (isLineBreak_iff c).mpr (.inl hc)]
  induction halike with
  | nil => rfl
  | char c _ ih => simp [closesLineBreak, ih]
  | ending hbefore hafter _ _ => rw [hending hbefore, hending hafter]

theorem closes_of_alike (pattern : Pattern) {first second : List Char}
    (halike : Alike first second) : pattern.closes first = pattern.closes second := by
  cases pattern with
  | whitespace => exact opens_of_alike .whitespace halike
  | lineBreak => exact closesLineBreak_of_alike halike
  | annotationMark =>
      exact opens_of_alike .annotationMark halike.dropWhile_isBlank.dropWhile_isWord

end Pattern

/-! ## Sources that cannot be told apart -/

/-- Every position with an offset in the first source has one in the second, and all
boundary tests agree there. -/
def SourceText.Follows (second first : SourceText) : Prop :=
  ∀ position offset, first.offsetOf position = .ok offset →
    ∃ other, second.offsetOf position = .ok other ∧
      ∀ side pattern, second.touches other side pattern = first.touches offset side pattern

namespace SourceText.Follows

variable {first second : SourceText}

theorem arrayTypeBracket? (hfollows : second.Follows first) {node : Node Mark}
    {found : Option (Leaf Mark)} (hfound : node.arrayTypeBracket? first = .ok found) :
    node.arrayTypeBracket? second = .ok found := by
  unfold Node.arrayTypeBracket? at *
  split at hfound
  · exact hfound
  next bracket hbracket =>
    split at hfound
    next hmarked =>
      rw [if_pos hmarked]
      exact hfound
    next hplain =>
      rw [if_neg hplain]
      obtain ⟨offset, hoffset, hchosen⟩ := bind_eq_ok_iff.mp hfound
      obtain ⟨other, hother, hsame⟩ := hfollows _ offset hoffset
      refine bind_eq_ok_iff.mpr ⟨other, hother, ?_⟩
      rw [hsame]
      exact hchosen

theorem tokenUnderTest? (hfollows : second.Follows first) {node : Node Mark}
    {found : Option (Leaf Mark)} (hfound : node.tokenUnderTest? first = .ok found) :
    node.tokenUnderTest? second = .ok found := by
  unfold Node.tokenUnderTest? at *
  split at hfound
  case h_3 => exact hfollows.arrayTypeBracket? hfound
  all_goals exact hfound

theorem probe? (hfollows : second.Follows first) {rule : Rule} {site : Site Mark}
    {chosen : Option (Probe Mark)} (hchosen : rule.probe? first site = .ok chosen) :
    rule.probe? second site = .ok chosen := by
  unfold Rule.probe? at *
  split at hchosen
  next => exact hchosen
  next =>
    split at hchosen
    · exact hchosen
    · obtain ⟨tested, htested, hprobe⟩ := bind_eq_ok_iff.mp hchosen
      exact bind_eq_ok_iff.mpr ⟨tested, hfollows.tokenUnderTest? htested, hprobe⟩

theorem spaced (hfollows : second.Follows first) {probe : Probe Mark}
    {allowLineBreaks counts : Bool}
    (hspaced : probe.spaced first allowLineBreaks = .ok counts) :
    probe.spaced second allowLineBreaks = .ok counts := by
  obtain ⟨offset, hoffset, hcounts⟩ := bind_eq_ok_iff.mp hspaced
  obtain ⟨other, hother, hsame⟩ := hfollows _ offset hoffset
  refine bind_eq_ok_iff.mpr ⟨other, hother, ?_⟩
  rw [hsame, hsame]
  exact hcounts

theorem verdict (hfollows : second.Follows first) {check : Check}
    {chosen : Option (Probe Mark)} {found : Option (Finding Mark)}
    (hfound : check.verdict first chosen = .ok found) :
    check.verdict second chosen = .ok found := by
  cases chosen with
  | none => exact hfound
  | some probe =>
      simp only [Check.verdict, Check.judge] at *
      split at hfound
      next htests =>
        rw [if_pos htests]
        obtain ⟨counts, hcounts, hresult⟩ := bind_eq_ok_iff.mp hfound
        exact bind_eq_ok_iff.mpr ⟨counts, hfollows.spaced hcounts, hresult⟩
      next htests =>
        rw [if_neg htests]
        exact hfound

theorem respond (hfollows : second.Follows first) {check : Check} {site : Site Mark}
    {found : Option (Finding Mark)} (hfound : check.respond first site = .ok found) :
    check.respond second site = .ok found := by
  rw [Check.respond_eq_verdict, bind_eq_ok_iff] at *
  obtain ⟨chosen, hchosen, hverdict⟩ := hfound
  exact ⟨chosen, hfollows.probe? hchosen, hfollows.verdict hverdict⟩

theorem clear (hfollows : second.Follows first) {check : Check} {site : Site Mark}
    (hclear : check.Clear first site) : check.Clear second site := by
  obtain ⟨found, hfound⟩ := hclear
  exact ⟨found, hfollows.respond hfound⟩

theorem found? (hfollows : second.Follows first) {check : Check} {site : Site Mark}
    (hclear : check.Clear first site) : check.found? second site = check.found? first site := by
  obtain ⟨found, hfound⟩ := hclear
  rw [Check.found?_of_respond hfound, Check.found?_of_respond (hfollows.respond hfound)]

end SourceText.Follows

namespace SourceUnit

variable {unit other : SourceUnit Mark} {checks : List Check}

theorem scan_of_follows {passes : List (Pass Mark)} (hroot : other.root = unit.root)
    (hfollows : other.source.Follows unit.source) (hscan : unit.scan checks = .ok passes) :
    other.scan checks = .ok passes := by
  obtain ⟨hclear, rfl⟩ := scan_eq_ok_iff.mp hscan
  rw [scan_eq_ok_iff, hroot]
  constructor
  · intro check hcheck site hsite
    exact hfollows.clear (hclear check hcheck site hsite)
  · refine List.map_congr_left fun check hcheck => ?_
    have hfound : ∀ site ∈ unit.root.sites none,
        check.found? unit.source site = check.found? other.source site :=
      fun site hsite => (hfollows.found? (hclear check hcheck site hsite)).symm
    rw [List.filterMap_congr hfound]

theorem issues_of_follows {issues : List Issue} (hissues : unit.issues checks = .ok issues)
    (hfollows : other.source.Follows unit.source) (hroot : other.root = unit.root)
    (hfile : other.file = unit.file) : other.issues checks = .ok issues := by
  obtain ⟨passes, hscan, hsorted⟩ := bind_eq_ok_iff.mp hissues
  refine bind_eq_ok_iff.mpr ⟨passes, scan_of_follows hroot hfollows hscan, ?_⟩
  rw [hfile]
  exact hsorted

end SourceUnit

/-! ## Separators -/

theorem Text.Alike.flatMap {change other : List Char → List Char} (lines : List (List Char))
    (hlines : ∀ line, Alike (change line) (other line)) :
    Alike (lines.flatMap change) (lines.flatMap other) := by
  induction lines with
  | nil => exact .nil
  | cons line lines ih =>
      rw [List.flatMap_cons, List.flatMap_cons]
      exact (hlines line).append ih

section Separators

open Text

variable {first second : List Char}

theorem Position.alike_textBefore (lines : List (List Char)) (position : Position)
    (hfirst : IsLineEnding first) (hsecond : IsLineEnding second) :
    Alike (position.textBefore lines first) (position.textBefore lines second) :=
  .append (.flatMap _ fun line => .append (.refl line) (.of_endings hfirst hsecond)) (.refl _)

theorem Position.alike_textAfter (lines : List (List Char)) (position : Position)
    (hfirst : IsLineEnding first) (hsecond : IsLineEnding second) :
    Alike (position.textAfter lines first) (position.textAfter lines second) :=
  .append (.refl _) (.flatMap _ fun line => .append (.of_endings hfirst hsecond) (.refl line))

theorem SourceText.follows_ofLines (lines : List (List Char)) (hfirst : IsLineEnding first)
    (hsecond : IsLineEnding second) : (ofLines lines second).Follows (ofLines lines first) := by
  intro position offset hoffset
  have hother := offsetOf_of_inside second (inside_of_offsetOf hoffset)
  refine ⟨_, hother, fun side pattern => ?_⟩
  cases side with
  | left =>
      rw [touches, touches, leftOf_offset hother, leftOf_offset hoffset]
      exact pattern.closes_of_alike (position.alike_textBefore lines hsecond hfirst).reverse
  | right =>
      rw [touches, touches, rightOf_offset hother, rightOf_offset hoffset]
      exact pattern.opens_of_alike (position.alike_textAfter lines hsecond hfirst)

end Separators

/-! ## Carriage returns at the ends of lines -/

/-- The lines of a text that breaks lines with a carriage return and a line feed, split at
its line feeds. -/
def keepReturns : List (List Char) → List (List Char)
  | [] => []
  | [line] => [line]
  | line :: next :: rest => (line ++ ['\r']) :: keepReturns (next :: rest)

theorem length_keepReturns (lines : List (List Char)) :
    (keepReturns lines).length = lines.length := by
  fun_induction keepReturns lines <;> simp_all

theorem joinLines_keepReturns (lines : List (List Char)) :
    joinLines ['\n'] (keepReturns lines) = joinLines ['\r', '\n'] lines := by
  fun_induction keepReturns lines with
  | case1 => rfl
  | case2 line => rfl
  | case3 line next rest ih =>
      have hlength := length_keepReturns (next :: rest)
      cases hkept : keepReturns (next :: rest) with
      | nil => simp [hkept] at hlength
      | cons first others =>
          rw [hkept] at ih
          simp [joinLines, ih]

theorem getD_keepReturns (lines : List (List Char)) (row : Nat) :
    ∃ kept, (keepReturns lines).getD row [] = lines.getD row [] ++ kept := by
  fun_induction keepReturns lines generalizing row with
  | case1 => exact ⟨[], by simp⟩
  | case2 line => exact ⟨[], by simp⟩
  | case3 line next rest ih =>
      cases row with
      | zero => exact ⟨['\r'], rfl⟩
      | succ row => exact ih row

namespace SourceText

theorem atLeastOneLine_keepReturns (lines : List (List Char)) :
    atLeastOneLine (keepReturns lines) = keepReturns (atLeastOneLine lines) := by
  fun_cases keepReturns lines <;> rfl

theorem take_keepReturns (lines : List (List Char)) {row : Nat}
    (hrow : row < (atLeastOneLine lines).length) :
    (keepReturns lines).take row = (lines.take row).map (· ++ ['\r']) := by
  fun_induction keepReturns lines generalizing row with
  | case1 => simp
  | case2 line =>
      have hzero : row = 0 := by simpa [atLeastOneLine] using hrow
      simp [hzero]
  | case3 line next rest ih =>
      cases row with
      | zero => simp
      | succ row =>
          have hrest : row < (atLeastOneLine (next :: rest)).length := by
            simpa [atLeastOneLine] using hrow
          simp [ih hrest]

end SourceText

namespace Position

variable {lines : List (List Char)} {position : Position}

theorem inside_keepReturns (hinside : position.Inside lines) :
    position.Inside (keepReturns lines) := by
  obtain ⟨⟨hfirst, hlast⟩, hleft, hright⟩ := hinside
  obtain ⟨kept, hkept⟩ := getD_keepReturns lines position.row
  refine ⟨⟨hfirst, ?_⟩, hleft, ?_⟩
  · rw [SourceText.atLeastOneLine_keepReturns, length_keepReturns]
    exact hlast
  · rw [hkept, List.length_append]
    omega

theorem textBefore_keepReturns (hinside : position.Inside lines) :
    position.textBefore (keepReturns lines) ['\n'] =
      position.textBefore lines ['\r', '\n'] := by
  have hrow := row_lt_of_inside hinside
  have hindent : position.indent ≤ (lines.getD position.row []).length := by
    obtain ⟨-, hleft, hright⟩ := hinside
    unfold indent
    omega
  obtain ⟨kept, hkept⟩ := getD_keepReturns lines position.row
  rw [textBefore, textBefore, SourceText.take_keepReturns lines hrow, hkept,
    List.take_append_of_le_length hindent, List.flatMap_map]
  simp

end Position

theorem SourceText.follows_keepReturns (lines : List (List Char)) :
    (ofLines (keepReturns lines) ['\n']).Follows (ofLines lines ['\r', '\n']) := by
  have htext : (ofLines (keepReturns lines) ['\n']).text = (ofLines lines ['\r', '\n']).text := by
    simp only [ofLines, atLeastOneLine_keepReturns, joinLines_keepReturns]
  intro position offset hoffset
  obtain ⟨hinside, rfl⟩ := offsetOf_eq_ok_iff.mp hoffset
  have hother := offsetOf_of_inside ['\n'] (Position.inside_keepReturns hinside)
  rw [Position.textBefore_keepReturns hinside] at hother
  refine ⟨_, hother, fun side pattern => ?_⟩
  cases side <;> simp only [touches, leftOf, rightOf, htext]

namespace SourceUnit

variable {unit : SourceUnit Mark} {checks : List Check}

theorem issues_of_lineEnding {first second : List Char} {issues : List Issue}
    (hfirst : Text.IsLineEnding first) (hsecond : Text.IsLineEnding second)
    (hissues : { unit with separator := first }.issues checks = .ok issues) :
    { unit with separator := second }.issues checks = .ok issues :=
  issues_of_follows hissues (SourceText.follows_ofLines unit.lines hfirst hsecond) rfl rfl

/-- Every line ending gives the same issues, or a violation in all cases.  What is returned
for lines that end in line feeds is also returned if carriage returns stand in front of
them. -/
theorem issues_line_endings (unit : SourceUnit Mark) (checks : List Check) :
    (∀ first second, Text.IsLineEnding first → Text.IsLineEnding second →
      ({ unit with separator := first }.issues checks).toOption =
        ({ unit with separator := second }.issues checks).toOption) ∧
      ∀ issues, { unit with separator := ['\n'] }.issues checks = .ok issues →
        { unit with lines := keepReturns unit.lines, separator := ['\n'] }.issues checks =
          .ok issues := by
  constructor
  · intro first second hfirst hsecond
    refine toOption_congr fun issues => ?_
    exact ⟨issues_of_lineEnding hfirst hsecond, issues_of_lineEnding hsecond hfirst⟩
  · intro issues hissues
    have hfeed : Text.IsLineEnding ['\n'] := by
      simp [Text.IsLineEnding, Text.breakingBlanks]
    have hreturn : Text.IsLineEnding ['\r', '\n'] := by
      simp [Text.IsLineEnding, Text.breakingBlanks]
    exact issues_of_follows (issues_of_lineEnding hfeed hreturn hissues)
      (SourceText.follows_keepReturns unit.lines) rfl rfl

def brokenDimensions : SourceUnit Nat :=
  let token (mark : Nat) (text : String) (line first last : Int) : Tree Nat :=
    .leaf mark ⟨text, "Broken.java", ⟨line, first⟩, ⟨line, last⟩⟩
  ⟨"Broken.java", ["int @A".toList, [], " [ ]".toList, ";".toList], ['\n'],
    .node 0 ⟨"program", none, "Broken.java", ⟨1, 1⟩, ⟨4, 2⟩⟩
      [.node 1 ⟨"array_type", some .arrayType, "Broken.java", ⟨1, 1⟩, ⟨3, 5⟩⟩
         [token 2 "int" 1 1 4, token 3 "[" 3 2 3, token 4 "]" 3 4 5],
       token 5 ";" 4 1 2]⟩

def strictChecks : List Check :=
  Rule.all.map fun rule => ⟨rule, (Settings.default rule).set .allowLineBreaks false⟩

def brokenIssues : List Issue :=
  [⟨.before, "Broken.java", ⟨4, 1⟩, "';' is preceded by whitespace."⟩]

theorem issues_brokenDimensions :
    (Text.IsLineEnding ['\r', '\x0b'] ∧ Text.IsLineEnding ['\n']) ∧
      ({ brokenDimensions with separator := ['\r', '\x0b'] }.issues strictChecks).toOption =
        some brokenIssues ∧
      { brokenDimensions with lines := keepReturns brokenDimensions.lines }.issues strictChecks =
        .ok brokenIssues := by
  have hfirst : Text.IsLineEnding ['\r', '\x0b'] := by
    simp [Text.IsLineEnding, Text.breakingBlanks]
  have hsecond : Text.IsLineEnding ['\n'] := by
    simp [Text.IsLineEnding, Text.breakingBlanks]
  have hissues : { brokenDimensions with separator := ['\n'] }.issues strictChecks =
      .ok brokenIssues := by
    cbv
  obtain ⟨hsame, hreturns⟩ := issues_line_endings brokenDimensions strictChecks
  have hother := hsame _ _ hfirst hsecond
  rw [hissues] at hother
  exact ⟨⟨hfirst, hsecond⟩, hother, hreturns brokenIssues hissues⟩

end SourceUnit

end TokenSpacing
