import Mathlib.Data.Multiset.AddSub
import Mathlib.Order.Bounds.Basic
import TokenSpacing.Fixture.Verification
import TokenSpacing.Proofs.Scanning

/-!
# Verification decides a matching

Expectations are served one by one, and none is reconsidered.  This loses nothing, since
expectations with a message come first: what such an expectation accepts is all alike,
and a later one without a message accepts everything on its line.  So the missing
expectations and the unexpected observations are what a largest matching leaves over,
and a fixture passes exactly where all expectations and all observations can be paired.
-/

namespace TokenSpacing

namespace Expectation

/-! ## Matchings -/

structure MetBy (expectation : Expectation) (observation : Observation) : Prop where
  line : observation.line = expectation.line
  message : ∀ message ∈ expectation.message, observation.message = message

/-- Some of the expectations and some of the observations can be paired one to one. -/
def HasMatching (expected : Multiset Expectation) (observed : Multiset Observation)
    (size : Nat) : Prop :=
  ∃ met ≤ expected, ∃ taken ≤ observed, Multiset.Rel MetBy met taken ∧ met.card = size

theorem rel_iff_hasMatching {expected : Multiset Expectation} {observed : Multiset Observation} :
    Multiset.Rel MetBy expected observed ↔
      HasMatching expected observed expected.card ∧ observed.card = expected.card := by
  constructor
  · intro hall
    exact ⟨⟨expected, le_rfl, observed, le_rfl, hall, rfl⟩,
      (Multiset.card_eq_card_of_rel hall).symm⟩
  · rintro ⟨⟨met, hmet, taken, htaken, hpaired, hsize⟩, hcard⟩
    have hsame := Multiset.card_eq_card_of_rel hpaired
    obtain rfl := Multiset.eq_of_le_of_card_le hmet hsize.ge
    obtain rfl := Multiset.eq_of_le_of_card_le htaken (by omega)
    exact hpaired

/-! ## One expectation -/

variable {expectation : Expectation}

theorem accepts_iff {observation : Observation} :
    expectation.accepts observation = true ↔ expectation.MetBy observation := by
  rw [accepts, Bool.and_eq_true, Bool.or_eq_true, beq_iff_eq, beq_iff_eq]
  constructor
  · rintro ⟨hline, hmessage⟩
    refine ⟨hline.symm, fun message hmem => ?_⟩
    rw [Option.mem_def] at hmem
    simpa [hmem, eq_comm] using hmessage
  · rintro ⟨hline, hmessage⟩
    refine ⟨hline.symm, ?_⟩
    cases hexpected : expectation.message with
    | none => simp
    | some message => simp [hmessage message hexpected]

theorem take?_eq_some {pool rest : List Observation} (htake : expectation.take? pool = some rest) :
    ∃ first, expectation.MetBy first ∧ (pool : Multiset Observation) = first ::ₘ rest := by
  induction pool generalizing rest with
  | nil => cases htake
  | cons first pool ih =>
      rw [take?] at htake
      split at htake
      next haccepts =>
        cases htake
        exact ⟨first, accepts_iff.mp haccepts, by simp⟩
      next =>
        obtain ⟨later, hlater, rfl⟩ := Option.map_eq_some_iff.mp htake
        obtain ⟨taken, hmet, hpool⟩ := ih hlater
        refine ⟨taken, hmet, ?_⟩
        rw [← Multiset.cons_coe, hpool, ← Multiset.cons_coe, Multiset.cons_swap]

theorem take?_eq_none {pool : List Observation} (htake : expectation.take? pool = none) :
    ∀ observation ∈ pool, ¬ expectation.MetBy observation := by
  induction pool with
  | nil => simp
  | cons first pool ih =>
      rw [take?] at htake
      split at htake
      next => cases htake
      next hrejects =>
        have hrest := ih (Option.map_eq_none_iff.mp htake)
        exact List.forall_mem_cons.mpr ⟨fun hmet => hrejects (accepts_iff.mpr hmet), hrest⟩

/-! ## Exchange -/

/-- All that the first expectation accepts is alike to the second: it accepts all of it or
nothing. -/
def Yields (first second : Expectation) : Prop :=
  ∀ one other, first.MetBy one → first.MetBy other → second.MetBy one → second.MetBy other

theorem yields_of_message {first second : Expectation}
    (hkinds : first.message.isSome ∨ second.message.isNone) : first.Yields second := by
  intro one other hone hother hsecond
  have hline : other.line = second.line := by
    rw [hother.line, ← hone.line, hsecond.line]
  refine ⟨hline, fun message hmessage => ?_⟩
  rcases hkinds with hsome | hnone
  · obtain ⟨expected, hexpected⟩ := Option.isSome_iff_exists.mp hsome
    rw [hother.message expected hexpected, ← hone.message expected hexpected,
      hsecond.message message hmessage]
  · rw [Option.isNone_iff_eq_none.mp hnone] at hmessage
    cases hmessage

theorem pairwise_yields_exactFirst (expected : List Expectation) :
    (exactFirst expected).Pairwise Yields := by
  rw [exactFirst, List.pairwise_append]
  refine ⟨?_, ?_, ?_⟩
  · refine List.pairwise_of_forall_mem_list fun first hfirst second _ => ?_
    exact yields_of_message (.inl (List.mem_filter.mp hfirst).2)
  · refine List.pairwise_of_forall_mem_list fun first _ second hsecond => ?_
    exact yields_of_message (.inr (List.mem_filter.mp hsecond).2)
  · intro first hfirst second _
    exact yields_of_message (.inl (List.mem_filter.mp hfirst).2)

variable {expected : Multiset Expectation} {observed : Multiset Observation} {size : Nat}

theorem HasMatching.of_unmet (hmatching : HasMatching (expectation ::ₘ expected) observed size)
    (hunmet : ∀ observation ∈ observed, ¬ expectation.MetBy observation) :
    HasMatching expected observed size := by
  obtain ⟨met, hmet, taken, htaken, hpaired, hsize⟩ := hmatching
  have habsent : expectation ∉ met := by
    intro hmem
    obtain ⟨others, rfl⟩ := Multiset.exists_cons_of_mem hmem
    obtain ⟨observation, rest, hmeets, -, rfl⟩ := Multiset.rel_cons_left.mp hpaired
    exact hunmet observation (Multiset.mem_of_le htaken (Multiset.mem_cons_self _ _)) hmeets
  exact ⟨met, (Multiset.le_cons_of_notMem habsent).mp hmet, taken, htaken, hpaired, hsize⟩

theorem rel_of_rel_cons {observation : Observation}
    (hpaired : Multiset.Rel MetBy (expectation ::ₘ expected) (observation ::ₘ observed))
    (hmeets : expectation.MetBy observation)
    (hyields : ∀ later ∈ expected, expectation.Yields later) :
    Multiset.Rel MetBy expected observed := by
  obtain ⟨given, rest, hgiven, hrest, hsame⟩ := Multiset.rel_cons_left.mp hpaired
  rcases Multiset.cons_eq_cons.mp hsame with ⟨-, rfl⟩ | ⟨-, common, rfl, rfl⟩
  · exact hrest
  · obtain ⟨later, others, hlater, hcommon, rfl⟩ := Multiset.rel_cons_right.mp hrest
    have hlaterYields := hyields later (Multiset.mem_cons_self _ _)
    exact .cons (hlaterYields observation given hmeets hgiven hlater) hcommon

/-- Serving an expectation first costs a matching at most one pair. -/
theorem HasMatching.of_served {observation : Observation}
    (hmatching : HasMatching (expectation ::ₘ expected) (observation ::ₘ observed) size)
    (hmeets : expectation.MetBy observation)
    (hyields : ∀ later ∈ expected, expectation.Yields later) :
    ∃ rest, HasMatching expected observed rest ∧ size ≤ rest + 1 := by
  obtain ⟨met, hmet, taken, htaken, hpaired, hsize⟩ := hmatching
  -- The pair to give up is that of the expectation or, if it has none, that of the
  -- observation.  Only where both have one do partners change.
  by_cases hserved : expectation ∈ met
  · obtain ⟨others, rfl⟩ := Multiset.exists_cons_of_mem hserved
    have hothers : others ≤ expected := (Multiset.cons_le_cons_iff _).mp hmet
    have hcard : size ≤ others.card + 1 := by rw [← hsize, Multiset.card_cons]
    by_cases hused : observation ∈ taken
    · obtain ⟨left, rfl⟩ := Multiset.exists_cons_of_mem hused
      have hleft : left ≤ observed := (Multiset.cons_le_cons_iff _).mp htaken
      have hrest := rel_of_rel_cons hpaired hmeets fun later hlater =>
        hyields later (Multiset.mem_of_le hothers hlater)
      exact ⟨_, ⟨others, hothers, left, hleft, hrest, rfl⟩, hcard⟩
    · obtain ⟨given, rest, -, hrest, rfl⟩ := Multiset.rel_cons_left.mp hpaired
      have hbelow : given ::ₘ rest ≤ observed := (Multiset.le_cons_of_notMem hused).mp htaken
      have hleft : rest ≤ observed := (Multiset.le_cons_self _ _).trans hbelow
      exact ⟨_, ⟨others, hothers, rest, hleft, hrest, rfl⟩, hcard⟩
  · have hothers : met ≤ expected := (Multiset.le_cons_of_notMem hserved).mp hmet
    by_cases hused : observation ∈ taken
    · obtain ⟨left, rfl⟩ := Multiset.exists_cons_of_mem hused
      have hleft : left ≤ observed := (Multiset.cons_le_cons_iff _).mp htaken
      obtain ⟨holder, others, -, hrest, rfl⟩ := Multiset.rel_cons_right.mp hpaired
      have hbelow : others ≤ expected := (Multiset.le_cons_self _ _).trans hothers
      have hcard : size ≤ others.card + 1 := by rw [← hsize, Multiset.card_cons]
      exact ⟨_, ⟨others, hbelow, left, hleft, hrest, rfl⟩, hcard⟩
    · have hleft : taken ≤ observed := (Multiset.le_cons_of_notMem hused).mp htaken
      exact ⟨_, ⟨met, hothers, taken, hleft, hpaired, hsize⟩, by omega⟩

/-! ## All expectations -/

theorem settle_paired (expected : List Expectation) (pool : List Observation) :
    ∃ met taken, Multiset.Rel MetBy met taken ∧
      (expected : Multiset Expectation) = met + (settle expected pool).1 ∧
      (pool : Multiset Observation) = taken + (settle expected pool).2 := by
  induction expected generalizing pool with
  | nil => exact ⟨0, 0, .zero, by simp [settle], by simp [settle]⟩
  | cons expectation expected ih =>
      rw [settle]
      cases htake : expectation.take? pool with
      | none =>
          obtain ⟨met, taken, hpaired, hexpected, hpool⟩ := ih pool
          refine ⟨met, taken, hpaired, ?_, hpool⟩
          rw [← Multiset.cons_coe, hexpected, ← Multiset.cons_coe, Multiset.add_cons]
      | some rest =>
          obtain ⟨first, hmeets, hfirst⟩ := take?_eq_some htake
          obtain ⟨met, taken, hpaired, hexpected, hpool⟩ := ih rest
          refine ⟨expectation ::ₘ met, first ::ₘ taken, .cons hmeets hpaired, ?_, ?_⟩
          · rw [← Multiset.cons_coe, hexpected, Multiset.cons_add]
          · rw [hfirst, hpool, Multiset.cons_add]

theorem settle_optimal {expected : List Expectation} {pool : List Observation} {size : Nat}
    (hyields : expected.Pairwise Yields) (hmatching : HasMatching expected pool size) :
    size + (settle expected pool).1.length ≤ expected.length := by
  induction expected generalizing pool size with
  | nil =>
      obtain ⟨met, hmet, -, -, -, rfl⟩ := hmatching
      simpa [settle] using Multiset.card_le_card hmet
  | cons expectation expected ih =>
      obtain ⟨hfirst, hrest⟩ := List.pairwise_cons.mp hyields
      rw [← Multiset.cons_coe] at hmatching
      rw [settle]
      cases htake : expectation.take? pool with
      | none =>
          have hbound := ih hrest (hmatching.of_unmet (take?_eq_none htake))
          simp only [List.length_cons]
          omega
      | some left =>
          obtain ⟨observation, hmeets, hpool⟩ := take?_eq_some htake
          rw [hpool] at hmatching
          obtain ⟨smaller, hsmaller, hsize⟩ := hmatching.of_served hmeets hfirst
          have hbound := ih hrest hsmaller
          simp only [List.length_cons]
          omega

theorem perm_exactFirst (expected : List Expectation) : (exactFirst expected).Perm expected := by
  have hwithout : (fun expectation : Expectation => expectation.message.isNone) =
      fun expectation => !expectation.message.isSome := by
    funext expectation
    simp
  rw [exactFirst, hwithout]
  exact List.filter_append_perm _ _

theorem settle_exactFirst {expected missing : List Expectation} {pool left : List Observation}
    (hsettle : settle (exactFirst expected) pool = (missing, left)) :
    ∃ most, IsGreatest {size | HasMatching expected pool size} most ∧
      missing.length + most = expected.length ∧ left.length + most = pool.length ∧
      (missing : Multiset Expectation) ≤ expected ∧ (left : Multiset Observation) ≤ pool := by
  have hperm := perm_exactFirst expected
  have hsame : (exactFirst expected : Multiset Expectation) = expected :=
    Multiset.coe_eq_coe.mpr hperm
  obtain ⟨met, taken, hpaired, hexpected, hpool⟩ := settle_paired (exactFirst expected) pool
  rw [hsame, hsettle] at hexpected
  rw [hsettle] at hpool
  have hmissing : missing.length + met.card = expected.length := by
    have hcard := congrArg Multiset.card hexpected
    simp only [Multiset.card_add, Multiset.coe_card] at hcard
    omega
  have hleft : left.length + met.card = pool.length := by
    have hcard := congrArg Multiset.card hpool
    simp only [Multiset.card_add, Multiset.coe_card] at hcard
    have htaken := Multiset.card_eq_card_of_rel hpaired
    omega
  have hmissingBelow : (missing : Multiset Expectation) ≤ expected := by
    rw [hexpected]
    exact Multiset.le_add_left _ _
  have hleftBelow : (left : Multiset Observation) ≤ pool := by
    rw [hpool]
    exact Multiset.le_add_left _ _
  refine ⟨met.card, ⟨⟨met, ?_, taken, ?_, hpaired, rfl⟩, ?_⟩, hmissing, hleft, hmissingBelow,
    hleftBelow⟩
  · rw [hexpected]
    exact Multiset.le_add_right _ _
  · rw [hpool]
    exact Multiset.le_add_right _ _
  · intro size hsize
    have hmatching : HasMatching (exactFirst expected) pool size := hsame ▸ hsize
    have hbound := settle_optimal (pairwise_yields_exactFirst expected) hmatching
    rw [hsettle, hperm.length_eq] at hbound
    simp only at hbound
    omega

theorem settle_exactFirst_eq_nil_iff {expected missing : List Expectation}
    {pool left : List Observation}
    (hsettle : settle (exactFirst expected) pool = (missing, left)) :
    missing = [] ∧ left = [] ↔ Multiset.Rel MetBy expected pool := by
  obtain ⟨most, ⟨hmost, hlargest⟩, hmissing, hleft, -, -⟩ := settle_exactFirst hsettle
  rw [rel_iff_hasMatching, Multiset.coe_card, Multiset.coe_card]
  constructor
  · rintro ⟨rfl, rfl⟩
    simp only [List.length_nil, Nat.zero_add] at hmissing hleft
    exact ⟨hmissing ▸ hmost, by omega⟩
  · rintro ⟨hall, hcard⟩
    have hbound : expected.length ≤ most := hlargest hall
    exact ⟨List.length_eq_zero_iff.mp (by omega), List.length_eq_zero_iff.mp (by omega)⟩

end Expectation

/-! ## The order of the observations -/

namespace Observation

theorem atOrBefore_iff (first second : Observation) :
    first.atOrBefore second = true ↔
      first.line < second.line ∨ (first.line = second.line ∧ first.message ≤ second.message) := by
  rw [atOrBefore, Bool.or_eq_true, Bool.and_eq_true, decide_eq_true_iff, beq_iff_eq,
    Bool.not_eq_true', decide_eq_false_iff_not, String.not_lt]

theorem pairwise_sort (observations : List Observation) :
    (sort observations).Pairwise fun first second =>
      first.line < second.line ∨
        (first.line = second.line ∧ first.message ≤ second.message) := by
  have hsorted : (sort observations).Pairwise fun first second =>
      first.atOrBefore second = true := by
    refine List.pairwise_mergeSort ?_ ?_ observations
    · intro first second third hfirst hsecond
      rw [atOrBefore_iff] at *
      rcases hfirst with hbefore | ⟨hline, hmessage⟩
      · exact .inl (by omega)
      · rcases hsecond with hbefore | ⟨hline', hmessage'⟩
        · exact .inl (by omega)
        · exact .inr ⟨by omega, String.le_trans hmessage hmessage'⟩
    · intro first second
      rw [Bool.or_eq_true, atOrBefore_iff, atOrBefore_iff]
      have hmessages := String.le_total first.message second.message
      by_cases hline : first.line = second.line
      · exact hmessages.imp (fun h => .inr ⟨hline, h⟩) (fun h => .inr ⟨hline.symm, h⟩)
      · omega
  exact hsorted.imp fun hbefore => (atOrBefore_iff _ _).mp hbefore

theorem coe_sort (observations : List Observation) :
    (sort observations : Multiset Observation) = observations :=
  Multiset.coe_eq_coe.mpr (List.mergeSort_perm _ _)

end Observation

/-! ## Fixtures -/

/-- What a mismatch lists is what a largest matching of this size leaves over. -/
structure Mismatch.LeavesOver (mismatch : Mismatch) (expected : List Expectation)
    (observed : List Observation) (most : Nat) : Prop where
  missing_expected : (mismatch.missing : Multiset Expectation) ≤ expected
  missing_length : mismatch.missing.length = expected.length - most
  unexpected_observed : (mismatch.unexpected : Multiset Observation) ≤ observed
  unexpected_length : mismatch.unexpected.length = observed.length - most

theorem compareFixture_eq_ok {file : String} {rule : Rule} {expected : List Expectation}
    {observed : List Observation}
    (hall : Multiset.Rel Expectation.MetBy expected observed) :
    compareFixture file rule expected observed = .ok (Observation.sort observed) := by
  rw [← Observation.coe_sort] at hall
  obtain ⟨hmissing, hleft⟩ := (Expectation.settle_exactFirst_eq_nil_iff rfl).mpr hall
  have hsettle : Expectation.settle (Expectation.exactFirst expected)
      (Observation.sort observed) = ([], []) := Prod.ext hmissing hleft
  simp only [compareFixture, hsettle]

theorem compareFixture_eq_error {file : String} {rule : Rule} {expected : List Expectation}
    {observed : List Observation} {most : Nat}
    (hnone : ¬ Multiset.Rel Expectation.MetBy expected observed)
    (hmost : IsGreatest {size | Expectation.HasMatching expected observed size} most) :
    ∃ mismatch, compareFixture file rule expected observed = .error mismatch ∧
      mismatch.file = file ∧ mismatch.rule = rule ∧
      mismatch.LeavesOver expected observed most := by
  rw [← Observation.coe_sort] at hnone hmost
  rcases hsettle : Expectation.settle (Expectation.exactFirst expected)
    (Observation.sort observed) with ⟨missing, left⟩
  obtain ⟨found, hfound, hmissing, hleft, hmissingBelow, hleftBelow⟩ :=
    Expectation.settle_exactFirst hsettle
  obtain rfl := hfound.unique hmost
  have hsorted : (Expectation.sortByLine missing).Perm missing := List.mergeSort_perm _ _
  refine ⟨⟨file, rule, Expectation.sortByLine missing, left⟩, ?_, rfl, rfl, ?_, ?_, ?_, ?_⟩
  · simp only [compareFixture, hsettle]
    split
    next hnil =>
      exact absurd ((Expectation.settle_exactFirst_eq_nil_iff hsettle).mp (Prod.mk.inj hnil)) hnone
    next hsame =>
      obtain ⟨rfl, rfl⟩ := Prod.mk.inj hsame
      rfl
  · rw [Multiset.coe_eq_coe.mpr hsorted]
    exact hmissingBelow
  · rw [hsorted.length_eq]
    omega
  · rw [← Observation.coe_sort observed]
    exact hleftBelow
  · have hlength : (Observation.sort observed).length = observed.length := List.length_mergeSort _
    show left.length = observed.length - found
    omega

namespace Workspace

/--
A fixture whose text parses and scans passes if and only if its expectations and the
findings of the check can be paired one to one, and then the findings are returned in
order.  Otherwise the mismatch lists as many expectations and as many findings as a
largest matching leaves over.
-/
theorem verifyText_decides_matching (workspace : Workspace) (check : Check)
    (name : Option String) (text : List Char) {unit : SourceUnit Unit}
    {passes : List (Pass Unit)} {expected : List Expectation}
    (hparse : (workspace.parseText (fixtureName name "<memory>") text).outcome = .ok unit)
    (hscan : unit.scan [check] = .ok passes)
    (hexpected : Expectation.ofText text = .ok expected) :
    ∃ pass sorted most, passes = [pass] ∧ sorted.Perm pass.observations ∧
      (sorted.Pairwise fun first second => first.line < second.line ∨
        (first.line = second.line ∧ first.message ≤ second.message)) ∧
      IsGreatest {size | Expectation.HasMatching expected pass.observations size} most ∧
      (workspace.verifyText check name text = .ok sorted ↔
        Multiset.Rel Expectation.MetBy expected pass.observations) ∧
      (¬ Multiset.Rel Expectation.MetBy expected pass.observations →
        ∃ mismatch, workspace.verifyText check name text = .error (.mismatch mismatch) ∧
          mismatch.file = fixtureName name "<memory>" ∧ mismatch.rule = check.rule ∧
          mismatch.LeavesOver expected pass.observations most) := by
  obtain ⟨-, hpasses⟩ := SourceUnit.scan_eq_ok_iff.mp hscan
  obtain ⟨pass, rfl⟩ : ∃ pass, passes = [pass] := ⟨_, hpasses⟩
  obtain ⟨most, hmost, -⟩ := Expectation.settle_exactFirst
    (Eq.refl (Expectation.settle (Expectation.exactFirst expected) pass.observations))
  have hverify : workspace.verifyText check name text =
      (compareFixture (fixtureName name "<memory>") check.rule expected
        pass.observations).mapError .mismatch := by
    simp only [verifyText, verifyNamed, hparse, hscan, hexpected, List.flatMap_singleton]
    cases compareFixture (fixtureName name "<memory>") check.rule expected pass.observations <;> rfl
  have hfails : ¬ Multiset.Rel Expectation.MetBy expected pass.observations →
      ∃ mismatch, workspace.verifyText check name text = .error (.mismatch mismatch) ∧
        mismatch.file = fixtureName name "<memory>" ∧ mismatch.rule = check.rule ∧
        mismatch.LeavesOver expected pass.observations most := by
    intro hnone
    obtain ⟨mismatch, hcompare, hmismatch⟩ := compareFixture_eq_error hnone hmost
    exact ⟨mismatch, by rw [hverify, hcompare, Except.mapError], hmismatch⟩
  refine ⟨pass, Observation.sort pass.observations, most, rfl, List.mergeSort_perm _ _,
    Observation.pairwise_sort _, hmost, ⟨?_, ?_⟩, hfails⟩
  · intro hpassed
    by_contra hnone
    obtain ⟨mismatch, hfailed, -⟩ := hfails hnone
    cases hpassed.symm.trans hfailed
  · intro hall
    rw [hverify, compareFixture_eq_ok hall, Except.mapError]

/-- Two complements on one line, which expects anything there, and below it an
expectation that only the first of them meets. -/
def competing : List Char :=
  ("! a, ~ b // Noncompliant\n" ++
    "// Noncompliant@-1 \x7b\x7b'!' is followed by whitespace.\x7d\x7d").toList

def complements : Workspace :=
  let complement (token : String) (start : Nat) : Java.Concrete :=
    .node (.inLine "unary_expression" start (start + 3))
      [.leaf token start (start + 1), .leaf "identifier" (start + 2) (start + 3)]
  ⟨⟨[], []⟩, [], fun _ =>
    .node (.inLine "program" 0 8) [complement "!" 0, .leaf "," 3 4, complement "~" 5]⟩

theorem verifyText_complements :
    ∃ sorted, complements.verifyText (Config.default.check .after) none competing = .ok sorted ∧
      sorted.Perm
        [⟨1, "'!' is followed by whitespace."⟩, ⟨1, "'~' is followed by whitespace."⟩] := by
  have hexpected : Expectation.ofText competing =
      .ok [⟨1, none⟩, ⟨1, some "'!' is followed by whitespace."⟩] := by
    decide +kernel
  have hrun : ((complements.parseText "<memory>" competing).outcome.toOption.bind fun unit =>
      (unit.scan [Config.default.check .after]).toOption.map (·.map Pass.observations)) =
        some [[⟨1, "'!' is followed by whitespace."⟩, ⟨1, "'~' is followed by whitespace."⟩]] := by
    decide +kernel
  cases hparse : (complements.parseText "<memory>" competing).outcome with
  | error failure =>
      rw [hparse] at hrun
      cases hrun
  | ok unit =>
      rw [hparse] at hrun
      cases hscan : unit.scan [Config.default.check .after] with
      | error violation => simp [Except.toOption, hscan] at hrun
      | ok passes =>
          obtain ⟨pass, sorted, most, rfl, hperm, -, -, hpasses, -⟩ :=
            verifyText_decides_matching complements _ none competing hparse hscan hexpected
          have hobserved : pass.observations =
              [⟨1, "'!' is followed by whitespace."⟩, ⟨1, "'~' is followed by whitespace."⟩] := by
            simpa [Except.toOption, hscan] using hrun
          rw [hobserved] at hperm hpasses
          refine ⟨sorted, hpasses.mpr ?_, hperm⟩
          rw [Multiset.coe_eq_coe.mpr (List.Perm.swap _ _ _)]
          exact .cons ⟨rfl, by simp⟩ (.cons ⟨rfl, by simp⟩ .zero)

end Workspace

end TokenSpacing
