import Mathlib
import TokenSpacing.Proofs.Issues
import TokenSpacing.Proofs.Safety

/-!
# Checks together and apart

All checks share one walk over a file, site by site and check by check.  Still no check
sees another: each pass ends as it does when its check is run alone, and a violation that
ends the shared walk ends the walk of one of the checks as well.

Sorting the issues of all passes is stable.  Choosing rules before the scan is therefore
the same as leaving issues out after the sort.
-/

namespace TokenSpacing

variable {Mark : Type}

/-! ## One walk or several -/

theorem feedAll_eq_error {source : SourceText} {site : Site Mark} {passes : List (Pass Mark)}
    {violation : Violation} (hended : feedAll source site passes = .error violation) :
    ∃ pass ∈ passes, pass.feed source site = .error violation := by
  induction passes with
  | nil => cases hended
  | cons pass rest ih =>
      rcases bind_eq_error_iff.mp hended with hfirst | ⟨fed, -, hlater⟩
      · exact ⟨pass, List.mem_cons_self, hfirst⟩
      · rcases bind_eq_error_iff.mp hlater with hrest | ⟨others, -, hdone⟩
        · obtain ⟨other, hother, hfeed⟩ := ih hrest
          exact ⟨other, List.mem_cons_of_mem _ hother, hfeed⟩
        · cases hdone

/-- A whole run: what ends it ends the run of one of the passes alone.  The other passes
have met nothing before, so that one meets the same violation first. -/
theorem feedSites_eq_error {source : SourceText} {sites : List (Site Mark)}
    {passes : List (Pass Mark)} {violation : Violation}
    (hended : feedSites source sites passes = .error violation) :
    ∃ pass ∈ passes, feedSites source sites [pass] = .error violation := by
  induction sites generalizing passes with
  | nil => cases hended
  | cons site rest ih =>
      rcases bind_eq_error_iff.mp hended with hsite | ⟨fed, hfed, hlater⟩
      · obtain ⟨pass, hpass, hfeed⟩ := feedAll_eq_error hsite
        refine ⟨pass, hpass, bind_eq_error_iff.mpr (.inl ?_)⟩
        exact bind_eq_error_iff.mpr (.inl hfeed)
      · obtain ⟨hclear, rfl⟩ := feedAll_eq_ok_iff.mp hfed
        obtain ⟨grown, hgrown, hrest⟩ := ih hlater
        obtain ⟨pass, hpass, rfl⟩ := List.mem_map.mp hgrown
        have hone : ∀ single ∈ [pass], single.check.Clear source site := by
          simpa using hclear pass hpass
        refine ⟨pass, hpass, bind_eq_error_iff.mpr (.inr ⟨_, ?_, hrest⟩)⟩
        exact feedAll_eq_ok_iff.mpr ⟨hone, rfl⟩

namespace SourceUnit

theorem scan_eq_error {unit : SourceUnit Mark} {checks : List Check} {violation : Violation}
    (hended : unit.scan checks = .error violation) :
    ∃ check ∈ checks, unit.scan [check] = .error violation := by
  obtain ⟨pass, hpass, hrun⟩ := feedSites_eq_error hended
  obtain ⟨check, hcheck, rfl⟩ := List.mem_map.mp hpass
  exact ⟨check, hcheck, hrun⟩

theorem scan_alone {unit : SourceUnit Mark} {checks : List Check} {passes : List (Pass Mark)}
    {check : Check} (hscan : unit.scan checks = .ok passes) (hcheck : check ∈ checks) :
    unit.scan [check] =
      .ok [⟨check, (unit.root.sites none).filterMap (check.found? unit.source)⟩] := by
  obtain ⟨hclear, -⟩ := scan_eq_ok_iff.mp hscan
  refine scan_eq_ok_iff.mpr ⟨?_, rfl⟩
  simpa using hclear check hcheck

theorem scan_apart {unit : SourceUnit Mark} {checks : List Check} {passes : List (Pass Mark)}
    (hscan : unit.scan checks = .ok passes) :
    List.Forall₂ (fun check pass => unit.scan [check] = .ok [pass]) checks passes := by
  obtain ⟨-, hpasses⟩ := scan_eq_ok_iff.mp hscan
  rw [hpasses, List.forall₂_map_right_iff, List.forall₂_same]
  exact fun check hcheck => scan_alone hscan hcheck

/--
One shared walk is as good as one for each check.  It ends in a violation if and only if
one of the checks meets a violation alone, which is then the same one; otherwise it
returns the passes that the checks have alone, in the order of the checks.
-/
theorem scan_together_iff_apart (unit : SourceUnit Mark) (checks : List Check) :
    ((∃ violation, unit.scan checks = .error violation) ↔
        ∃ check ∈ checks, ∃ violation, unit.scan [check] = .error violation) ∧
      (∀ violation, unit.scan checks = .error violation →
        ∃ check ∈ checks, unit.scan [check] = .error violation) ∧
      ∀ passes, unit.scan checks = .ok passes →
        List.Forall₂ (fun check pass => unit.scan [check] = .ok [pass]) checks passes := by
  refine ⟨⟨?_, ?_⟩, fun _ => scan_eq_error, fun _ => scan_apart⟩
  · rintro ⟨violation, hended⟩
    obtain ⟨check, hcheck, halone⟩ := scan_eq_error hended
    exact ⟨check, hcheck, violation, halone⟩
  · rintro ⟨check, hcheck, violation, halone⟩
    cases hscan : unit.scan checks with
    | error other => exact ⟨other, rfl⟩
    | ok passes => cases halone.symm.trans (scan_alone hscan hcheck)

def strayComma : SourceUnit Nat :=
  let token (mark : Nat) (text : String) (line first last : Int) : Tree Nat :=
    .leaf mark ⟨text, "Stray.java", ⟨line, first⟩, ⟨line, last⟩⟩
  ⟨"Stray.java", ["a:: b".toList], ['\n'],
    .node 0 ⟨"program", none, "Stray.java", ⟨1, 1⟩, ⟨1, 6⟩⟩
      [.node 1 ⟨"method_reference", some .methodReference, "Stray.java", ⟨1, 1⟩, ⟨1, 6⟩⟩
         [token 2 "a" 1 1 2, token 3 "::" 1 2 4, token 4 "b" 1 5 6],
       token 5 "," 7 1 2]⟩

def referencesOn : Config where
  settings rule := (Settings.default rule).set (.construct .methodReference) true

theorem scan_strayComma :
    (∃ violation, strayComma.scan (Rule.all.map referencesOn.check) = .error violation) ∧
      strayComma.scan [referencesOn.check .after] =
        .ok [⟨referencesOn.check .after, [⟨⟨1, "Stray.java", ⟨1, 1⟩, ⟨1, 6⟩⟩,
          "'::' is followed by whitespace."⟩]⟩] := by
  have hcomma : strayComma.scan [referencesOn.check .before] = .error (.lineOutside 7 1) := by cbv
  have htwice : strayComma.scan ([.after, .after].map referencesOn.check) =
      .ok (List.replicate 2 ⟨referencesOn.check .after, [⟨⟨1, "Stray.java", ⟨1, 1⟩, ⟨1, 6⟩⟩,
        "'::' is followed by whitespace."⟩]⟩) := by
    cbv
  obtain ⟨hended, -, -⟩ := scan_together_iff_apart strayComma (Rule.all.map referencesOn.check)
  obtain ⟨-, -, hpasses⟩ :=
    scan_together_iff_apart strayComma ([.after, .after].map referencesOn.check)
  refine ⟨hended.mpr ⟨referencesOn.check .before, ?_, _, hcomma⟩, ?_⟩
  · simp [Rule.all]
  · exact (List.forall₂_cons.mp (hpasses _ htwice)).1

end SourceUnit

/-! ## The order of the issues -/

/-- All issues of the passes in the order of their positions.  Those at one position keep
the order of the passes, and within a pass the order of its findings. -/
structure Arranged (file : String) (passes : List (Pass Mark)) (issues : List Issue) : Prop where
  sorted : issues.Pairwise fun first second =>
    first.position.line < second.position.line ∨
      (first.position.line = second.position.line ∧
        first.position.column ≤ second.position.column)
  complete : issues.Perm (passes.flatMap (·.issues file))
  stable : ∀ position, issues.filter (·.position == position) =
    (passes.flatMap (·.issues file)).filter (·.position == position)

namespace Issue

theorem filter_sort (keep : Issue → Bool) (issues : List Issue) :
    (sort issues).filter keep = sort (issues.filter keep) :=
  Position.filter_sort_by Issue.position keep issues

theorem sort_of_position {issues : List Issue} (position : Position)
    (hposition : ∀ issue ∈ issues, issue.position = position) : sort issues = issues := by
  refine List.mergeSort_of_pairwise (List.pairwise_of_forall_mem_list ?_)
  intro first hfirst second hsecond
  rw [hposition first hfirst, hposition second hsecond, Position.atOrBefore_iff]
  omega

end Issue

theorem issuesOf_arranged (file : String) (passes : List (Pass Mark)) :
    Arranged file passes (issuesOf file passes) where
  sorted := by
    have hsorted := Position.pairwise_sort_by Issue.position (passes.flatMap (·.issues file))
    exact hsorted.imp fun hbefore => (Position.atOrBefore_iff _ _).mp hbefore
  complete := List.mergeSort_perm _ _
  stable := by
    intro position
    rw [issuesOf, Issue.filter_sort]
    refine Issue.sort_of_position position ?_
    intro issue hissue
    simpa using (List.mem_filter.mp hissue).2

/-! ## Chosen rules -/

theorem Pass.filter_issues (pass : Pass Mark) (file : String) (keep : Rule → Bool) :
    (pass.issues file).filter (fun issue => keep issue.rule) =
      if keep pass.check.rule then pass.issues file else [] := by
  cases hkeep : keep pass.check.rule <;>
    simp [issues, hkeep, List.filter_map, Function.comp_def]

theorem filter_issuesOf (file : String) (passes : List (Pass Mark)) (keep : Rule → Bool) :
    (issuesOf file passes).filter (fun issue => keep issue.rule) =
      issuesOf file (passes.filter fun pass => keep pass.check.rule) := by
  rw [issuesOf, Issue.filter_sort, issuesOf]
  congr 1
  induction passes with
  | nil => rfl
  | cons pass rest ih =>
      rw [List.flatMap_cons, List.filter_append, Pass.filter_issues, ih, List.filter_cons]
      split <;> simp

theorem SourceUnit.scan_filter {unit : SourceUnit Mark} {checks : List Check}
    {passes : List (Pass Mark)} (hscan : unit.scan checks = .ok passes) (keep : Check → Bool) :
    unit.scan (checks.filter keep) = .ok (passes.filter fun pass => keep pass.check) := by
  obtain ⟨hclear, rfl⟩ := scan_eq_ok_iff.mp hscan
  refine scan_eq_ok_iff.mpr ⟨?_, ?_⟩
  · intro check hcheck
    exact hclear check (List.mem_filter.mp hcheck).1
  · rw [List.filter_map]
    rfl

namespace SourceUnit

/--
Issues come in the order of their positions, all of them, and at one position in the order
of the checks and then of the walk.  The checks of any known rules return exactly the
issues of these rules, in whatever order and however often the rules are named.
-/
theorem issues_arranged_chosen (unit : SourceUnit Mark) (config : Config) {checks : List Check}
    {issues : List Issue} (hchecks : config.checks none = .ok checks)
    (hissues : unit.issues checks = .ok issues) :
    (∃ passes, unit.scan checks = .ok passes ∧
        passes.map Pass.check = Rule.all.map config.check ∧
        (∀ pass ∈ passes, pass.findings =
          (unit.root.sites none).filterMap (pass.check.found? unit.source)) ∧
        Arranged unit.file passes issues) ∧
      ∀ keys : List String, (∀ key ∈ keys, ∃ rule : Rule, rule.key = key) →
        ∃ chosen, config.checks (some keys) = .ok chosen ∧
          unit.issues chosen = .ok (issues.filter fun issue => keys.contains issue.rule.key) := by
  cases hchecks
  obtain ⟨passes, hscan, hsorted⟩ := bind_eq_ok_iff.mp hissues
  obtain rfl := pure_eq_ok_iff.mp hsorted
  constructor
  · obtain ⟨-, hpasses⟩ := scan_eq_ok_iff.mp hscan
    refine ⟨passes, hscan, ?_, ?_, issuesOf_arranged unit.file passes⟩
    · simp [hpasses, Function.comp_def]
    · intro pass hpass
      rw [hpasses] at hpass
      obtain ⟨check, -, rfl⟩ := List.mem_map.mp hpass
      rfl
  · intro keys hknown
    refine ⟨_, Config.checks_some hknown, ?_⟩
    have hchosen := scan_filter hscan fun check => keys.contains check.rule.key
    have hfilter := filter_issuesOf unit.file passes fun rule => keys.contains rule.key
    rw [hfilter]
    exact bind_eq_ok_iff.mpr ⟨_, hchosen, rfl⟩

def looseColons : SourceUnit Nat :=
  let token (mark : Nat) (text : String) (first last : Int) : Tree Nat :=
    .leaf mark ⟨text, "Colons.java", ⟨1, first⟩, ⟨1, last⟩⟩
  ⟨"Colons.java", [" :: b ;".toList], ['\n'],
    .node 0 ⟨"program", none, "Colons.java", ⟨1, 1⟩, ⟨1, 8⟩⟩
      [.node 1 ⟨"method_reference", some .methodReference, "Colons.java", ⟨1, 2⟩, ⟨1, 6⟩⟩
         [token 2 "::" 2 4, token 3 "b" 5 6],
       token 4 ";" 7 8]⟩

theorem issues_looseColons :
    looseColons.issues (Rule.all.map referencesOn.check) =
        .ok [⟨.after, "Colons.java", ⟨1, 2⟩, "'::' is followed by whitespace."⟩,
          ⟨.before, "Colons.java", ⟨1, 2⟩, "'::' is preceded by whitespace."⟩,
          ⟨.before, "Colons.java", ⟨1, 7⟩, "';' is preceded by whitespace."⟩] ∧
      ∃ chosen,
        referencesOn.checks (some ["no-whitespace-before", "no-whitespace-before"]) = .ok chosen ∧
          looseColons.issues chosen =
            .ok [⟨.before, "Colons.java", ⟨1, 2⟩, "'::' is preceded by whitespace."⟩,
              ⟨.before, "Colons.java", ⟨1, 7⟩, "';' is preceded by whitespace."⟩] := by
  have hall : looseColons.issues (Rule.all.map referencesOn.check) =
      .ok [⟨.after, "Colons.java", ⟨1, 2⟩, "'::' is followed by whitespace."⟩,
        ⟨.before, "Colons.java", ⟨1, 2⟩, "'::' is preceded by whitespace."⟩,
        ⟨.before, "Colons.java", ⟨1, 7⟩, "';' is preceded by whitespace."⟩] := by
    cbv
  have hknown : ∀ key ∈ ["no-whitespace-before", "no-whitespace-before"],
      ∃ rule : Rule, rule.key = key := by
    intro key hkey
    obtain rfl : key = "no-whitespace-before" := by simpa using hkey
    exact ⟨.before, rfl⟩
  obtain ⟨-, hselected⟩ := issues_arranged_chosen looseColons referencesOn rfl hall
  obtain ⟨chosen, hchosen, hissues⟩ := hselected _ hknown
  exact ⟨hall, chosen, hchosen, hissues.trans (by decide)⟩

end SourceUnit

end TokenSpacing
