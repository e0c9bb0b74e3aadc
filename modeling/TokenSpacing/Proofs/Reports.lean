import Mathlib.Data.List.Basic
import TokenSpacing.Proofs.Outcomes
import TokenSpacing.Report

/-!
# Reports compose

A report accounts for files one after the other.  A file that does not parse adds its
error and nothing else, every other file adds its name and its own issues.  No file has
an influence on what another one adds, so the report of two lists of paths is the report
of the first followed by the report of the second.
-/

namespace TokenSpacing

/-! ## Single files -/

namespace Java

theorem file_of_parseText {file : String} {text : List Char} {root : Concrete}
    {unit : SourceUnit Unit} (hparse : parseText file text root = .ok unit) :
    unit.file = file := by
  simp only [parseText] at hparse
  split at hparse
  · cases hparse
  · split at hparse
    · cases hparse
    · cases hparse
      rfl

theorem file_of_rejected {file : String} {text : List Char} {root : Concrete}
    {error : ParseError} (hparse : parseText file text root = .error (.rejected error)) :
    error.span.file = file := by
  simp only [parseText] at hparse
  split at hparse
  · cases hparse
    rfl
  · split at hparse <;> cases hparse

end Java

namespace Workspace

variable {workspace : Workspace} {path : Path} {checks : List Check}

theorem outcome_parseFile (workspace : Workspace) (path : Path) :
    (workspace.parseFile path).outcome =
      (workspace.resolve path >>= fun location =>
        workspace.readFile location >>= fun bytes =>
          decodeFile location.text bytes >>= fun text =>
            (Java.parseText location.text text (workspace.parser text)).mapError .ofParse) := by
  have hparse : ∀ file text, (workspace.parseText file text).outcome =
      (Java.parseText file text (workspace.parser text)).mapError .ofParse := by
    intro file text
    unfold parseText
    cases Java.parseText file text (workspace.parser text) <;> rfl
  simp [parseFile, hparse]

theorem file_of_parseFile {unit : SourceUnit Unit}
    (hparse : (workspace.parseFile path).outcome = .ok unit) :
    ∃ location, workspace.resolve path = .ok location ∧ unit.file = location.text := by
  rw [outcome_parseFile] at hparse
  obtain ⟨location, hresolve, hlocation⟩ := bind_eq_ok_iff.mp hparse
  obtain ⟨bytes, -, hbytes⟩ := bind_eq_ok_iff.mp hlocation
  obtain ⟨text, -, htext⟩ := bind_eq_ok_iff.mp hbytes
  exact ⟨location, hresolve, Java.file_of_parseText (mapError_eq_ok_iff.mp htext)⟩

theorem ne_parse_of_resolve {error : ParseError} :
    workspace.resolve path ≠ .error (.parse error) := by
  intro hresolve
  rcases bind_eq_error_iff.mp hresolve with hexpand | ⟨expanded, -, hdone⟩
  · unfold expand at hexpand
    split at hexpand
    · cases hexpand
    · split at hexpand
      · cases hexpand
      · split at hexpand <;> cases hexpand
  · cases hdone

theorem file_of_parseError {error : ParseError}
    (hparse : (workspace.parseFile path).outcome = .error (.parse error)) :
    ∃ location, workspace.resolve path = .ok location ∧ error.span.file = location.text := by
  rw [outcome_parseFile] at hparse
  rcases bind_eq_error_iff.mp hparse with hresolve | ⟨location, hresolve, hlocation⟩
  · exact absurd hresolve ne_parse_of_resolve
  refine ⟨location, hresolve, ?_⟩
  rcases bind_eq_error_iff.mp hlocation with hread | ⟨bytes, -, hbytes⟩
  · unfold readFile at hread
    split at hread <;> cases hread
  rcases bind_eq_error_iff.mp hbytes with hdecode | ⟨text, -, htext⟩
  · unfold decodeFile at hdecode
    split at hdecode
    · cases hdecode
    · split at hdecode
      · cases hdecode
        rfl
      · cases hdecode
  · obtain ⟨cause, hcause, hfailure⟩ := mapError_eq_error_iff.mp htext
    cases cause with
    | rejected other =>
        cases hfailure
        exact Java.file_of_rejected hcause
    | unconvertible fault => cases hfailure

theorem outcome_checkFile {config : Config} {rules : Option (List String)}
    (hchecks : chosenChecks config rules = .ok checks) (path : Path) :
    (workspace.checkFile path config rules).outcome =
      ((workspace.parseFile path).outcome >>= fun unit => (checkUnit unit checks).outcome) := by
  simp only [checkFile, Logged.outcome_sequence, Logged.outcome_ofExcept, hchecks]
  rfl

theorem outcome_reportUnit (path : Path) (unit : SourceUnit Unit) (checks : List Check) :
    (reportUnit path (.ok unit) checks).outcome =
      (fun issues => ⟨issues, [], [unit.file]⟩) <$> (checkUnit unit checks).outcome := by
  unfold reportUnit
  cases hcheck : (checkUnit unit checks).outcome <;> simp only [hcheck] <;> rfl

theorem outcome_reportFile (workspace : Workspace) (checks : List Check) (path : Path) :
    (workspace.reportFile checks path).outcome =
      ((catchParseError (workspace.parseFile path)).outcome >>= fun parsed =>
        (reportUnit path parsed checks).outcome) := by
  simp only [reportFile, Logged.outcome_sequence, Logged.outcome_note]
  rfl

theorem reportFile_eq_ok_iff {report : Report} :
    (workspace.reportFile checks path).outcome = .ok report ↔
      (∃ error, (workspace.parseFile path).outcome = .error (.parse error) ∧
        ⟨[], [error], []⟩ = report) ∨
      ∃ unit issues, (workspace.parseFile path).outcome = .ok unit ∧
        (checkUnit unit checks).outcome = .ok issues ∧ ⟨issues, [], [unit.file]⟩ = report := by
  rw [outcome_reportFile, bind_eq_ok_iff]
  unfold catchParseError
  cases (workspace.parseFile path).outcome with
  | ok unit => simp [outcome_reportUnit, map_eq_ok_iff]
  | error failure =>
      cases failure with
      | parse error =>
          have hrejected : (reportUnit path (.error error) checks).outcome =
              .ok ⟨[], [error], []⟩ := rfl
          simp [hrejected]
      | _ => simp

end Workspace

/-! ## Many files -/

/-- The report of files that were given in this order.  Each is counted once, among the
errors if and only if parsing it ends in a parse error. -/
inductive Workspace.Accounts (workspace : Workspace) (config : Config)
    (rules : Option (List String)) : List Path → Report → Prop
  | none : Accounts workspace config rules [] .empty
  | rejected {path : Path} {location : Location} {rest : List Path} {error : ParseError}
      {report : Report} (hresolve : workspace.resolve path = .ok location)
      (hparse : (workspace.parseFile path).outcome = .error (.parse error))
      (hfile : error.span.file = location.text)
      (hrest : Accounts workspace config rules rest report) :
      Accounts workspace config rules (path :: rest)
        ⟨report.issues, error :: report.errors, report.files⟩
  | checked {path : Path} {location : Location} {rest : List Path} {unit : SourceUnit Unit}
      {issues : List Issue} {report : Report} (hresolve : workspace.resolve path = .ok location)
      (hparse : (workspace.parseFile path).outcome = .ok unit)
      (hissues : (workspace.checkFile path config rules).outcome = .ok issues)
      (hrest : Accounts workspace config rules rest report) :
      Accounts workspace config rules (path :: rest)
        ⟨issues ++ report.issues, report.errors, location.text :: report.files⟩

namespace Workspace

variable {workspace : Workspace} {config : Config} {rules : Option (List String)}
  {checks : List Check}

theorem reportFiles_eq_ok_iff (hchecks : chosenChecks config rules = .ok checks)
    {paths : List Path} {report : Report} :
    (workspace.reportFiles checks paths).outcome = .ok report ↔
      workspace.Accounts config rules paths report := by
  induction paths generalizing report with
  | nil =>
      constructor
      · intro hreport
        cases hreport
        exact .none
      · intro haccounts
        cases haccounts
        rfl
  | cons path rest ih =>
      simp only [reportFiles, Logged.outcome_sequence, Logged.outcome_pure, bind_eq_ok_iff,
        reportFile_eq_ok_iff, ih]
      constructor
      · rintro ⟨first, hfirst, others, hrest, hreport⟩
        cases hreport
        rcases hfirst with ⟨error, hparse, rfl⟩ | ⟨unit, issues, hparse, hissues, rfl⟩
        · obtain ⟨location, hresolve, hfile⟩ := file_of_parseError hparse
          exact .rejected hresolve hparse hfile hrest
        · obtain ⟨location, hresolve, hfile⟩ := file_of_parseFile hparse
          rw [hfile]
          refine .checked hresolve hparse ?_ hrest
          rw [outcome_checkFile hchecks, hparse]
          exact hissues
      · intro haccounts
        cases haccounts with
        | @rejected _ _ _ error others hresolve hparse hfile hrest =>
            exact ⟨_, .inl ⟨error, hparse, rfl⟩, others, hrest, rfl⟩
        | @checked _ _ _ unit issues others hresolve hparse hissues hrest =>
            rw [outcome_checkFile hchecks, hparse] at hissues
            refine ⟨_, .inr ⟨unit, issues, hparse, hissues, rfl⟩, others, hrest, ?_⟩
            obtain ⟨other, hother, hfile⟩ := file_of_parseFile hparse
            rw [hresolve] at hother
            cases hother
            rw [hfile]
            rfl

theorem checkPaths_eq_ok_iff {paths : List Path} {report : Report} :
    (workspace.checkPaths paths config rules).outcome = .ok report ↔
      (∃ checks, chosenChecks config rules = .ok checks) ∧
        (workspace.listing paths).ending = .ok () ∧
        workspace.Accounts config rules (workspace.javaFiles paths) report := by
  simp only [checkPaths, Logged.outcome_sequence, Logged.outcome_ofExcept, Logged.outcome_note,
    Logged.outcome_pure, bind_eq_ok_iff]
  constructor
  · rintro ⟨checks, hchecks, other, hfiles, ⟨⟩, hending, -, -, hreport⟩
    cases hreport
    exact ⟨⟨checks, hchecks⟩, hending, (reportFiles_eq_ok_iff hchecks).mp hfiles⟩
  · rintro ⟨⟨checks, hchecks⟩, hending, haccounts⟩
    exact ⟨checks, hchecks, report, (reportFiles_eq_ok_iff hchecks).mpr haccounts, (), hending, (),
      trivial, rfl⟩

theorem listing_append (first second : List Path) :
    workspace.listing (first ++ second) =
      ⟨workspace.javaFiles first ++
          ((workspace.listing first).ending.toOption.map
            fun _ => workspace.javaFiles second).getD [],
        (workspace.listing first).ending >>= fun _ => (workspace.listing second).ending⟩ := by
  induction first with
  | nil => rfl
  | cons path rest ih =>
      simp only [List.cons_append, listing, javaFiles]
      cases workspace.javaFilesAt path with
      | error failure => rfl
      | ok files => simp [ih, javaFiles]

namespace Accounts

theorem append_iff {first second : List Path} {report : Report} :
    workspace.Accounts config rules (first ++ second) report ↔
      ∃ before after, workspace.Accounts config rules first before ∧
        workspace.Accounts config rules second after ∧ report = before.append after := by
  induction first generalizing report with
  | nil =>
      constructor
      · intro haccounts
        exact ⟨.empty, report, .none, haccounts, rfl⟩
      · rintro ⟨before, after, hbefore, hafter, rfl⟩
        cases hbefore
        exact hafter
  | cons path rest ih =>
      constructor
      · intro haccounts
        cases haccounts with
        | rejected hresolve hparse hfile hrest =>
            obtain ⟨before, after, hbefore, hafter, rfl⟩ := ih.mp hrest
            exact ⟨_, after, .rejected hresolve hparse hfile hbefore, hafter, rfl⟩
        | checked hresolve hparse hissues hrest =>
            obtain ⟨before, after, hbefore, hafter, rfl⟩ := ih.mp hrest
            refine ⟨_, after, .checked hresolve hparse hissues hbefore, hafter, ?_⟩
            simp [Report.append]
      · rintro ⟨before, after, hbefore, hafter, rfl⟩
        cases hbefore with
        | rejected hresolve hparse hfile hrest =>
            exact .rejected hresolve hparse hfile (ih.mpr ⟨_, after, hrest, hafter, rfl⟩)
        | checked hresolve hparse hissues hrest =>
            have hall := Accounts.checked hresolve hparse hissues
              (ih.mpr ⟨_, after, hrest, hafter, rfl⟩)
            simpa [Report.append] using hall

theorem length_add {paths : List Path} {report : Report}
    (haccounts : workspace.Accounts config rules paths report) :
    report.files.length + report.errors.length = paths.length := by
  induction haccounts with
  | none => rfl
  | rejected _ _ _ _ ih => simp only [List.length_cons]; omega
  | checked _ _ _ _ ih => simp only [List.length_cons]; omega

end Accounts

theorem checkPaths_append_eq_ok_iff {first second : List Path} {report : Report} :
    (workspace.checkPaths (first ++ second) config rules).outcome = .ok report ↔
      ∃ before after, (workspace.checkPaths first config rules).outcome = .ok before ∧
        (workspace.checkPaths second config rules).outcome = .ok after ∧
        report = before.append after := by
  have hlisting := workspace.listing_append first second
  simp only [checkPaths_eq_ok_iff, javaFiles, hlisting]
  cases hfirst : (workspace.listing first).ending with
  | error failure => simp
  | ok =>
      simp only [Except.toOption, Option.map_some, Option.getD_some, Accounts.append_iff, ok_bind]
      constructor
      · rintro ⟨hchecks, hending, before, after, hbefore, hafter, rfl⟩
        exact ⟨before, after, ⟨hchecks, trivial, hbefore⟩, ⟨hchecks, hending, hafter⟩, rfl⟩
      · rintro ⟨before, after, ⟨hchecks, -, hbefore⟩, ⟨-, hending, hafter⟩, rfl⟩
        exact ⟨hchecks, hending, before, after, hbefore, hafter, rfl⟩

/--
A run over two lists of paths reports what the runs over each of them report, one after
the other.  Every file is counted once and in order: with its error if it does not parse,
else with its name and with the issues that checking it alone gives.
-/
theorem checkPaths_append (workspace : Workspace) (config : Config)
    (rules : Option (List String)) (first second : List Path) {report : Report}
    (hreturns : (workspace.checkPaths (first ++ second) config rules).outcome = .ok report) :
    (∃ before after, (workspace.checkPaths first config rules).outcome = .ok before ∧
        (workspace.checkPaths second config rules).outcome = .ok after ∧
        report.issues = before.issues ++ after.issues ∧
        report.errors = before.errors ++ after.errors ∧
        report.files = before.files ++ after.files) ∧
      workspace.Accounts config rules (workspace.javaFiles (first ++ second)) report ∧
      report.files.length + report.errors.length =
        (workspace.javaFiles (first ++ second)).length := by
  have haccounts := (checkPaths_eq_ok_iff.mp hreturns).2.2
  refine ⟨?_, haccounts, haccounts.length_add⟩
  obtain ⟨before, after, hbefore, hafter, rfl⟩ := checkPaths_append_eq_ok_iff.mp hreturns
  exact ⟨before, after, hbefore, hafter, rfl, rfl, rfl⟩

/-- A directory with a file that parses, one that does not, and one that is not text. -/
def mixedPackage : Workspace where
  files :=
    ⟨[(["pkg", "A.java"], Text.encode "~ a".toList),
      (["pkg", "B.java"], Text.encode "~".toList), (["pkg", "C.java"], [0xe9])], []⟩
  current := []
  parser text :=
    if text = "~ a".toList then
      .node (.inLine "program" 0 3)
        [.node (.inLine "unary_expression" 0 3) [.leaf "~" 0 1, .leaf "identifier" 2 3]]
    else .node { Java.Info.inLine "ERROR" 0 1 with hasError := true } []

theorem listing_mixedPackage :
    mixedPackage.listing ([.ofText "pkg"] ++ [.ofText "pkg/A.java"]) =
      ⟨[.ofText "pkg/A.java", .ofText "pkg/B.java", .ofText "pkg/C.java",
        .ofText "pkg/A.java"], .ok ()⟩ := by
  have hbelow : mixedPackage.files.filesBelow ["pkg"] ".java" =
      [["A.java"], ["B.java"], ["C.java"]] := by
    apply List.mergeSort_of_pairwise
    decide +kernel
  have hexpand : ∀ path ∈ [Path.ofText "pkg", .ofText "pkg/A.java"],
      mixedPackage.expand path = .ok path := by
    decide +kernel
  have hdirectory : mixedPackage.files.directoryAt? mixedPackage.current (.ofText "pkg") =
      some ["pkg"] := by
    decide +kernel
  have hfile : mixedPackage.files.directoryAt? mixedPackage.current (.ofText "pkg/A.java") =
      none := by
    decide +kernel
  simp only [List.cons_append, List.nil_append, listing, javaFilesAt, hexpand, List.mem_cons,
    true_or, or_true, ok_bind, hdirectory, hfile, hbelow, pure, Except.pure]
  rfl

theorem checkPaths_mixedPackage :
    ∃ before after,
      (mixedPackage.checkPaths [.ofText "pkg"] .default none).outcome = .ok before ∧
      (mixedPackage.checkPaths [.ofText "pkg/A.java"] .default none).outcome = .ok after ∧
      before.files ++ after.files = ["/pkg/A.java", "/pkg/A.java"] ∧
      (before.errors ++ after.errors).map (·.span.file) = ["/pkg/B.java", "/pkg/C.java"] ∧
      (before.issues ++ after.issues).map (·.format) = List.replicate 2
        "/pkg/A.java:1:1: [no-whitespace-after] '~' is followed by whitespace." := by
  have hreturns :
      (mixedPackage.checkPaths ([.ofText "pkg"] ++ [.ofText "pkg/A.java"]) .default none).outcome =
        .ok ⟨List.replicate 2 ⟨.after, "/pkg/A.java", ⟨1, 1⟩, "'~' is followed by whitespace."⟩,
          [⟨⟨"/pkg/B.java", ⟨1, 1⟩, ⟨1, 2⟩⟩, .unexpected⟩,
           ⟨⟨"/pkg/C.java", ⟨1, 1⟩, ⟨1, 1⟩⟩, .notUtf8⟩],
          ["/pkg/A.java", "/pkg/A.java"]⟩ := by
    unfold checkPaths
    rw [listing_mixedPackage]
    decide +kernel
  obtain ⟨⟨before, after, hbefore, hafter, hissues, herrors, hfiles⟩, -⟩ :=
    checkPaths_append mixedPackage .default none _ _ hreturns
  refine ⟨before, after, hbefore, hafter, hfiles.symm, ?_, ?_⟩
  · rw [← herrors]
    rfl
  · rw [← hissues]
    decide +kernel

end Workspace

end TokenSpacing
