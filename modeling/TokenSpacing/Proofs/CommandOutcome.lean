import TokenSpacing.Proofs.Json
import TokenSpacing.Proofs.Reports

/-!
# How a check of files ends

A run that fails at its settings or at a file it cannot read gives status two and prints
nothing but the reason.  Every other run that gives a status prints its whole report, and
the status says whether all files parse and whether there are issues.
-/

namespace TokenSpacing

namespace Workspace

variable {workspace : Workspace} {config : Config} {rules : Option (List String)}

def parseError? (workspace : Workspace) (path : Path) : Option ParseError :=
  match (workspace.parseFile path).outcome with
  | .error (.parse error) => some error
  | _ => none

theorem parseError?_eq_some_iff {path : Path} {error : ParseError} :
    workspace.parseError? path = some error ↔
      (workspace.parseFile path).outcome = .error (.parse error) := by
  unfold parseError?
  split
  next other hother => simp [hother]
  next hother =>
    constructor
    · intro hnone
      cases hnone
    · intro herror
      exact absurd herror (hother error)

theorem Accounts.errors_eq {paths : List Path} {report : Report}
    (haccounts : workspace.Accounts config rules paths report) :
    report.errors = paths.filterMap workspace.parseError? := by
  induction haccounts with
  | none => rfl
  | rejected _ hparse _ _ ih =>
      rw [List.filterMap_cons_some (parseError?_eq_some_iff.mpr hparse), ← ih]
  | checked _ hparse _ _ ih =>
      rw [List.filterMap_cons_none (by simp [parseError?, hparse]), ← ih]

theorem errors_of_checkPaths {paths : List Path} {report : Report}
    (hreport : (workspace.checkPaths paths config rules).outcome = .ok report) :
    report.errors = (workspace.javaFiles paths).filterMap workspace.parseError? :=
  (checkPaths_eq_ok_iff.mp hreport).2.2.errors_eq

end Workspace

namespace Failure

/-- A failure that is told to the user: wrong settings, or a file that cannot be read. -/
inductive IsMendable : Failure → Prop
  | config (error : ConfigError) : IsMendable (.config error)
  | unreadable (location : String) (fault : ReadFault) : IsMendable (.unreadable location fault)

end Failure

namespace CommandLine

namespace CheckRequest

variable {request : CheckRequest} {workspace : Workspace} {failure : Failure}

/-- The step at which a run fails, with everything before it done. -/
inductive Raises (request : CheckRequest) (workspace : Workspace) : Failure → Prop
  | naming {failure : Failure} (hpath : request.configPath = .error failure) :
      Raises request workspace failure
  | loading {path : Option Path} {failure : Failure} (hpath : request.configPath = .ok path)
      (hload : (workspace.loadConfig path (request.paths.head?.map Path.ofText)).outcome =
        .error failure) :
      Raises request workspace failure
  | overriding {path : Option Path} {loaded : Config} {failure : Failure}
      (hpath : request.configPath = .ok path)
      (hload : (workspace.loadConfig path (request.paths.head?.map Path.ofText)).outcome =
        .ok loaded)
      (hoverride : request.override loaded = .error failure) :
      Raises request workspace failure
  | choosing {config : Config} {failure : Failure}
      (hsettings : (request.settings workspace).outcome = .ok config)
      (hkeys : request.ruleKeys = .error failure) :
      Raises request workspace failure
  | checking {config : Config} {keys : Option (List String)} {failure : Failure}
      (hsettings : (request.settings workspace).outcome = .ok config)
      (hkeys : request.ruleKeys = .ok keys)
      (hcheck : (workspace.checkPaths (request.paths.map Path.ofText) config keys).outcome =
        .error failure) :
      Raises request workspace failure

/-- A run comes to a report: the settings and the rules are settled and all files are gone
through. -/
structure Reports (request : CheckRequest) (workspace : Workspace) (config : Config)
    (keys : Option (List String)) (report : Report) : Prop where
  hsettings : (request.settings workspace).outcome = .ok config
  hkeys : request.ruleKeys = .ok keys
  hreport : (workspace.checkPaths (request.paths.map Path.ofText) config keys).outcome = .ok report

theorem outcome_settings (request : CheckRequest) (workspace : Workspace) :
    (request.settings workspace).outcome =
      (request.configPath >>= fun path =>
        (workspace.loadConfig path (request.paths.head?.map Path.ofText)).outcome >>=
          request.override) := by
  simp [settings]

theorem outcome_report (request : CheckRequest) (workspace : Workspace) :
    (request.report workspace).outcome =
      ((request.settings workspace).outcome >>= fun config =>
        request.ruleKeys >>= fun keys =>
          (workspace.checkPaths (request.paths.map Path.ofText) config keys).outcome) := by
  simp [report]

theorem report_eq_ok_iff {report : Report} :
    (request.report workspace).outcome = .ok report ↔
      ∃ config keys, request.Reports workspace config keys report := by
  simp only [outcome_report, bind_eq_ok_iff]
  constructor
  · rintro ⟨config, hsettings, keys, hkeys, hreport⟩
    exact ⟨config, keys, hsettings, hkeys, hreport⟩
  · rintro ⟨config, keys, hsettings, hkeys, hreport⟩
    exact ⟨config, hsettings, keys, hkeys, hreport⟩

theorem report_eq_error_iff :
    (request.report workspace).outcome = .error failure ↔ request.Raises workspace failure := by
  rw [outcome_report, bind_eq_error_iff]
  constructor
  · rintro (hsettings | ⟨config, hsettings, hmore⟩)
    · rw [outcome_settings, bind_eq_error_iff] at hsettings
      rcases hsettings with hpath | ⟨path, hpath, hload⟩
      · exact .naming hpath
      · rcases bind_eq_error_iff.mp hload with hload | ⟨loaded, hload, hoverride⟩
        · exact .loading hpath hload
        · exact .overriding hpath hload hoverride
    · rcases bind_eq_error_iff.mp hmore with hkeys | ⟨keys, hkeys, hcheck⟩
      · exact .choosing hsettings hkeys
      · exact .checking hsettings hkeys hcheck
  · intro hraises
    cases hraises with
    | naming hpath => simp [outcome_settings, hpath]
    | loading hpath hload => simp [outcome_settings, hpath, hload]
    | overriding hpath hload hoverride => simp [outcome_settings, hpath, hload, hoverride]
    | choosing hsettings hkeys => simp [hsettings, hkeys]
    | checking hsettings hkeys hcheck => simp [hsettings, hkeys, hcheck]

theorem isMendable_iff : failure.IsMendable ↔ ∃ reason, reason? failure = some reason := by
  constructor
  · intro hmendable
    cases hmendable with
    | config error => exact ⟨_, rfl⟩
    | unreadable location fault => exact ⟨_, rfl⟩
  · rintro ⟨reason, hreason⟩
    cases failure with
    | config error => exact .config error
    | unreadable location fault => exact .unreadable location fault
    | _ => cases hreason

/-- A text shows exactly these issues in this order, one line for each or as one list. -/
inductive Shows (issues : List Issue) : OutputFormat → String → Prop
  | text : Shows issues .text (String.join (issues.map fun issue => issue.format ++ "\n"))
  | json {document : String}
      (hread : Json.read? document = some (.array (issues.map Issue.toJson))) :
      Shows issues .json document

theorem shows_showIssues (format : OutputFormat) (issues : List Issue) :
    Shows issues format (showIssues format issues) := by
  cases format with
  | text => exact .text
  | json => exact .json (read?_showIssues issues)

theorem statusOf_eq {paths : List Path} {config : Config} {keys : Option (List String)}
    {report : Report} (hreport : (workspace.checkPaths paths config keys).outcome = .ok report) :
    statusOf report =
      if (workspace.javaFiles paths).any fun path => (workspace.parseError? path).isSome then 2
      else if report.issues ≠ [] then 1
      else 0 := by
  have hparse : report.errors = [] ↔
      ∀ path ∈ workspace.javaFiles paths, workspace.parseError? path = none := by
    rw [Workspace.errors_of_checkPaths hreport, List.filterMap_eq_nil_iff]
  by_cases hall : report.errors = []
  · have hnone := hparse.mp hall
    by_cases hclean : report.issues = [] <;> simp_all [statusOf]
  · have hsome : ¬ ∀ path ∈ workspace.javaFiles paths, workspace.parseError? path = none :=
      fun hnone => hall (hparse.mpr hnone)
    simp_all [statusOf, Option.isSome_iff_ne_none]

theorem outcomeOf_of_mendable (request : CheckRequest) {logged : Logged Report}
    (hlogged : logged.outcome = .error failure)
    (hmendable : failure.IsMendable) :
    ∃ reason, request.outcomeOf logged =
      ⟨.status 2, "", showLog request.verbosity logged.log ++ "error: " ++ reason ++ "\n"⟩ := by
  obtain ⟨reason, hreason⟩ := isMendable_iff.mp hmendable
  exact ⟨reason, by simp only [outcomeOf, hlogged, hreason]⟩

theorem outcomeOf_of_report {logged : Logged Report} {report : Report}
    (hlogged : logged.outcome = .ok report) :
    request.outcomeOf logged =
      ⟨.status (statusOf report), showIssues request.format report.issues,
        showLog request.verbosity logged.log ++ showErrors report.errors⟩ := by
  simp only [outcomeOf, hlogged]

theorem mendable_of_status {logged : Logged Report} {code : Nat}
    (hlogged : logged.outcome = .error failure)
    (hstatus : (request.outcomeOf logged).exit = .status code) : failure.IsMendable := by
  simp only [outcomeOf, hlogged] at hstatus
  cases hreason : reason? failure with
  | some reason => exact isMendable_iff.mpr ⟨reason, hreason⟩
  | none => simp [hreason] at hstatus

end CheckRequest

theorem check_of_accepted {workspace : Workspace} {arguments : List String}
    {request : CheckRequest}
    (haccepted : CheckRequest.grammar.parse .defaults arguments = .ok request) :
    check workspace arguments = request.outcomeOf (request.report workspace) := by
  simp only [check, haccepted]

open CheckRequest in
/--
How a run with accepted arguments ends.  If it fails at the settings or at a file that
cannot be read, it gives status two and prints no issue, not even of the files before.  If
it comes to a report, it prints exactly the issues of the report, tells every file that
does not parse, and the status depends on these two.  It gives no status otherwise.
-/
theorem check_status (workspace : Workspace) (arguments : List String) {request : CheckRequest}
    (haccepted : CheckRequest.grammar.parse .defaults arguments = .ok request) :
    (∀ failure, request.Raises workspace failure → failure.IsMendable →
      (check workspace arguments).exit = .status 2 ∧
      (check workspace arguments).stdout = "" ∧
      ∃ reason, (check workspace arguments).stderr =
        showLog request.verbosity (request.report workspace).log ++ "error: " ++ reason ++ "\n") ∧
    (∀ config keys report, request.Reports workspace config keys report →
      (check workspace arguments).exit =
        .status
          (if (workspace.javaFiles (request.paths.map Path.ofText)).any fun path =>
              (workspace.parseError? path).isSome then 2
            else if report.issues ≠ [] then 1
            else 0) ∧
      Shows report.issues request.format (check workspace arguments).stdout ∧
      (check workspace arguments).stderr =
        showLog request.verbosity (request.report workspace).log ++
          String.join (((workspace.javaFiles (request.paths.map Path.ofText)).filterMap
            workspace.parseError?).map fun error => "error: " ++ error.message ++ "\n")) ∧
    ∀ code, (check workspace arguments).exit = .status code →
      (∃ failure, request.Raises workspace failure ∧ failure.IsMendable) ∨
        ∃ config keys report, request.Reports workspace config keys report := by
  rw [check_of_accepted haccepted]
  refine ⟨?_, ?_, ?_⟩
  · intro failure hraises hmendable
    obtain ⟨reason, hends⟩ := outcomeOf_of_mendable request
      (report_eq_error_iff.mpr hraises) hmendable
    rw [hends]
    exact ⟨rfl, rfl, reason, rfl⟩
  · intro config keys report hreports
    rw [outcomeOf_of_report (report_eq_ok_iff.mpr ⟨config, keys, hreports⟩),
      statusOf_eq hreports.hreport, ← Workspace.errors_of_checkPaths hreports.hreport]
    exact ⟨rfl, shows_showIssues _ _, rfl⟩
  · intro code hstatus
    cases hreport : (request.report workspace).outcome with
    | ok report =>
        obtain ⟨config, keys, hreports⟩ := report_eq_ok_iff.mp hreport
        exact .inr ⟨config, keys, report, hreports⟩
    | error failure =>
        exact .inl ⟨failure, report_eq_error_iff.mp hreport, mendable_of_status hreport hstatus⟩

open CheckRequest in
theorem check_mixedPackage :
    (check Workspace.mixedPackage ["pkg/A.java", "pkg/B.java"]).exit = .status 2 ∧
    (check Workspace.mixedPackage ["pkg/A.java", "pkg/B.java"]).stdout =
      "/pkg/A.java:1:1: [no-whitespace-after] '~' is followed by whitespace.\n" ∧
    (check Workspace.mixedPackage ["pkg/A.java", "pkg/D.java"]).exit = .status 2 ∧
    (check Workspace.mixedPackage ["pkg/A.java", "pkg/D.java"]).stdout = "" := by
  let pair : CheckRequest := { CheckRequest.defaults with paths := ["pkg/A.java", "pkg/B.java"] }
  let missing : CheckRequest := { CheckRequest.defaults with paths := ["pkg/A.java", "pkg/D.java"] }
  have hpair : CheckRequest.grammar.parse .defaults ["pkg/A.java", "pkg/B.java"] = .ok pair := by
    decide +kernel
  have hmissing : CheckRequest.grammar.parse .defaults ["pkg/A.java", "pkg/D.java"] =
      .ok missing := by
    decide +kernel
  have hreport : (pair.report Workspace.mixedPackage).outcome =
        .ok ⟨[⟨.after, "/pkg/A.java", ⟨1, 1⟩, "'~' is followed by whitespace."⟩],
          [⟨⟨"/pkg/B.java", ⟨1, 1⟩, ⟨1, 2⟩⟩, .unexpected⟩], ["/pkg/A.java"]⟩ := by
    decide +kernel
  have hfailure : (missing.report Workspace.mixedPackage).outcome =
      .error (.unreadable "/pkg/D.java" .notFound) := by
    decide +kernel
  obtain ⟨config, keys, hreports⟩ := report_eq_ok_iff.mp hreport
  obtain ⟨hstatus, hshows, -⟩ := (check_status _ _ hpair).2.1 config keys _ hreports
  obtain ⟨htwo, hempty, -⟩ := (check_status _ _ hmissing).1 _ (report_eq_error_iff.mp hfailure)
    (.unreadable _ _)
  refine ⟨?_, ?_, htwo, hempty⟩
  · rw [hstatus]
    exact congrArg Exit.status (by decide +kernel)
  · generalize (check Workspace.mixedPackage ["pkg/A.java", "pkg/B.java"]).stdout = shown at hshows
    cases hshows
    decide +kernel

end CommandLine

end TokenSpacing
