import TokenSpacing.Files.Workspace
import TokenSpacing.Proofs.Outcomes
import TokenSpacing.Proofs.Utf8

/-!
# Which settings files end a run

Reading the settings ends with a configuration, with an error about the configuration, or
by a file that breaks the run: it is not text, it holds an integer with too many digits,
or it is a project file whose tools are no table.  Files that are never consulted cannot
break anything.
-/

namespace TokenSpacing

namespace Workspace

/-- Reading the settings file at a location breaks the run. -/
inductive Breaks (workspace : Workspace) (location : Location) : Failure → Prop
  | undecodable {bytes : List UInt8} (hread : workspace.files.read location = .ok bytes)
      (hbytes : ∀ text, bytes ≠ Text.encode text) :
      Breaks workspace location .undecodableSettings
  | longInteger {text : List Char} (hread : workspace.files.read location = .ok (Text.encode text))
      (htext : Toml.read text = .error .longInteger) : Breaks workspace location .longInteger
  | toolsNotTable {text : List Char} {document : Entries} {value : Value}
      (hname : location.getLast? = some projectFileName)
      (hread : workspace.files.read location = .ok (Text.encode text))
      (htext : Toml.read text = .ok document) (htools : document.lookup "tool" = some value)
      (hkind : ∀ tools, value ≠ .table tools) : Breaks workspace location .toolsNotTable

/-- The system does not know the home directory that a path starts from, or gives a name
for it that starts from a home directory itself. -/
def Homeless (workspace : Workspace) (path : Path) : Prop :=
  ∃ user, path.user? = some user ∧
    ∀ home, workspace.homes.home? user = some home → ['~'] <+: home.toList

def StartsAt (workspace : Workspace) (start : Path) (directory : Location) : Prop :=
  ∃ location, workspace.resolve start = .ok location ∧
    directory = workspace.startDirectory location

/-- The settings files that are read for a given path or for the start of a search.  A
search reads nothing beyond the first directory that has a settings file, and no project
file beside a file of its own. -/
inductive Consults (workspace : Workspace) : Option Path → Option Path → Location → Prop
  | given {path : Path} {location : Location} (start : Option Path)
      (hgiven : workspace.resolve path = .ok location) :
      Consults workspace (some path) start location
  | own {start : Option Path} {nearer farther : List Location} {first directory : Location}
      (hstart : workspace.StartsAt (start.getD (.ofText ".")) first)
      (hsearch : first.ancestry = nearer ++ directory :: farther)
      (hnearer : ∀ other ∈ nearer, workspace.configIn? other = .ok none)
      (hown : workspace.files.isFile (directory ++ [configFileName]) = true) :
      Consults workspace none start (directory ++ [configFileName])
  | project {start : Option Path} {nearer farther : List Location} {first directory : Location}
      (hstart : workspace.StartsAt (start.getD (.ofText ".")) first)
      (hsearch : first.ancestry = nearer ++ directory :: farther)
      (hnearer : ∀ other ∈ nearer, workspace.configIn? other = .ok none)
      (hown : workspace.files.isFile (directory ++ [configFileName]) = false)
      (hproject : workspace.files.isFile (directory ++ [projectFileName]) = true) :
      Consults workspace none start (directory ++ [projectFileName])

variable {workspace : Workspace} {location directory : Location} {failure : Failure}

/-! ## One file -/

theorem read_cases (workspace : Workspace) (location : Location) :
    (∃ fault, workspace.files.read location = .error fault) ∨
      (∃ text, workspace.files.read location = .ok (Text.encode text)) ∨
      ∃ bytes, workspace.files.read location = .ok bytes ∧ ∀ text, bytes ≠ Text.encode text := by
  cases workspace.files.read location with
  | error fault => exact .inl ⟨fault, rfl⟩
  | ok bytes =>
      by_cases htext : ∃ text, bytes = Text.encode text
      · obtain ⟨text, rfl⟩ := htext
        exact .inr (.inl ⟨text, rfl⟩)
      · exact .inr (.inr ⟨bytes, rfl, not_exists.mp htext⟩)

theorem readSettings_of_fault {fault : ReadFault}
    (hread : workspace.files.read location = .error fault) :
    workspace.readSettings location = .error (.config ⟨location.text, .unreadable fault⟩) := by
  rw [readSettings, hread]

theorem readSettings_of_bytes {bytes : List UInt8}
    (hread : workspace.files.read location = .ok bytes)
    (hbytes : ∀ text, bytes ≠ Text.encode text) :
    workspace.readSettings location = .error .undecodableSettings := by
  have hdecode : Text.decode? bytes = none := by
    apply Option.eq_none_iff_forall_ne_some.mpr
    intro text htext
    exact hbytes text (Text.decode?_eq_some_iff.mp htext)
  simp only [readSettings, hread, hdecode]

def documentFailure (location : Location) : Toml.Fault → Failure
  | .malformed => .config ⟨location.text, .notToml⟩
  | .longInteger => .longInteger

theorem readSettings_of_text {text : List Char}
    (hread : workspace.files.read location = .ok (Text.encode text)) :
    workspace.readSettings location = (Toml.read text).mapError (documentFailure location) := by
  simp only [readSettings, hread, Text.decode?_encode]
  cases Toml.read text with
  | ok document => rfl
  | error fault => cases fault <;> rfl

theorem readSettings_eq_ok_iff {document : Entries} :
    workspace.readSettings location = .ok document ↔
      ∃ text, workspace.files.read location = .ok (Text.encode text) ∧
        Toml.read text = .ok document := by
  constructor
  · intro hsettings
    rcases workspace.read_cases location with
      ⟨fault, hread⟩ | ⟨text, hread⟩ | ⟨bytes, hread, hbytes⟩
    · rw [readSettings_of_fault hread] at hsettings
      cases hsettings
    · rw [readSettings_of_text hread, mapError_eq_ok_iff] at hsettings
      exact ⟨text, hread, hsettings⟩
    · rw [readSettings_of_bytes hread hbytes] at hsettings
      cases hsettings
  · rintro ⟨text, hread, htext⟩
    rw [readSettings_of_text hread, htext]
    rfl

theorem toolTable?_eq_error_iff {project : Entries} :
    toolTable? project = .error failure ↔
      failure = .toolsNotTable ∧
        ∃ value, project.lookup "tool" = some value ∧ ∀ tools, value ≠ .table tools := by
  unfold toolTable?
  cases project.lookup "tool" with
  | none => simp
  | some value =>
      cases value with
      | table tools =>
          simp only [Option.some.injEq]
          split <;> simp
      | _ => simp [eq_comm]

theorem readSettings_eq_error (hsettings : workspace.readSettings location = .error failure) :
    (∃ fault, workspace.files.read location = .error fault ∧
        failure = .config ⟨location.text, .unreadable fault⟩) ∨
      (∃ text, workspace.files.read location = .ok (Text.encode text) ∧
        Toml.read text = .error .malformed ∧ failure = .config ⟨location.text, .notToml⟩) ∨
      workspace.Breaks location failure := by
  rcases workspace.read_cases location with ⟨fault, hread⟩ | ⟨text, hread⟩ | ⟨bytes, hread, hbytes⟩
  · rw [readSettings_of_fault hread] at hsettings
    exact .inl ⟨fault, hread, (Except.error.inj hsettings).symm⟩
  · rw [readSettings_of_text hread] at hsettings
    obtain ⟨fault, htext, hfailure⟩ := mapError_eq_error_iff.mp hsettings
    cases fault with
    | malformed => exact .inr (.inl ⟨text, hread, htext, hfailure.symm⟩)
    | longInteger =>
        cases hfailure
        exact .inr (.inr (.longInteger hread htext))
  · rw [readSettings_of_bytes hread hbytes] at hsettings
    cases hsettings
    exact .inr (.inr (.undecodable hread hbytes))

def settingsTable (workspace : Workspace) (location : Location) : Except Failure Entries :=
  workspace.readSettings location >>= fun document =>
    if location.getLast? = some projectFileName then (·.getD []) <$> toolTable? document
    else pure document

theorem loadFile_eq (workspace : Workspace) (location : Location) :
    workspace.loadFile location =
      (workspace.settingsTable location >>= fun table =>
        (Config.ofEntries location.text table).mapError .config) := by
  unfold loadFile settingsTable
  rw [bind_assoc]
  congr 1
  funext document
  by_cases hname : location.getLast? = some projectFileName
  · simp only [hname, if_true, map_eq_pure_bind, bind_assoc, pure_bind]
    refine bind_congr fun table => ?_
    cases Config.ofEntries location.text (table.getD []) <;> rfl
  · simp only [hname, if_false, pure_bind]
    cases Config.ofEntries location.text document <;> rfl

theorem settingsTable_eq_error_iff (hother : ∀ error, failure ≠ .config error) :
    workspace.settingsTable location = .error failure ↔ workspace.Breaks location failure := by
  constructor
  · intro htable
    rcases bind_eq_error_iff.mp htable with hsettings | ⟨document, hdocument, hproject⟩
    · rcases readSettings_eq_error hsettings with ⟨_, -, hconfig⟩ | ⟨_, -, -, hconfig⟩ | hbreaks
      · exact absurd hconfig (hother _)
      · exact absurd hconfig (hother _)
      · exact hbreaks
    · split at hproject
      next hname =>
        rw [map_eq_pure_bind] at hproject
        rcases bind_eq_error_iff.mp hproject with htools | ⟨table, -, hdone⟩
        · obtain ⟨rfl, value, hvalue, hkind⟩ := toolTable?_eq_error_iff.mp htools
          obtain ⟨text, hread, htext⟩ := readSettings_eq_ok_iff.mp hdocument
          exact .toolsNotTable hname hread htext hvalue hkind
        · cases hdone
      next => cases hproject
  · intro hbreaks
    refine bind_eq_error_iff.mpr ?_
    cases hbreaks with
    | undecodable hread hbytes => exact .inl (readSettings_of_bytes hread hbytes)
    | longInteger hread htext =>
        left
        rw [readSettings_of_text hread, htext]
        rfl
    | @toolsNotTable text document value hname hread htext htools hkind =>
        have hbroken := toolTable?_eq_error_iff.mpr ⟨rfl, value, htools, hkind⟩
        refine .inr ⟨document, readSettings_eq_ok_iff.mpr ⟨text, hread, htext⟩, ?_⟩
        rw [if_pos hname, hbroken]
        rfl

theorem loadFile_eq_error_iff (hother : ∀ error, failure ≠ .config error) :
    workspace.loadFile location = .error failure ↔ workspace.Breaks location failure := by
  rw [loadFile_eq, ← settingsTable_eq_error_iff hother, bind_eq_error_iff]
  constructor
  · rintro (htable | ⟨table, -, hread⟩)
    · exact htable
    · obtain ⟨error, -, hconfig⟩ := mapError_eq_error_iff.mp hread
      exact absurd hconfig.symm (hother error)
  · exact .inl

/-! ## The search -/

theorem configIn?_of_own (hown : workspace.files.isFile (directory ++ [configFileName]) = true) :
    workspace.configIn? directory = .ok (some (directory ++ [configFileName])) := by
  simp [configIn?, hown]

theorem configIn?_of_project
    (hown : workspace.files.isFile (directory ++ [configFileName]) = false)
    (hproject : workspace.files.isFile (directory ++ [projectFileName]) = true) :
    workspace.configIn? directory =
      (·.map fun _ => directory ++ [projectFileName]) <$>
        (workspace.readSettings (directory ++ [projectFileName]) >>= toolTable?) := by
  simp only [configIn?, hown, hproject, if_true, map_eq_pure_bind, bind_assoc]
  rfl

theorem configIn?_of_neither
    (hown : workspace.files.isFile (directory ++ [configFileName]) = false)
    (hproject : workspace.files.isFile (directory ++ [projectFileName]) = false) :
    workspace.configIn? directory = .ok none := by
  simp [configIn?, hown, hproject]

theorem settingsTable_project (workspace : Workspace) (directory : Location) :
    workspace.settingsTable (directory ++ [projectFileName]) =
      (·.getD []) <$> (workspace.readSettings (directory ++ [projectFileName]) >>= toolTable?) := by
  simp [settingsTable]

theorem configIn?_eq_error_iff (hother : ∀ error, failure ≠ .config error) :
    workspace.configIn? directory = .error failure ↔
      workspace.files.isFile (directory ++ [configFileName]) = false ∧
        workspace.files.isFile (directory ++ [projectFileName]) = true ∧
        workspace.Breaks (directory ++ [projectFileName]) failure := by
  cases hown : workspace.files.isFile (directory ++ [configFileName]) with
  | true => simp [configIn?_of_own hown]
  | false =>
      cases hproject : workspace.files.isFile (directory ++ [projectFileName]) with
      | false => simp [configIn?_of_neither hown hproject]
      | true =>
          rw [configIn?_of_project hown hproject, ← settingsTable_eq_error_iff hother,
            settingsTable_project, map_eq_error_iff, map_eq_error_iff]
          simp

theorem configIn?_eq_some {found : Location}
    (hfound : workspace.configIn? directory = .ok (some found)) :
    (workspace.files.isFile (directory ++ [configFileName]) = true ∧
        found = directory ++ [configFileName]) ∨
      workspace.files.isFile (directory ++ [configFileName]) = false ∧
        workspace.files.isFile (directory ++ [projectFileName]) = true ∧
        found = directory ++ [projectFileName] := by
  cases hown : workspace.files.isFile (directory ++ [configFileName]) with
  | true =>
      rw [configIn?_of_own hown] at hfound
      cases hfound
      exact .inl ⟨rfl, rfl⟩
  | false =>
      cases hproject : workspace.files.isFile (directory ++ [projectFileName]) with
      | false =>
          rw [configIn?_of_neither hown hproject] at hfound
          cases hfound
      | true =>
          rw [configIn?_of_project hown hproject] at hfound
          obtain ⟨table, -, htable⟩ := map_eq_ok_iff.mp hfound
          obtain ⟨-, -, hname⟩ := Option.map_eq_some_iff.mp htable
          exact .inr ⟨rfl, rfl, hname.symm⟩

theorem firstConfig?_cons_of_none (farther : List Location)
    (hdirectory : workspace.configIn? directory = .ok none) :
    workspace.firstConfig? (directory :: farther) = workspace.firstConfig? farther := by
  simp [firstConfig?, hdirectory]

theorem firstConfig?_cons_of_ne_none (farther : List Location)
    (hdirectory : workspace.configIn? directory ≠ .ok none) :
    workspace.firstConfig? (directory :: farther) = workspace.configIn? directory := by
  rw [firstConfig?]
  cases hconfig : workspace.configIn? directory with
  | error failure => rfl
  | ok found =>
      cases found with
      | none => exact absurd hconfig hdirectory
      | some found => rfl

theorem firstConfig?_eq_iff {directories : List Location}
    {result : Except Failure (Option Location)} (hresult : result ≠ .ok none) :
    workspace.firstConfig? directories = result ↔
      ∃ nearer directory farther, directories = nearer ++ directory :: farther ∧
        (∀ other ∈ nearer, workspace.configIn? other = .ok none) ∧
        workspace.configIn? directory = result := by
  induction directories with
  | nil =>
      constructor
      · intro hnone
        exact absurd hnone.symm hresult
      · rintro ⟨nearer, directory, farther, hempty, -⟩
        simp at hempty
  | cons first rest ih =>
      by_cases hfirst : workspace.configIn? first = .ok none
      · rw [firstConfig?_cons_of_none rest hfirst, ih]
        constructor
        · rintro ⟨nearer, directory, farther, rfl, hnearer, hdirectory⟩
          exact ⟨first :: nearer, directory, farther, rfl,
            List.forall_mem_cons.mpr ⟨hfirst, hnearer⟩, hdirectory⟩
        · rintro ⟨nearer, directory, farther, hsplit, hnearer, hdirectory⟩
          cases nearer with
          | nil =>
              cases hsplit
              exact absurd (hdirectory.symm.trans hfirst) hresult
          | cons other nearer =>
              cases hsplit
              exact ⟨nearer, directory, farther, rfl, (List.forall_mem_cons.mp hnearer).2,
                hdirectory⟩
      · rw [firstConfig?_cons_of_ne_none rest hfirst]
        constructor
        · intro hconfig
          exact ⟨[], first, rest, rfl, by simp, hconfig⟩
        · rintro ⟨nearer, directory, farther, hsplit, hnearer, hdirectory⟩
          cases nearer with
          | nil =>
              cases hsplit
              exact hdirectory
          | cons other nearer =>
              cases hsplit
              exact absurd (hnearer first List.mem_cons_self) hfirst

theorem resolve_eq_error_iff {path : Path} :
    workspace.resolve path = .error failure ↔
      workspace.Homeless path ∧ failure = .unknownHome := by
  have hresolve : workspace.resolve path = .error failure ↔
      workspace.expand path = .error failure := by
    rw [resolve, bind_eq_error_iff, or_iff_left]
    rintro ⟨expanded, -, hdone⟩
    cases hdone
  rw [hresolve, expand, Homeless]
  cases path.user? with
  | none => simp
  | some user =>
      simp only [Option.some.injEq, exists_eq_left', ← List.isPrefixOf_iff_prefix]
      cases workspace.homes.home? user with
      | none =>
          simp only [Except.error.injEq, reduceCtorEq, false_imp_iff, implies_true, true_and]
          exact eq_comm
      | some home =>
          simp only [Option.some.injEq, forall_eq']
          cases ['~'].isPrefixOf home.toList with
          | true =>
              simp only [if_true, Except.error.injEq, true_and]
              exact eq_comm
          | false => simp

theorem findConfig_eq_ok_iff {start : Path} {found : Option Location} :
    workspace.findConfig start = .ok found ↔
      ∃ first, workspace.StartsAt start first ∧
        workspace.firstConfig? first.ancestry = .ok found := by
  rw [findConfig, bind_eq_ok_iff]
  constructor
  · rintro ⟨location, hlocation, hfound⟩
    exact ⟨_, ⟨location, hlocation, rfl⟩, hfound⟩
  · rintro ⟨_, ⟨location, hlocation, rfl⟩, hfound⟩
    exact ⟨location, hlocation, hfound⟩

theorem findConfig_eq_error_iff {start : Path} :
    workspace.findConfig start = .error failure ↔
      (workspace.Homeless start ∧ failure = .unknownHome) ∨
        ∃ first, workspace.StartsAt start first ∧
          workspace.firstConfig? first.ancestry = .error failure := by
  rw [findConfig, bind_eq_error_iff, resolve_eq_error_iff]
  refine or_congr Iff.rfl ?_
  constructor
  · rintro ⟨location, hlocation, hfailure⟩
    exact ⟨_, ⟨location, hlocation, rfl⟩, hfailure⟩
  · rintro ⟨_, ⟨location, hlocation, rfl⟩, hfailure⟩
    exact ⟨location, hlocation, hfailure⟩

/-! ## Loading -/

theorem outcome_loadConfig_given (workspace : Workspace) (path : Path) (start : Option Path) :
    (workspace.loadConfig (some path) start).outcome =
      (workspace.resolve path >>= workspace.loadFile) :=
  rfl

def asked (path start : Option Path) : Path :=
  path.getD (start.getD (.ofText "."))

theorem outcome_loadConfig_search (workspace : Workspace) (start : Option Path) :
    (workspace.loadConfig none start).outcome =
      (workspace.findConfig (start.getD (.ofText ".")) >>= fun found =>
        (found.map workspace.loadFile).getD (.ok .default)) := by
  simp only [loadConfig, Logged.outcome_sequence, Logged.outcome_ofExcept]
  refine bind_congr fun found => ?_
  cases found with
  | none => simp
  | some location => simp

theorem search_eq_error_iff {start : Option Path} (hother : ∀ error, failure ≠ .config error) :
    ((∃ first, workspace.StartsAt (start.getD (.ofText ".")) first ∧
          workspace.firstConfig? first.ancestry = .error failure) ∨
        ∃ found, workspace.findConfig (start.getD (.ofText ".")) = .ok found ∧
          (found.map workspace.loadFile).getD (.ok .default) = .error failure) ↔
      ∃ location, workspace.Consults none start location ∧
        workspace.Breaks location failure := by
  constructor
  · rintro (⟨first, hstart, hsearch⟩ | ⟨found, hfound, hload⟩)
    · obtain ⟨nearer, directory, farther, hsplit, hnearer, hdirectory⟩ :=
        (firstConfig?_eq_iff (by simp)).mp hsearch
      obtain ⟨hown, hproject, hbreaks⟩ := (configIn?_eq_error_iff hother).mp hdirectory
      exact ⟨_, .project hstart hsplit hnearer hown hproject, hbreaks⟩
    · cases found with
      | none => cases hload
      | some found =>
          obtain ⟨first, hstart, hsearch⟩ := findConfig_eq_ok_iff.mp hfound
          obtain ⟨nearer, directory, farther, hsplit, hnearer, hdirectory⟩ :=
            (firstConfig?_eq_iff (by simp)).mp hsearch
          have hbreaks := (loadFile_eq_error_iff hother).mp hload
          rcases configIn?_eq_some hdirectory with ⟨hown, rfl⟩ | ⟨hown, hproject, rfl⟩
          · exact ⟨_, .own hstart hsplit hnearer hown, hbreaks⟩
          · exact ⟨_, .project hstart hsplit hnearer hown hproject, hbreaks⟩
  · rintro ⟨location, hconsults, hbreaks⟩
    cases hconsults with
    | @own _ nearer farther first directory hstart hsplit hnearer hown =>
        have hsearch := (firstConfig?_eq_iff (by simp)).mpr
          ⟨nearer, directory, farther, hsplit, hnearer, configIn?_of_own hown⟩
        exact .inr ⟨some (directory ++ [configFileName]),
          findConfig_eq_ok_iff.mpr ⟨first, hstart, hsearch⟩,
          (loadFile_eq_error_iff hother).mpr hbreaks⟩
    | @project _ nearer farther first directory hstart hsplit hnearer hown hproject =>
        have hfails := (configIn?_eq_error_iff hother).mpr ⟨hown, hproject, hbreaks⟩
        exact .inl ⟨first, hstart, (firstConfig?_eq_iff (by simp)).mpr
          ⟨nearer, directory, farther, hsplit, hnearer, hfails⟩⟩

theorem loadConfig_eq_error_iff {path start : Option Path}
    (hother : ∀ error, failure ≠ .config error) :
    (workspace.loadConfig path start).outcome = .error failure ↔
      (workspace.Homeless (asked path start) ∧ failure = .unknownHome) ∨
        ∃ location, workspace.Consults path start location ∧
          workspace.Breaks location failure := by
  cases path with
  | some path =>
      rw [outcome_loadConfig_given, bind_eq_error_iff, resolve_eq_error_iff]
      refine or_congr Iff.rfl ?_
      constructor
      · rintro ⟨location, hgiven, hload⟩
        exact ⟨location, .given start hgiven, (loadFile_eq_error_iff hother).mp hload⟩
      · rintro ⟨location, hconsults, hbreaks⟩
        cases hconsults with
        | given _ hgiven =>
            exact ⟨location, hgiven, (loadFile_eq_error_iff hother).mpr hbreaks⟩
  | none =>
      rw [outcome_loadConfig_search, bind_eq_error_iff, findConfig_eq_error_iff, or_assoc]
      exact or_congr Iff.rfl (search_eq_error_iff hother)

/--
Loading the settings returns a configuration or ends in an error about the configuration,
whatever the files hold, if and only if the path does not start from an unknown home
directory and no consulted file breaks the run.
-/
theorem loadConfig_settled_iff (workspace : Workspace) (path start : Option Path) :
    ((∃ config, (workspace.loadConfig path start).outcome = .ok config) ∨
        ∃ error, (workspace.loadConfig path start).outcome = .error (.config error)) ↔
      ¬ workspace.Homeless (asked path start) ∧
        ∀ location, workspace.Consults path start location →
          ∀ failure, ¬ workspace.Breaks location failure := by
  have hunsettled : ∀ failure, (∀ error, failure ≠ .config error) →
      (workspace.loadConfig path start).outcome = .error failure →
      ¬ ((∃ config, (workspace.loadConfig path start).outcome = .ok config) ∨
        ∃ error, (workspace.loadConfig path start).outcome = .error (.config error)) := by
    rintro failure hother hfailure (⟨config, hconfig⟩ | ⟨error, herror⟩)
    · cases hfailure.symm.trans hconfig
    · cases hfailure.symm.trans herror
      exact hother error rfl
  constructor
  · intro hsettled
    constructor
    · intro hhomeless
      have hfailure := (loadConfig_eq_error_iff (by simp)).mpr (.inl ⟨hhomeless, rfl⟩)
      exact hunsettled .unknownHome (by simp) hfailure hsettled
    · intro location hconsults failure hbreaks
      have hother : ∀ error, failure ≠ .config error := by
        rintro error rfl
        cases hbreaks
      have hfailure := (loadConfig_eq_error_iff hother).mpr (.inr ⟨location, hconsults, hbreaks⟩)
      exact hunsettled failure hother hfailure hsettled
  · rintro ⟨hknown, hsound⟩
    cases hload : (workspace.loadConfig path start).outcome with
    | ok config => exact .inl ⟨config, rfl⟩
    | error failure =>
        by_cases hconfig : ∃ error, failure = .config error
        · obtain ⟨error, rfl⟩ := hconfig
          exact .inr ⟨error, rfl⟩
        · rcases (loadConfig_eq_error_iff (not_exists.mp hconfig)).mp hload with
            ⟨hhomeless, -⟩ | ⟨location, hconsults, hbreaks⟩
          · exact absurd hhomeless hknown
          · exact absurd hbreaks (hsound location hconsults failure)

theorem byte_ne_encode (text : List Char) : [0xe9] ≠ Text.encode text := by
  intro htext
  have hbytes : Text.decode? [0xe9] = none := by decide +kernel
  rw [htext, Text.decode?_encode] at hbytes
  cases hbytes

def latinSettings : Workspace where
  files := ⟨[(["nowhitespace.toml"], [0xe9])], []⟩
  current := []
  parser _ := .leaf "program" 0 0

/-- Settings that are not text end the run without an error about the configuration. -/
theorem loadConfig_latinSettings :
    ¬ ((∃ config, (latinSettings.loadConfig none none).outcome = .ok config) ∨
        ∃ error, (latinSettings.loadConfig none none).outcome = .error (.config error)) := by
  have hfound : latinSettings.findConfig (.ofText ".") = .ok (some ["nowhitespace.toml"]) := by
    decide +kernel
  have hbroken : (latinSettings.loadConfig none none).outcome = .error .undecodableSettings := by
    rw [outcome_loadConfig_search, Option.getD_none, hfound, ok_bind, Option.map_some,
      Option.getD_some, loadFile_eq_error_iff (by simp)]
    exact .undecodable rfl byte_ne_encode
  simp [hbroken]

end Workspace

end TokenSpacing
