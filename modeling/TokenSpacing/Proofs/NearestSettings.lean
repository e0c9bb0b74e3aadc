import Mathlib.Data.List.Infix
import TokenSpacing.Proofs.SettingsFiles

/-!
# The nearest settings win

A search for settings goes up from its start and ends at the first directory that decides it,
either by a settings file of its own or by a project file with a table of this tool.  Project
files are read on the way only where there is no file of its own, and one that cannot be read
ends the search with a failure.  What lies beyond the end of the search does not matter.
-/

namespace TokenSpacing

/-! ## The way up -/

namespace Location

variable {location directory other : Location} {nearer farther : List Location}

theorem mem_ancestry_iff : directory ∈ location.ancestry ↔ directory <+: location := by
  simp only [ancestry, List.mem_map, List.mem_reverse, List.mem_range]
  constructor
  · rintro ⟨length, -, rfl⟩
    exact List.take_prefix length location
  · intro hstarts
    exact ⟨directory.length, by have := hstarts.length_le; omega,
      (List.prefix_iff_eq_take.mp hstarts).symm⟩

theorem pairwise_ancestry (location : Location) :
    location.ancestry.Pairwise fun nearer farther => farther.length < nearer.length := by
  rw [ancestry, List.pairwise_map, List.pairwise_reverse]
  refine List.pairwise_lt_range.imp_of_mem fun hshort hlong hless => ?_
  simp only [List.mem_range] at hshort hlong
  simp only [List.length_take]
  omega

theorem mem_nearer_iff (hsplit : location.ancestry = nearer ++ directory :: farther) :
    other ∈ nearer ↔ other <+: location ∧ directory.length < other.length := by
  have hpairs := pairwise_ancestry location
  rw [hsplit, List.pairwise_append, List.pairwise_cons] at hpairs
  obtain ⟨-, ⟨hfarther, -⟩, hnearer⟩ := hpairs
  rw [← mem_ancestry_iff, hsplit, List.mem_append, List.mem_cons]
  constructor
  · intro hmem
    exact ⟨.inl hmem, hnearer other hmem directory List.mem_cons_self⟩
  · rintro ⟨hmem | rfl | hmem, hlonger⟩
    · exact hmem
    · omega
    · have := hfarther other hmem
      omega

end Location

namespace Workspace

variable {workspace : Workspace} {directory : Location} {failure : Failure}

/-! ## One directory -/

def HasOwn (workspace : Workspace) (directory : Location) : Prop :=
  workspace.files.isFile (directory ++ [configFileName]) = true

def HoldsProject (workspace : Workspace) (directory : Location) (document : Entries) : Prop :=
  ∃ text, workspace.files.read (directory ++ [projectFileName]) = .ok (Text.encode text) ∧
    Toml.read text = .ok document

def HasToolTable (document : Entries) : Prop :=
  ∃ tools entries, document.lookup "tool" = some (.table tools) ∧
    tools.lookup toolName = some (.table entries)

def Decisive (workspace : Workspace) (directory : Location) : Prop :=
  workspace.HasOwn directory ∨
    ∃ document, workspace.HoldsProject directory document ∧ HasToolTable document

/-- The project file of a directory has to be read and cannot be.  Only text that is no
document is an error about the configuration. -/
inductive Fails (workspace : Workspace) (directory : Location) : Failure → Prop
  | notToml {text : List Char} (hown : ¬ workspace.HasOwn directory)
      (hread : workspace.files.read (directory ++ [projectFileName]) = .ok (Text.encode text))
      (htext : Toml.read text = .error .malformed) :
      Fails workspace directory (.config ⟨(directory ++ [projectFileName]).text, .notToml⟩)
  | breaks {failure : Failure} (hown : ¬ workspace.HasOwn directory)
      (hbreaks : workspace.Breaks (directory ++ [projectFileName]) failure) :
      Fails workspace directory failure

def PassedBy (workspace : Workspace) (directory : Location) : Prop :=
  ¬ workspace.Decisive directory ∧ ∀ failure, ¬ workspace.Fails directory failure

def settingsFile (workspace : Workspace) (directory : Location) : Location :=
  if workspace.files.isFile (directory ++ [configFileName]) then directory ++ [configFileName]
  else directory ++ [projectFileName]

theorem isFile_of_read {location : Location} {bytes : List UInt8}
    (hread : workspace.files.read location = .ok bytes) :
    workspace.files.isFile location = true := by
  unfold FileTree.read at hread
  split at hread
  next hfound => simp [FileTree.isFile, hfound]
  next => cases hread

theorem read_ne_error {location : Location} (hfile : workspace.files.isFile location = true)
    (fault : ReadFault) : workspace.files.read location ≠ .error fault := by
  obtain ⟨bytes, hbytes⟩ := Option.isSome_iff_exists.mp hfile
  simp [FileTree.read, hbytes]

theorem toolTable?_eq_some_iff {document : Entries} :
    (∃ entries, toolTable? document = .ok (some entries)) ↔ HasToolTable document := by
  unfold toolTable? HasToolTable
  cases document.lookup "tool" with
  | none => simp
  | some value =>
      cases value with
      | table tools =>
          cases htable : tools.lookup toolName with
          | none => simp [htable]
          | some found => cases found <;> simp [htable]
      | _ => simp

theorem configIn?_of_decisive (hdecisive : workspace.Decisive directory) :
    workspace.configIn? directory = .ok (some (workspace.settingsFile directory)) := by
  cases hown : workspace.files.isFile (directory ++ [configFileName]) with
  | true => simp [configIn?_of_own hown, settingsFile, hown]
  | false =>
      rcases hdecisive with hself | ⟨document, ⟨text, hread, htext⟩, htable⟩
      · cases hown.symm.trans hself
      · obtain ⟨entries, hentries⟩ := toolTable?_eq_some_iff.mpr htable
        rw [configIn?_of_project hown (isFile_of_read hread),
          readSettings_eq_ok_iff.mpr ⟨text, hread, htext⟩, ok_bind, hentries]
        simp [settingsFile, hown, Functor.map, Except.map]

theorem Breaks.isFile {location : Location} (hbreaks : workspace.Breaks location failure) :
    workspace.files.isFile location = true := by
  cases hbreaks with
  | undecodable hread => exact isFile_of_read hread
  | longInteger hread => exact isFile_of_read hread
  | toolsNotTable _ hread => exact isFile_of_read hread

theorem Breaks.ne_config {location : Location} (hbreaks : workspace.Breaks location failure)
    (error : ConfigError) : failure ≠ .config error := by
  rintro rfl
  cases hbreaks

theorem configIn?_of_fails (hfails : workspace.Fails directory failure) :
    workspace.configIn? directory = .error failure := by
  cases hfails with
  | notToml hown hread htext =>
      rw [configIn?_of_project (by simpa [HasOwn] using hown) (isFile_of_read hread),
        readSettings_of_text hread, htext]
      rfl
  | breaks hown hbreaks =>
      exact (configIn?_eq_error_iff hbreaks.ne_config).mpr
        ⟨by simpa [HasOwn] using hown, hbreaks.isFile, hbreaks⟩

theorem decisive_of_configIn? {found : Location}
    (hfound : workspace.configIn? directory = .ok (some found)) : workspace.Decisive directory := by
  rcases configIn?_eq_some hfound with ⟨hown, -⟩ | ⟨hown, hproject, -⟩
  · exact .inl hown
  · rw [configIn?_of_project hown hproject] at hfound
    obtain ⟨table, htable, hsome⟩ := map_eq_ok_iff.mp hfound
    obtain ⟨entries, rfl, -⟩ := Option.map_eq_some_iff.mp hsome
    obtain ⟨document, hdocument, htools⟩ := bind_eq_ok_iff.mp htable
    exact .inr ⟨document, readSettings_eq_ok_iff.mp hdocument,
      toolTable?_eq_some_iff.mp ⟨entries, htools⟩⟩

theorem fails_of_configIn? (hfailure : workspace.configIn? directory = .error failure) :
    workspace.Fails directory failure := by
  cases hown : workspace.files.isFile (directory ++ [configFileName]) with
  | true =>
      rw [configIn?_of_own hown] at hfailure
      cases hfailure
  | false =>
      have hnot : ¬ workspace.HasOwn directory := by simp [HasOwn, hown]
      cases hproject : workspace.files.isFile (directory ++ [projectFileName]) with
      | false =>
          rw [configIn?_of_neither hown hproject] at hfailure
          cases hfailure
      | true =>
          rw [configIn?_of_project hown hproject, map_eq_error_iff, bind_eq_error_iff] at hfailure
          rcases hfailure with hsettings | ⟨document, hdocument, htools⟩
          · rcases readSettings_eq_error hsettings with
              ⟨fault, hread, -⟩ | ⟨text, hread, htext, rfl⟩ | hbreaks
            · exact absurd hread (read_ne_error hproject fault)
            · exact .notToml hnot hread htext
            · exact .breaks hnot hbreaks
          · obtain ⟨rfl, value, hvalue, hkind⟩ := toolTable?_eq_error_iff.mp htools
            obtain ⟨text, hread, htext⟩ := readSettings_eq_ok_iff.mp hdocument
            exact .breaks hnot (.toolsNotTable List.getLast?_concat hread htext hvalue hkind)

theorem configIn?_eq_some_iff {found : Location} :
    workspace.configIn? directory = .ok (some found) ↔
      workspace.Decisive directory ∧ found = workspace.settingsFile directory := by
  constructor
  · intro hfound
    have hdecisive := decisive_of_configIn? hfound
    rw [configIn?_of_decisive hdecisive] at hfound
    cases hfound
    exact ⟨hdecisive, rfl⟩
  · rintro ⟨hdecisive, rfl⟩
    exact configIn?_of_decisive hdecisive

theorem configIn?_eq_failure_iff :
    workspace.configIn? directory = .error failure ↔ workspace.Fails directory failure :=
  ⟨fails_of_configIn?, configIn?_of_fails⟩

theorem configIn?_eq_none_iff :
    workspace.configIn? directory = .ok none ↔ workspace.PassedBy directory := by
  simp only [PassedBy, ← configIn?_eq_failure_iff]
  constructor
  · intro hnone
    refine ⟨fun hdecisive => ?_, by simp [hnone]⟩
    rw [configIn?_of_decisive hdecisive] at hnone
    cases hnone
  · rintro ⟨hdecisive, hfails⟩
    cases hresult : workspace.configIn? directory with
    | error failure => exact absurd hresult (hfails failure)
    | ok found =>
        cases found with
        | none => rfl
        | some found => exact absurd (decisive_of_configIn? hresult) hdecisive

/-! ## The search -/

/-- A search comes to a directory at or above the first one: it passes by all nearer ones. -/
structure Reaches (workspace : Workspace) (first directory : Location) : Prop where
  above : directory <+: first
  passed : ∀ nearer, nearer <+: first → directory.length < nearer.length →
    workspace.PassedBy nearer

variable {start : Path} {first : Location}

theorem reaches_iff_split :
    workspace.Reaches first directory ↔
      ∃ nearer farther, first.ancestry = nearer ++ directory :: farther ∧
        ∀ other ∈ nearer, workspace.configIn? other = .ok none := by
  constructor
  · rintro ⟨habove, hpassed⟩
    obtain ⟨nearer, farther, hsplit⟩ := List.append_of_mem (Location.mem_ancestry_iff.mpr habove)
    refine ⟨nearer, farther, hsplit, fun other hother => configIn?_eq_none_iff.mpr ?_⟩
    obtain ⟨hstarts, hlonger⟩ := (Location.mem_nearer_iff hsplit).mp hother
    exact hpassed other hstarts hlonger
  · rintro ⟨nearer, farther, hsplit, hnearer⟩
    refine ⟨Location.mem_ancestry_iff.mp (by simp [hsplit]), fun other hstarts hlonger => ?_⟩
    exact configIn?_eq_none_iff.mp
      (hnearer other ((Location.mem_nearer_iff hsplit).mpr ⟨hstarts, hlonger⟩))

theorem firstConfig?_ancestry_eq_iff {result : Except Failure (Option Location)}
    (hresult : result ≠ .ok none) :
    workspace.firstConfig? first.ancestry = result ↔
      ∃ directory, workspace.Reaches first directory ∧ workspace.configIn? directory = result := by
  rw [firstConfig?_eq_iff hresult]
  simp only [reaches_iff_split]
  constructor
  · rintro ⟨nearer, directory, farther, hsplit, hnearer, hdirectory⟩
    exact ⟨directory, ⟨nearer, farther, hsplit, hnearer⟩, hdirectory⟩
  · rintro ⟨directory, ⟨nearer, farther, hsplit, hnearer⟩, hdirectory⟩
    exact ⟨nearer, directory, farther, hsplit, hnearer, hdirectory⟩

theorem firstConfig?_ancestry_eq_some_iff {found : Location} :
    workspace.firstConfig? first.ancestry = .ok (some found) ↔
      ∃ directory, workspace.Reaches first directory ∧ workspace.Decisive directory ∧
        found = workspace.settingsFile directory := by
  rw [firstConfig?_ancestry_eq_iff (by simp)]
  simp only [configIn?_eq_some_iff]

theorem firstConfig?_ancestry_eq_error_iff :
    workspace.firstConfig? first.ancestry = .error failure ↔
      ∃ directory, workspace.Reaches first directory ∧ workspace.Fails directory failure := by
  rw [firstConfig?_ancestry_eq_iff (by simp)]
  simp only [configIn?_eq_failure_iff]

theorem firstConfig?_eq_none_iff {directories : List Location} :
    workspace.firstConfig? directories = .ok none ↔
      ∀ directory ∈ directories, workspace.configIn? directory = .ok none := by
  induction directories with
  | nil => simp [firstConfig?]
  | cons first rest ih =>
      rw [List.forall_mem_cons, ← ih, firstConfig?]
      cases workspace.configIn? first with
      | error failure => simp
      | ok found => cases found <;> simp [pure, Except.pure]

/-- Two workspaces have the same files in a directory. -/
def AgreeIn (workspace other : Workspace) (directory : Location) : Prop :=
  ∀ name, workspace.files.files.lookup (directory ++ [name]) =
    other.files.files.lookup (directory ++ [name])

theorem configIn?_of_agreeIn {other : Workspace} (hagree : workspace.AgreeIn other directory) :
    other.configIn? directory = workspace.configIn? directory := by
  have hfiles : ∀ name, other.files.isFile (directory ++ [name]) =
      workspace.files.isFile (directory ++ [name]) := fun name => by
    rw [FileTree.isFile, FileTree.isFile, hagree name]
  cases hown : workspace.files.isFile (directory ++ [configFileName]) with
  | true => rw [configIn?_of_own hown, configIn?_of_own ((hfiles _).trans hown)]
  | false =>
      cases hproject : workspace.files.isFile (directory ++ [projectFileName]) with
      | false =>
          rw [configIn?_of_neither hown hproject,
            configIn?_of_neither ((hfiles _).trans hown) ((hfiles _).trans hproject)]
      | true =>
          obtain ⟨bytes, hbytes⟩ := Option.isSome_iff_exists.mp hproject
          have hread : other.files.read (directory ++ [projectFileName]) =
              workspace.files.read (directory ++ [projectFileName]) := by
            simp only [FileTree.read, ← hagree projectFileName, hbytes]
          rw [configIn?_of_project hown hproject,
            configIn?_of_project ((hfiles _).trans hown) ((hfiles _).trans hproject)]
          simp only [readSettings, hread]

theorem findConfig_of_agreeIn {other : Workspace} (hstart : workspace.StartsAt start first)
    (hreaches : workspace.Reaches first directory) (hdecisive : workspace.Decisive directory)
    (hother : other.StartsAt start first)
    (hagree : ∀ inner, inner <+: first → directory.length ≤ inner.length →
      workspace.AgreeIn other inner) :
    other.findConfig start = workspace.findConfig start := by
  have hpassed : other.Reaches first directory := by
    refine ⟨hreaches.above, fun nearer hstarts hlonger => ?_⟩
    rw [← configIn?_eq_none_iff, configIn?_of_agreeIn (hagree nearer hstarts hlonger.le)]
    exact configIn?_eq_none_iff.mpr (hreaches.passed nearer hstarts hlonger)
  have hfound := configIn?_of_decisive hdecisive
  have hsame := configIn?_of_agreeIn (hagree directory hreaches.above le_rfl)
  rw [findConfig_eq_ok_iff.mpr ⟨first, hstart,
      (firstConfig?_ancestry_eq_iff (by simp)).mpr ⟨directory, hreaches, hfound⟩⟩,
    findConfig_eq_ok_iff]
  exact ⟨first, hother, (firstConfig?_ancestry_eq_iff (by simp)).mpr
    ⟨directory, hpassed, hsame.trans hfound⟩⟩

/--
A search finds the settings file of the nearest decisive directory, nothing if it passes by
all of them, and fails with the first project file that fails, or at once if it is to start
from an unknown home directory.  The files beyond the decisive directory do not matter.
-/
theorem findConfig_nearest (workspace : Workspace) (start : Path) :
    (∀ found, workspace.findConfig start = .ok (some found) ↔
        ∃ first directory, workspace.StartsAt start first ∧ workspace.Reaches first directory ∧
          workspace.Decisive directory ∧ found = workspace.settingsFile directory) ∧
      (workspace.findConfig start = .ok none ↔
        ∃ first, workspace.StartsAt start first ∧
          ∀ directory, directory <+: first → workspace.PassedBy directory) ∧
      (∀ failure, workspace.findConfig start = .error failure ↔
        (workspace.Homeless start ∧ failure = .unknownHome) ∨
          ∃ first directory, workspace.StartsAt start first ∧
            workspace.Reaches first directory ∧ workspace.Fails directory failure) ∧
      ∀ (other : Workspace) (first directory : Location), workspace.StartsAt start first →
        workspace.Reaches first directory → workspace.Decisive directory →
        other.StartsAt start first →
        (∀ inner, inner <+: first → directory.length ≤ inner.length →
          workspace.AgreeIn other inner) →
        other.findConfig start = workspace.findConfig start := by
  refine ⟨fun found => ?_, ?_, fun failure => ?_,
    fun other first directory => findConfig_of_agreeIn⟩
  · simp only [findConfig_eq_ok_iff, firstConfig?_ancestry_eq_some_iff, exists_and_left]
  · simp only [findConfig_eq_ok_iff, firstConfig?_eq_none_iff, Location.mem_ancestry_iff,
      configIn?_eq_none_iff]
  · simp only [findConfig_eq_error_iff, firstConfig?_ancestry_eq_error_iff, exists_and_left]

def nestedSettings : Workspace where
  files := ⟨[(["lib", "core", "pyproject.toml"], Text.encode "x = 1".toList),
    (["lib", "nowhitespace.toml"], []), (["pyproject.toml"], Text.encode "[".toList)], []⟩
  current := ["lib", "core"]
  parser _ := .leaf "program" 0 0

example :
    nestedSettings.findConfig (.ofText ".") = .ok (some ["lib", "nowhitespace.toml"]) ∧
      nestedSettings.findConfig (.ofText "/") =
        .error (.config ⟨"/pyproject.toml", .notToml⟩) ∧
      nestedSettings.findConfig (.ofText "~/lib") = .error .unknownHome := by
  decide +kernel

def latinProject : Workspace where
  files := ⟨[(["pyproject.toml"], [0xe9])], []⟩
  current := []
  parser _ := .leaf "program" 0 0

/-- A project file that is no text at all ends the search, but with no error about the
configuration. -/
theorem findConfig_latinProject :
    ¬ latinProject.HasOwn [] ∧ latinProject.files.read ["pyproject.toml"] = .ok [0xe9] ∧
      (∀ text, [0xe9] ≠ Text.encode text) ∧
      ¬ ∃ error, latinProject.findConfig (.ofText ".") = .error (.config error) := by
  have hbroken : latinProject.findConfig (.ofText ".") = .error .undecodableSettings := by
    decide +kernel
  exact ⟨Bool.false_ne_true, rfl, byte_ne_encode, by simp [hbroken]⟩

end Workspace

end TokenSpacing
