import TokenSpacing.Proofs.Arguments
import TokenSpacing.Proofs.CommandOutcome
import TokenSpacing.Proofs.Overrides
import TokenSpacing.Proofs.SettingsFiles

/-!
# Where settings come from

A field has the value of the flag for line breaks if it is that field and the flag is
given, else of the last item that sets it, else of the settings file, else its default.
The order of the flag and the items among the arguments does not matter.
-/

namespace TokenSpacing

namespace Workspace

variable {workspace : Workspace}

/-- The table of settings for a run: of the named file, else of the one found above the
start, else an empty one. -/
inductive Uses (workspace : Workspace) (start : Path) : Option Path → Entries → Prop
  | named {path : Path} {location : Location} {table : Entries}
      (hnamed : workspace.resolve path = .ok location)
      (htable : workspace.settingsTable location = .ok table) :
      Uses workspace start (some path) table
  | found {location : Location} {table : Entries}
      (hfound : workspace.findConfig start = .ok (some location))
      (htable : workspace.settingsTable location = .ok table) :
      Uses workspace start none table
  | absent (hfound : workspace.findConfig start = .ok none) : Uses workspace start none []

theorem uses_of_loadConfig {path : Option Path} {start : Path} {config : Config}
    (hload : (workspace.loadConfig path (some start)).outcome = .ok config) :
    ∃ source table, workspace.Uses start path table ∧
      Config.ofEntries source table = .ok config := by
  have hfile : ∀ location, workspace.loadFile location = .ok config →
      ∃ table, workspace.settingsTable location = .ok table ∧
        Config.ofEntries location.text table = .ok config := by
    intro location hlocation
    rw [loadFile_eq] at hlocation
    obtain ⟨table, htable, hread⟩ := bind_eq_ok_iff.mp hlocation
    exact ⟨table, htable, mapError_eq_ok_iff.mp hread⟩
  cases path with
  | some path =>
      rw [outcome_loadConfig_given] at hload
      obtain ⟨location, hnamed, hload⟩ := bind_eq_ok_iff.mp hload
      obtain ⟨table, htable, hread⟩ := hfile location hload
      exact ⟨_, table, .named hnamed htable, hread⟩
  | none =>
      rw [outcome_loadConfig_search] at hload
      obtain ⟨found, hfound, hload⟩ := bind_eq_ok_iff.mp hload
      cases found with
      | some location =>
          obtain ⟨table, htable, hread⟩ := hfile location hload
          exact ⟨_, table, .found hfound htable, hread⟩
      | none =>
          cases hload
          exact ⟨Config.overrideSource, [], .absent hfound, rfl⟩

end Workspace

namespace CommandLine

namespace Given

theorem values?_map_value {α : Type} (values : List α) :
    values? (values.map .value) = some values := by
  induction values with
  | nil => rfl
  | cons first values ih =>
      unfold values? at ih ⊢
      simp [value?, ih]

theorem eq_map_of_values? {α : Type} {given : List (Given α)} {values : List α}
    (hvalues : values? given = some values) : given = values.map .value := by
  unfold values? at hvalues
  induction given generalizing values with
  | nil =>
      cases hvalues
      rfl
  | cons first given ih =>
      cases first with
      | blank => cases hvalues
      | value found =>
          simp only [List.mapM_cons, value?, Option.bind_eq_bind, Option.bind_some,
            Option.bind_eq_some_iff, Option.pure_def, Option.some.injEq] at hvalues
          obtain ⟨others, hothers, rfl⟩ := hvalues
          rw [ih hothers, List.map_cons]

end Given

namespace CheckRequest

variable {request : CheckRequest} {workspace : Workspace} {rule : Rule} {field : Field}

/-- The value of a field by its source: the flag, the last item that sets it, the file, or
the default, whichever comes first. -/
inductive Decides (flag : Option Bool) (items : List String) (table : Entries) (rule : Rule)
    (field : Field) : Bool → Prop
  | flag {value : Bool} (hfield : field = .allowLineBreaks) (hflag : flag = some value) :
      Decides flag items table rule field value
  | item {before after : List String} {item text : String} {value : Bool}
      (hflag : field = .allowLineBreaks → flag = none) (hitems : items = before ++ item :: after)
      (hitem : Override.Sets item rule field text)
      (hlast : ∀ later ∈ after, ∀ other, ¬ Override.Sets later rule field other)
      (hvalue : Value.booleanOfText text = .ok value) :
      Decides flag items table rule field value
  | file {entry : Value} {value : Bool} (hflag : field = .allowLineBreaks → flag = none)
      (hitems : ∀ item ∈ items, ∀ text, ¬ Override.Sets item rule field text)
      (hentry : table.Gives rule field entry) (hvalue : entry.toBoolean = .ok value) :
      Decides flag items table rule field value
  | default (hflag : field = .allowLineBreaks → flag = none)
      (hitems : ∀ item ∈ items, ∀ text, ¬ Override.Sets item rule field text)
      (htable : ∀ entry, ¬ table.Gives rule field entry) :
      Decides flag items table rule field ((Settings.default rule).value field)

/-! ## The flag as overrides -/

def lineBreakItem (value : Bool) (rule : Rule) : String :=
  rule.sectionName ++ ".allow_line_breaks=" ++ if value then "true" else "false"

theorem lineBreakOverrides_some (value : Bool) :
    lineBreakOverrides (some value) = Rule.all.map (lineBreakItem value) :=
  rfl

theorem sets_lineBreakItem (value : Bool) (rule : Rule) :
    Override.Sets (lineBreakItem value rule) rule .allowLineBreaks
      (if value then "true" else "false") := by
  refine ⟨(rule.sectionName ++ ".allow_line_breaks").toList,
    (if value then "true" else "false" : String).toList, "allow_line_breaks".toList, ?_, ?_, ?_, ?_,
    ?_⟩
  · simp [lineBreakItem]
  · cases rule <;> decide
  · cases rule <;> decide +kernel
  · decide +kernel
  · cases value <;> decide +kernel

theorem eq_of_sets_lineBreakItem {value : Bool} {other : Rule} {text : String}
    (hfield : field ∈ rule.fields)
    (hsets : Override.Sets (lineBreakItem value other) rule field text) :
    other = rule ∧ field = .allowLineBreaks := by
  rw [Override.sets_iff, Override.sets_iff.mp (sets_lineBreakItem value other), Except.ok.injEq,
    Override.mk.injEq] at hsets
  obtain ⟨hrule, hname, -⟩ := hsets
  have hbreaks : Field.allowLineBreaks ∈ rule.fields := List.mem_cons_self
  exact ⟨hrule, rule.eq_of_name_eq _ hbreaks field hfield (.inr hname.symm)⟩

theorem exists_lineBreakItem (value : Bool) (rule : Rule) :
    ∃ before after, lineBreakOverrides (some value) = before ++ lineBreakItem value rule :: after ∧
      ∀ later ∈ after, ∀ text, ¬ Override.Sets later rule .allowLineBreaks text := by
  cases rule with
  | after =>
      refine ⟨[], [lineBreakItem value .before], rfl, ?_⟩
      simp only [List.forall_mem_singleton]
      intro text hsets
      have hrule := (eq_of_sets_lineBreakItem List.mem_cons_self hsets).1
      cases hrule
  | before => exact ⟨[lineBreakItem value .after], [], rfl, by simp⟩

theorem not_sets_lineBreakOverrides {flag : Option Bool} (hfield : field ∈ rule.fields)
    (hflag : field = .allowLineBreaks → flag = none) :
    ∀ item ∈ lineBreakOverrides flag, ∀ text, ¬ Override.Sets item rule field text := by
  intro item hitem text hsets
  cases flag with
  | none => cases hitem
  | some value =>
      rw [lineBreakOverrides_some, List.mem_map] at hitem
      obtain ⟨other, -, rfl⟩ := hitem
      cases hflag (eq_of_sets_lineBreakItem hfield hsets).2

/-! ## Precedence -/

theorem decides_of_override {flag : Option Bool} {items : List String} {table : Entries}
    {source : String} {loaded config : Config} (hread : Config.ofEntries source table = .ok loaded)
    (hoverride : loaded.override (items ++ lineBreakOverrides flag) = .ok config)
    (hfield : field ∈ rule.fields) :
    Decides flag items table rule field ((config.settings rule).value field) := by
  by_cases hgiven : field = .allowLineBreaks → flag = none
  · have hbreaks := not_sets_lineBreakOverrides hfield hgiven
    rcases exists_last_or_forall_not (fun item => ∃ text, Override.Sets item rule field text) items
      with ⟨before, item, after, rfl, ⟨text, hitem⟩, hafter⟩ | hnone
    · have hlast : ∀ later ∈ after, ∀ other, ¬ Override.Sets later rule field other :=
        fun later hlater other hother => hafter later hlater ⟨other, hother⟩
      rw [List.append_assoc, List.cons_append] at hoverride
      refine .item hgiven rfl hitem hlast (Config.value_of_last hoverride hfield hitem ?_)
      rw [List.forall_mem_append]
      exact ⟨hlast, hbreaks⟩
    · have huntouched : ∀ item ∈ items, ∀ text, ¬ Override.Sets item rule field text :=
        fun item hitem text htext => hnone item hitem ⟨text, htext⟩
      have hvalue := Config.value_of_untouched hoverride hfield
        (List.forall_mem_append.mpr ⟨huntouched, hbreaks⟩)
      rw [hvalue]
      rcases Config.value_of_ofEntries hread hfield with
        ⟨entry, hentry, hboolean⟩ | ⟨hentry, hdefault⟩
      · exact .file hgiven huntouched hentry hboolean
      · rw [hdefault]
        exact .default hgiven huntouched hentry
  · obtain ⟨rfl, hsome⟩ := Classical.not_imp.mp hgiven
    obtain ⟨value, rfl⟩ := Option.ne_none_iff_exists'.mp hsome
    obtain ⟨before, after, hsplit, hlast⟩ := exists_lineBreakItem value rule
    rw [hsplit, ← List.append_assoc] at hoverride
    have hvalue := Config.value_of_last hoverride hfield (sets_lineBreakItem value rule) hlast
    have htext : Value.booleanOfText (if value then "true" else "false") = .ok value := by
      cases value <;> decide +kernel
    rw [← Except.ok.inj (htext.symm.trans hvalue)]
    exact .flag rfl rfl

theorem override_of_values {items : List String} (hitems : request.overrides = items.map .value)
    (loaded : Config) :
    request.override loaded =
      (loaded.override (items ++ lineBreakOverrides request.allowLineBreaks)).mapError .config := by
  have hall : Given.values? request.allOverrides =
      some (items ++ lineBreakOverrides request.allowLineBreaks) := by
    rw [allOverrides, hitems, ← List.map_append, Given.values?_map_value]
  simp only [override, hall]

theorem override_eq_ok {loaded config : Config} (hoverride : request.override loaded = .ok config) :
    ∃ items, request.overrides = items.map .value ∧
      loaded.override (items ++ lineBreakOverrides request.allowLineBreaks) = .ok config := by
  unfold override at hoverride
  split at hoverride
  next all hall =>
    have hmap := Given.eq_map_of_values? hall
    obtain ⟨items, others, rfl, hitems, hothers⟩ := List.map_eq_append_iff.mp hmap.symm
    obtain rfl := List.map_injective_iff.mpr (fun _ _ => Given.value.inj) hothers
    exact ⟨items, hitems.symm, mapError_eq_ok_iff.mp hoverride⟩
  next => split at hoverride <;> cases hoverride

theorem configPath_eq_ok {path : Option Path} (hpath : request.configPath = .ok path) :
    ∃ text, request.config = Option.map .value text ∧ path = text.map Path.ofText := by
  unfold configPath at hpath
  split at hpath
  next hnone =>
    cases hpath
    exact ⟨none, hnone, rfl⟩
  next text hsome =>
    cases hpath
    exact ⟨some text, hsome, rfl⟩
  next => cases hpath

/-- The sources of the settings besides the flag: the items, and the table of the file that
is named or found above the first path. -/
structure Sources (request : CheckRequest) (workspace : Workspace) (items : List String)
    (table : Entries) : Prop where
  items : request.overrides = items.map .value
  table : ∃ first others path, request.paths = first :: others ∧
    request.config = Option.map .value path ∧
    workspace.Uses (.ofText first) (path.map .ofText) table

theorem decides_of_settings {config : Config} (hpaths : request.paths ≠ [])
    (hsettings : (request.settings workspace).outcome = .ok config) :
    ∃ items table, request.Sources workspace items table ∧
      ∀ rule, ∀ field ∈ rule.fields,
        Decides request.allowLineBreaks items table rule field
          ((config.settings rule).value field) := by
  rw [outcome_settings] at hsettings
  obtain ⟨path, hpath, hload⟩ := bind_eq_ok_iff.mp hsettings
  obtain ⟨loaded, hload, hoverride⟩ := bind_eq_ok_iff.mp hload
  obtain ⟨text, hconfig, rfl⟩ := configPath_eq_ok hpath
  obtain ⟨items, hitems, hoverride⟩ := override_eq_ok hoverride
  obtain ⟨first, others, hfirst⟩ := List.exists_cons_of_ne_nil hpaths
  rw [hfirst] at hload
  obtain ⟨source, table, huses, hread⟩ := Workspace.uses_of_loadConfig hload
  refine ⟨items, table, ⟨hitems, first, others, text, hfirst, hconfig, huses⟩, ?_⟩
  intro rule field hfield
  exact decides_of_override hread hoverride hfield

theorem settings_without {before after : List String} {item text : String}
    (hfield : field ∈ rule.fields)
    (hoverrides : request.overrides = (before ++ item :: after).map .value)
    (hitem : Override.Sets item rule field text)
    (hlater : (∃ later ∈ after, ∃ other, Override.Sets later rule field other) ∨
      (field = .allowLineBreaks ∧ request.allowLineBreaks ≠ none)) :
    ({ request with overrides := (before ++ after).map .value }.settings workspace).outcome =
      (request.settings workspace).outcome := by
  obtain ⟨later, hmem, other, hsets⟩ :
      ∃ later ∈ after ++ lineBreakOverrides request.allowLineBreaks,
        ∃ other, Override.Sets later rule field other := by
    rcases hlater with ⟨later, hmem, hsets⟩ | ⟨rfl, hflag⟩
    · exact ⟨later, List.mem_append_left _ hmem, hsets⟩
    · obtain ⟨value, hvalue⟩ := Option.ne_none_iff_exists'.mp hflag
      refine ⟨lineBreakItem value rule, List.mem_append_right _ ?_, _,
        sets_lineBreakItem value rule⟩
      rw [hvalue, lineBreakOverrides_some]
      exact List.mem_map_of_mem rule.mem_all
  have hsame : ∀ loaded,
      { request with overrides := (before ++ after).map .value }.override loaded =
        request.override loaded := by
    intro loaded
    rw [override_of_values hoverrides, override_of_values rfl, List.append_assoc, List.append_assoc,
      List.cons_append, Config.override_overwritten loaded before hfield hitem hmem hsets]
  rw [outcome_settings, outcome_settings]
  exact bind_congr fun path => bind_congr fun loaded => hsame loaded

/--
The configuration that the files are checked with.  Each field of each rule has its value
from the last flag for line breaks, else from the last item that sets it, else from the
settings file, else by default.  An item that a later one or the flag replaces could as well
be left out, whatever its text is.
-/
theorem settings_precedence (workspace : Workspace) (arguments : List String)
    {request : CheckRequest} (haccepted : grammar.parse .defaults arguments = .ok request) :
    (∃ words, grammar.words arguments = .ok words ∧
      request.allowLineBreaks = (lineBreakFlags (grammar.given words)).getLast? ∧
      request.overrides = valuesOf "--set" (grammar.given words) ∧
      request.config = (valuesOf "--config" (grammar.given words)).getLast?) ∧
    (∀ config, (request.settings workspace).outcome = .ok config →
      (∀ keys, request.ruleKeys = .ok keys → (request.report workspace).outcome =
        (workspace.checkPaths (request.paths.map Path.ofText) config keys).outcome) ∧
      ∃ items table, request.Sources workspace items table ∧
        ∀ rule, ∀ field ∈ rule.fields,
          Decides request.allowLineBreaks items table rule field
            ((config.settings rule).value field)) ∧
    ∀ before item after rule field text, field ∈ rule.fields →
      request.overrides = (before ++ item :: after).map .value →
      Override.Sets item rule field text →
      (∃ later ∈ after, ∃ other, Override.Sets later rule field other) ∨
        (field = .allowLineBreaks ∧ request.allowLineBreaks ≠ none) →
      ({ request with overrides := (before ++ after).map .value }.settings workspace).outcome =
        (request.settings workspace).outcome := by
  obtain ⟨words, hwords, hreflects⟩ := reflects_of_parse haccepted
  refine ⟨?_, ?_, ?_⟩
  · exact ⟨words, hwords, hreflects.lineBreaks, hreflects.overrides, hreflects.config⟩
  · intro config hsettings
    refine ⟨?_, decides_of_settings (hreflects.paths rfl) hsettings⟩
    intro keys hkeys
    simp [outcome_report, hsettings, hkeys]
  · intro before item after rule field text hfield hoverrides hitem hlater
    exact settings_without hfield hoverrides hitem hlater

def castSettings : Workspace where
  files := ⟨[(["nowhitespace.toml"], Text.encode "[after]\ntypeCast = true".toList)], []⟩
  current := []
  parser _ := .leaf "program" 0 0

theorem settings_castSettings :
    ∃ request config,
      grammar.parse .defaults ["--set", " before.allowLineBreaks = maybe", "A.java",
        "--no-allow-line-breaks", "--set=after.type-cast=off"] = .ok request ∧
      (request.settings castSettings).outcome = .ok config ∧
      (∀ rule, (config.settings rule).value .allowLineBreaks = false) ∧
      ({ request with overrides := [.value "after.type-cast=off"] }.settings castSettings).outcome =
        .ok config := by
  let arguments := ["--set", " before.allowLineBreaks = maybe", "A.java", "--no-allow-line-breaks",
    "--set=after.type-cast=off"]
  let request : CheckRequest := ⟨["A.java"], none, none,
    [" before.allowLineBreaks = maybe", "after.type-cast=off"].map .value, some false, .text, 0⟩
  have haccepted : grammar.parse .defaults arguments = .ok request := by decide +kernel
  have hok : (request.settings castSettings).outcome.isOk = true := by decide +kernel
  have hitem :
      Override.Sets " before.allowLineBreaks = maybe" .before .allowLineBreaks "maybe" := by
    rw [Override.sets_iff]
    decide +kernel
  obtain ⟨-, hvalues, hremoved⟩ := settings_precedence castSettings arguments haccepted
  cases hsettings : (request.settings castSettings).outcome with
  | error failure =>
      rw [hsettings] at hok
      cases hok
  | ok config =>
      obtain ⟨-, items, table, -, hdecides⟩ := hvalues config hsettings
      refine ⟨request, config, haccepted, hsettings, ?_, ?_⟩
      · intro rule
        have hdecided := hdecides rule .allowLineBreaks List.mem_cons_self
        generalize (config.settings rule).value .allowLineBreaks = value at hdecided ⊢
        cases hdecided with
        | flag _ hvalue => exact (Option.some.inj hvalue).symm
        | item hnone => cases hnone rfl
        | file hnone => cases hnone rfl
        | default hnone => cases hnone rfl
      · rw [← hsettings]
        exact hremoved [] _ ["after.type-cast=off"] .before .allowLineBreaks "maybe"
          List.mem_cons_self rfl hitem (.inr ⟨rfl, by simp [request]⟩)

end CheckRequest

end CommandLine

end TokenSpacing
