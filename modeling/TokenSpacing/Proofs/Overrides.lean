import TokenSpacing.Config.Overrides
import TokenSpacing.Proofs.Outcomes

/-!
# Overrides of settings

An item that overrides a setting names a rule and one of its fields.  Among the items for
one field the last one decides, and those before it leave no trace.  A field that no item
names keeps its value.
-/

namespace TokenSpacing

/-! ## Items -/

theorem partitionAt_eq_some_iff {mark : Char} {text left right : List Char} :
    partitionAt mark text = some (left, right) ↔ text = left ++ mark :: right ∧ mark ∉ left := by
  induction text generalizing left with
  | nil => simp [partitionAt]
  | cons c text ih =>
      by_cases hmark : c = mark
      · subst hmark
        cases left with
        | nil => simp [partitionAt, eq_comm]
        | cons first left =>
            constructor
            · intro hparts
              simp [partitionAt] at hparts
            · rintro ⟨htext, hfirst⟩
              cases htext
              simp at hfirst
      · cases left with
        | nil => simp [partitionAt, hmark]
        | cons first left =>
            simp only [partitionAt, beq_iff_eq, hmark, if_false, Option.map_eq_some_iff,
              Prod.exists]
            constructor
            · rintro ⟨rest, after, hrest, hparts⟩
              cases hparts
              obtain ⟨rfl, hleft⟩ := ih.mp hrest
              exact ⟨rfl, by simp [Ne.symm hmark, hleft]⟩
            · rintro ⟨htext, hleft⟩
              cases htext
              have hrest : mark ∉ left := fun hmem => hleft (List.mem_cons_of_mem _ hmem)
              exact ⟨left, right, ih.mpr ⟨rfl, hrest⟩, rfl⟩

theorem Rule.ofSectionName?_eq_some_iff {text : String} {rule : Rule} :
    Rule.ofSectionName? text = some rule ↔ text = rule.sectionName := by
  constructor
  · intro hfound
    have hname := List.find?_some hfound
    exact (beq_iff_eq.mp hname).symm
  · rintro rfl
    cases rule <;> rfl

theorem Rule.dot_not_mem_sectionName (rule : Rule) : '.' ∉ rule.sectionName.toList := by
  cases rule <;> decide

theorem Field.snakeName_ne_nil (field : Field) : field.snakeName.toList ≠ [] := by
  cases field with
  | allowLineBreaks => decide
  | construct construct => cases construct <;> decide

namespace Override

/-- An item sets a field of a rule to a text.  It is written as the section, a dot, any
spelling of the field, an equals sign and the text, with blanks around the parts. -/
def Sets (item : String) (rule : Rule) (field : Field) (text : String) : Prop :=
  ∃ name value option, item.toList = name ++ '=' :: value ∧ '=' ∉ name ∧
    Text.strip name = rule.sectionName.toList ++ '.' :: option ∧
    Text.toSnake (Text.strip option) = field.snakeName.toList ∧ Text.strip value = text.toList

theorem sets_iff {item : String} {rule : Rule} {field : Field} {text : String} :
    Sets item rule field text ↔ read item = .ok ⟨rule, field.snakeName, text⟩ := by
  constructor
  · rintro ⟨name, value, option, hitem, hname, hsection, hoption, hvalue⟩
    have hequals := partitionAt_eq_some_iff.mpr ⟨hitem, hname⟩
    have hdot := partitionAt_eq_some_iff.mpr ⟨hsection, rule.dot_not_mem_sectionName⟩
    have hrule : Rule.ofSectionName? rule.sectionName = some rule :=
      Rule.ofSectionName?_eq_some_iff.mpr rfl
    cases option with
    | nil => exact absurd hoption.symm field.snakeName_ne_nil
    | cons first option =>
        simp only [read, hequals, hdot, hoption, hvalue, String.ofList_toList, hrule]
  · intro hread
    unfold read at hread
    split at hread
    · cases hread
    next name value hequals =>
      obtain ⟨hitem, hname⟩ := partitionAt_eq_some_iff.mp hequals
      split at hread
      · cases hread
      · cases hread
      next sectionText option _ hdot =>
        obtain ⟨hsection, -⟩ := partitionAt_eq_some_iff.mp hdot
        split at hread
        · cases hread
        next found hfound =>
          have hfield := Rule.ofSectionName?_eq_some_iff.mp hfound
          simp only [Except.ok.injEq, Override.mk.injEq] at hread
          obtain ⟨rfl, hoption, rfl⟩ := hread
          refine ⟨name, value, option, hitem, hname, ?_, ?_, by simp⟩
          · rw [hsection, ← hfield, String.toList_ofList]
          · rw [← hoption, String.toList_ofList]

end Override

theorem exists_last_or_forall_not {α : Type} (Chosen : α → Prop) (list : List α) :
    (∃ before last after, list = before ++ last :: after ∧ Chosen last ∧
      ∀ later ∈ after, ¬ Chosen later) ∨ ∀ element ∈ list, ¬ Chosen element := by
  induction list with
  | nil => simp
  | cons first list ih =>
      rcases ih with ⟨before, last, after, rfl, hlast, hafter⟩ | hnone
      · exact .inl ⟨first :: before, last, after, rfl, hlast, hafter⟩
      · by_cases hfirst : Chosen first
        · exact .inl ⟨[], first, list, rfl, hfirst, hnone⟩
        · exact .inr (List.forall_mem_cons.mpr ⟨hfirst, hnone⟩)

/-! ## Tables -/

namespace Entries

variable {entries : Entries} {key other : String}

theorem lookup_put_self (entries : Entries) (key : String) (value : Value) :
    (entries.put key value).lookup key = some value := by
  induction entries with
  | nil => simp [put]
  | cons entry entries ih =>
      obtain ⟨first, old⟩ := entry
      by_cases hkey : first = key
      · simp [put, hkey]
      · have hbeq : (key == first) = false := by simpa using Ne.symm hkey
        simp [put, hkey, List.lookup_cons, hbeq, ih]

theorem lookup_put_of_ne (entries : Entries) (hne : other ≠ key) (value : Value) :
    (entries.put key value).lookup other = entries.lookup other := by
  have hbeq : (other == key) = false := by simpa using hne
  induction entries with
  | nil => simp [put, List.lookup_cons, hbeq]
  | cons entry entries ih =>
      obtain ⟨first, old⟩ := entry
      by_cases hkey : first = key
      · simp [put, hkey, List.lookup_cons, hbeq]
      · simp [put, hkey, List.lookup_cons, ih]

theorem mem_keys_of_lookup {value : Value} (hlookup : entries.lookup key = some value) :
    key ∈ entries.map Prod.fst := by
  obtain ⟨before, after, hsplit, -⟩ := List.lookup_eq_some_iff.mp hlookup
  simp [hsplit]

theorem put_put (entries : Entries) (key : String) (first second : Value) :
    (entries.put key first).put key second = entries.put key second := by
  induction entries with
  | nil => simp [put]
  | cons entry entries ih =>
      by_cases hkey : entry.1 = key
      · simp [put, hkey]
      · simp [put, hkey, ih]

theorem put_comm (hkey : key ∈ entries.map Prod.fst) (hne : other ≠ key) (value second : Value) :
    (entries.put key value).put other second = (entries.put other second).put key value := by
  induction entries with
  | nil => cases hkey
  | cons entry entries ih =>
      by_cases hfirst : entry.1 = key
      · simp [put, hfirst, Ne.symm hne]
      · have hrest : key ∈ entries.map Prod.fst := by simpa [Ne.symm hfirst] using hkey
        by_cases hsecond : entry.1 = other
        · simp [put, hsecond, hne]
        · simp [put, hfirst, hsecond, ih hrest]

theorem mem_keys_put (hkey : key ∈ entries.map Prod.fst) (value : Value) :
    key ∈ (entries.put other value).map Prod.fst := by
  induction entries with
  | nil => cases hkey
  | cons entry entries ih =>
      by_cases hfirst : entry.1 = other
      · simpa [put, hfirst] using hkey
      · simp only [put, beq_iff_eq, hfirst, if_false, List.map_cons, List.mem_cons] at hkey ⊢
        exact hkey.imp_right ih

end Entries

namespace Sections

variable {sections : Sections} {rule : Rule} {key : String}

theorem mem_keys_apply (hkey : key ∈ (sections rule).map Prod.fst) (override : Override) :
    key ∈ (sections.apply override rule).map Prod.fst := by
  unfold apply
  split
  · exact Entries.mem_keys_put hkey _
  · exact hkey

theorem mem_keys_foldl (hkey : key ∈ (sections rule).map Prod.fst) (overrides : List Override) :
    key ∈ (overrides.foldl apply sections rule).map Prod.fst := by
  induction overrides generalizing sections with
  | nil => exact hkey
  | cons override overrides ih => exact ih (mem_keys_apply hkey override)

theorem lookup_foldl_of_untouched (sections : Sections) {overrides : List Override}
    (huntouched : ∀ override ∈ overrides, override.rule = rule → override.option ≠ key) :
    (overrides.foldl apply sections rule).lookup key = (sections rule).lookup key := by
  induction overrides generalizing sections with
  | nil => rfl
  | cons override overrides ih =>
      obtain ⟨hfirst, hrest⟩ := List.forall_mem_cons.mp huntouched
      rw [List.foldl_cons, ih _ hrest, apply]
      split
      next hrule => exact Entries.lookup_put_of_ne _ (Ne.symm (hfirst hrule.symm)) _
      next => rfl

theorem lookup_foldl_last (sections : Sections) (before : List Override) (last : Override)
    {after : List Override}
    (hlast : ∀ later ∈ after, later.rule = last.rule → later.option ≠ last.option) :
    ((before ++ last :: after).foldl apply sections last.rule).lookup last.option =
      some (.text last.value) := by
  rw [List.foldl_append, List.foldl_cons, lookup_foldl_of_untouched _ hlast]
  simp [apply, Entries.lookup_put_self]

theorem apply_apply_of_same (sections : Sections) {first later : Override}
    (hrule : later.rule = first.rule) (hoption : later.option = first.option) :
    (sections.apply first).apply later = sections.apply later := by
  funext rule
  by_cases hsame : rule = first.rule <;> simp [apply, hrule, hoption, hsame, Entries.put_put]

theorem apply_comm {first later : Override}
    (hkey : first.option ∈ (sections first.rule).map Prod.fst)
    (hother : later.rule = first.rule → later.option ≠ first.option) :
    (sections.apply first).apply later = (sections.apply later).apply first := by
  funext rule
  by_cases hfirst : rule = first.rule
  · subst hfirst
    by_cases hlater : first.rule = later.rule
    · simp [apply, hlater, Entries.put_comm (hlater ▸ hkey) (hother hlater.symm)]
    · simp [apply, hlater]
  · simp [apply, hfirst]

theorem foldl_apply_overwritten {first later : Override} {overrides : List Override}
    (hkey : first.option ∈ (sections first.rule).map Prod.fst) (hmem : later ∈ overrides)
    (hrule : later.rule = first.rule) (hoption : later.option = first.option) :
    overrides.foldl apply (sections.apply first) = overrides.foldl apply sections := by
  induction overrides generalizing sections with
  | nil => cases hmem
  | cons next overrides ih =>
      rw [List.foldl_cons, List.foldl_cons]
      by_cases hsame : next.rule = first.rule ∧ next.option = first.option
      · rw [apply_apply_of_same sections hsame.1 hsame.2]
      · have hother : next.rule = first.rule → next.option ≠ first.option :=
          fun hnext hequal => hsame ⟨hnext, hequal⟩
        have hmore : later ∈ overrides := by
          rcases List.mem_cons.mp hmem with rfl | hmore
          · exact absurd hoption (hother hrule)
          · exact hmore
        rw [apply_comm hkey hother, ih (mem_keys_apply hkey next) hmore]

theorem lookup_toEntries (sections : Sections) (rule : Rule) :
    sections.toEntries.lookup rule.sectionName = some (.table (sections rule)) := by
  cases rule <;> rfl

end Sections

/-! ## Reading a configuration -/

namespace Entries

/-- A table gives a field of a rule this value, by one of its two names. -/
def Gives (data : Entries) (rule : Rule) (field : Field) (value : Value) : Prop :=
  ∃ entries, data.lookup rule.sectionName = some (.table entries) ∧
    (entries.lookup field.camelName = some value ∨ entries.lookup field.snakeName = some value)

end Entries

theorem Rule.eq_of_name_eq (rule : Rule) : ∀ field ∈ rule.fields, ∀ other ∈ rule.fields,
    other.camelName = field.snakeName ∨ other.snakeName = field.snakeName → other = field := by
  cases rule <;> decide +kernel

namespace Config

variable {data : Entries} {config : Config} {rule : Rule} {field : Field}

theorem ofEntries_eq_ok_iff {source : String} :
    ofEntries source data = .ok config ↔
      complaints data = [] ∧ config = ⟨fun rule => rule.sectionSettings data⟩ := by
  unfold ofEntries
  split
  next hnone => simp [hnone, eq_comm]
  next hsome =>
    constructor
    · intro herror
      cases herror
    · rintro ⟨hnone, -⟩
      exact absurd hnone hsome

theorem sectionComplaints_eq_nil (hnone : complaints data = []) (rule : Rule) :
    rule.sectionComplaints data = [] := by
  unfold complaints at hnone
  obtain ⟨hsections, -⟩ := List.append_eq_nil_iff.mp hnone
  exact List.flatMap_eq_nil_iff.mp hsections rule rule.mem_all

theorem key_of_entry? {entries : Entries} {key : String} {value : Value}
    (hentry : entries.entry? field = some (key, value)) :
    (key = field.camelName ∨ key = field.snakeName) ∧ entries.lookup key = some value := by
  unfold Entries.entry? at hentry
  split at hentry
  next found hcamel =>
    cases hentry
    exact ⟨.inl rfl, hcamel⟩
  next =>
    obtain ⟨found, hsnake, hpair⟩ := Option.map_eq_some_iff.mp hentry
    cases hpair
    exact ⟨.inr rfl, hsnake⟩

theorem exists_entry?_of_mem_keys {entries : Entries} {key : String}
    (hnone : entries.complaints rule = []) (hkey : key ∈ entries.map Prod.fst) :
    ∃ field ∈ rule.fields, ∃ value, entries.entry? field = some (key, value) := by
  obtain ⟨-, hunknown⟩ := List.append_eq_nil_iff.mp hnone
  have hknown := List.filter_eq_nil_iff.mp (List.map_eq_nil_iff.mp hunknown) key hkey
  have hused : key ∈ entries.usedKeys rule := by simpa using hknown
  obtain ⟨field, hfield, hname⟩ := List.mem_filterMap.mp hused
  obtain ⟨⟨_, value⟩, hentry, rfl⟩ := Option.map_eq_some_iff.mp hname
  exact ⟨field, hfield, value, hentry⟩

theorem entry?_of_snakeName {entries : Entries} {value : Value} (hfield : field ∈ rule.fields)
    (hnone : entries.complaints rule = []) (hsnake : entries.lookup field.snakeName = some value) :
    entries.entry? field = some (field.snakeName, value) := by
  obtain ⟨other, hother, found, hentry⟩ :=
    exists_entry?_of_mem_keys hnone (Entries.mem_keys_of_lookup hsnake)
  obtain ⟨hnames, hlookup⟩ := key_of_entry? hentry
  obtain rfl : other = field :=
    rule.eq_of_name_eq field hfield other hother (hnames.imp Eq.symm Eq.symm)
  rw [hentry, Option.some.inj (hlookup.symm.trans hsnake)]

theorem toBoolean_of_entry? {entries : Entries} {key : String} {value : Value}
    (hfield : field ∈ rule.fields) (hnone : entries.complaints rule = [])
    (hentry : entries.entry? field = some (key, value)) :
    value.toBoolean = .ok ((entries.settings rule).value field) := by
  obtain ⟨hfields, -⟩ := List.append_eq_nil_iff.mp hnone
  have hfine := List.filterMap_eq_nil_iff.mp hfields field hfield
  unfold Entries.fieldComplaint? at hfine
  rw [hentry] at hfine
  cases hvalue : value.toBoolean with
  | error fault => simp [hvalue] at hfine
  | ok flag => simp [Entries.settings, Entries.boolean?, hfield, hentry, hvalue, Except.toOption]

theorem value_of_ofEntries {source : String} (hread : ofEntries source data = .ok config)
    (hfield : field ∈ rule.fields) :
    (∃ value, data.Gives rule field value ∧
        value.toBoolean = .ok ((config.settings rule).value field)) ∨
      (∀ value, ¬ data.Gives rule field value) ∧
        (config.settings rule).value field = (Settings.default rule).value field := by
  obtain ⟨hnone, rfl⟩ := ofEntries_eq_ok_iff.mp hread
  have hsection := sectionComplaints_eq_nil hnone rule
  unfold Rule.sectionComplaints at hsection
  split at hsection
  next habsent => exact .inr (by simp [Entries.Gives, Rule.sectionSettings, habsent])
  next entries htable =>
    have hsettings : rule.sectionSettings data = Entries.settings entries rule := by
      simp only [Rule.sectionSettings, htable]
    simp only [hsettings]
    cases hentry : Entries.entry? entries field with
    | some entry =>
        obtain ⟨key, value⟩ := entry
        obtain ⟨hkey, hlookup⟩ := key_of_entry? hentry
        refine .inl ⟨value, ⟨entries, htable, ?_⟩, toBoolean_of_entry? hfield hsection hentry⟩
        rcases hkey with rfl | rfl
        · exact .inl hlookup
        · exact .inr hlookup
    | none =>
        refine .inr ⟨?_, by simp [Entries.settings, Entries.boolean?, hentry]⟩
        rintro value ⟨others, hothers, hlookup⟩
        cases htable.symm.trans hothers
        unfold Entries.entry? at hentry
        rcases hlookup with hcamel | hsnake
        · simp [hcamel] at hentry
        · split at hentry
          · cases hentry
          · simp [hsnake] at hentry
  next => cases hsection

theorem toBoolean_of_sections {source : String} {sections : Sections} {value : Value}
    (hread : ofEntries source sections.toEntries = .ok config) (hfield : field ∈ rule.fields)
    (hvalue : (sections rule).lookup field.snakeName = some value) :
    value.toBoolean = .ok ((config.settings rule).value field) := by
  obtain ⟨hnone, rfl⟩ := ofEntries_eq_ok_iff.mp hread
  have hsection := sectionComplaints_eq_nil hnone rule
  simp only [Rule.sectionComplaints, sections.lookup_toEntries] at hsection
  simp only [Rule.sectionSettings, sections.lookup_toEntries]
  exact toBoolean_of_entry? hfield hsection (entry?_of_snakeName hfield hsection hvalue)

/-! ## The overridden configuration -/

theorem lookup_of_unique {fields : List Field} (value : Field → Value) (hfield : field ∈ fields)
    (hunique : ∀ other ∈ fields, other.snakeName = field.snakeName → other = field) :
    (fields.map fun other => (other.snakeName, value other)).lookup field.snakeName =
      some (value field) := by
  induction fields with
  | nil => cases hfield
  | cons other fields ih =>
      obtain ⟨hother, hothers⟩ := List.forall_mem_cons.mp hunique
      by_cases hname : other.snakeName = field.snakeName
      · simp [hother hname]
      · have hbeq : (field.snakeName == other.snakeName) = false := by simpa using Ne.symm hname
        have hmem : field ∈ fields := by
          rcases List.mem_cons.mp hfield with rfl | hmem
          · exact absurd rfl hname
          · exact hmem
        simpa [List.lookup_cons, hbeq] using ih hmem hothers

theorem lookup_sections (config : Config) (hfield : field ∈ rule.fields) :
    (config.sections rule).lookup field.snakeName =
      some (.boolean ((config.settings rule).value field)) :=
  lookup_of_unique _ hfield fun other hother hname =>
    rule.eq_of_name_eq field hfield other hother (.inr hname)

variable {changed : Config} {items before after : List String} {item : String} {text : String}

theorem override_eq_ok_iff :
    config.override items = .ok changed ↔
      ∃ overrides, items.mapM Override.read = .ok overrides ∧
        ofEntries overrideSource (overrides.foldl Sections.apply config.sections).toEntries =
          .ok changed := by
  unfold override
  cases items.mapM Override.read with
  | error fault => simp
  | ok overrides => simp

theorem untouched_of_mapM {overrides : List Override}
    (hread : items.mapM Override.read = .ok overrides)
    (huntouched : ∀ item ∈ items, ∀ text, ¬ Override.Sets item rule field text) :
    ∀ override ∈ overrides, override.rule = rule → override.option ≠ field.snakeName := by
  rintro ⟨_, _, value⟩ hoverride rfl rfl
  obtain ⟨item, hitem, hvalue⟩ := (mem_iff_of_mapM hread).mp hoverride
  exact huntouched item hitem value (Override.sets_iff.mpr hvalue)

theorem mapM_append_cons (before : List String) (item : String) (after : List String) :
    (before ++ item :: after).mapM Override.read =
      (before.mapM Override.read >>= fun first => Override.read item >>= fun override =>
        after.mapM Override.read >>= fun second => pure (first ++ override :: second)) := by
  simp [List.mapM_append]

theorem lookup_of_last {overrides : List Override}
    (hread : (before ++ item :: after).mapM Override.read = .ok overrides)
    (hitem : Override.Sets item rule field text)
    (hlast : ∀ later ∈ after, ∀ other, ¬ Override.Sets later rule field other) :
    (overrides.foldl Sections.apply config.sections rule).lookup field.snakeName =
      some (.text text) := by
  simp only [mapM_append_cons, Override.sets_iff.mp hitem, ok_bind, bind_eq_ok_iff,
    pure_eq_ok_iff] at hread
  obtain ⟨first, -, second, hsecond, rfl⟩ := hread
  exact Sections.lookup_foldl_last config.sections first ⟨rule, field.snakeName, text⟩
    (untouched_of_mapM hsecond hlast)

theorem lookup_of_untouched {overrides : List Override}
    (hread : items.mapM Override.read = .ok overrides) (hfield : field ∈ rule.fields)
    (huntouched : ∀ item ∈ items, ∀ text, ¬ Override.Sets item rule field text) :
    (overrides.foldl Sections.apply config.sections rule).lookup field.snakeName =
      some (.boolean ((config.settings rule).value field)) := by
  rw [Sections.lookup_foldl_of_untouched _ (untouched_of_mapM hread huntouched),
    config.lookup_sections hfield]

theorem value_of_last (hoverride : config.override (before ++ item :: after) = .ok changed)
    (hfield : field ∈ rule.fields) (hitem : Override.Sets item rule field text)
    (hlast : ∀ later ∈ after, ∀ other, ¬ Override.Sets later rule field other) :
    Value.booleanOfText text = .ok ((changed.settings rule).value field) := by
  obtain ⟨overrides, hread, hchanged⟩ := override_eq_ok_iff.mp hoverride
  exact toBoolean_of_sections hchanged hfield (lookup_of_last hread hitem hlast)

theorem value_of_untouched (hoverride : config.override items = .ok changed)
    (hfield : field ∈ rule.fields)
    (huntouched : ∀ item ∈ items, ∀ text, ¬ Override.Sets item rule field text) :
    (changed.settings rule).value field = (config.settings rule).value field := by
  obtain ⟨overrides, hread, hchanged⟩ := override_eq_ok_iff.mp hoverride
  have hvalue := toBoolean_of_sections hchanged hfield
    (lookup_of_untouched hread hfield huntouched)
  exact (Except.ok.inj hvalue).symm

theorem override_overwritten (config : Config) (before : List String) {later other : String}
    (hfield : field ∈ rule.fields) (hitem : Override.Sets item rule field text)
    (hmem : later ∈ after) (hlater : Override.Sets later rule field other) :
    config.override (before ++ item :: after) = config.override (before ++ after) := by
  have hkey := Entries.mem_keys_of_lookup (config.lookup_sections hfield)
  have hsame : ∀ first second, after.mapM Override.read = .ok second →
      (first ++ ⟨rule, field.snakeName, text⟩ :: second).foldl Sections.apply config.sections =
        (first ++ second).foldl Sections.apply config.sections := by
    intro first second hsecond
    have hoverride := (mem_iff_of_mapM hsecond).mpr ⟨later, hmem, Override.sets_iff.mp hlater⟩
    rw [List.foldl_append, List.foldl_cons, List.foldl_append]
    exact Sections.foldl_apply_overwritten (Sections.mem_keys_foldl hkey first) hoverride rfl rfl
  unfold override
  rw [mapM_append_cons, Override.sets_iff.mp hitem, List.mapM_append]
  cases hfirst : before.mapM Override.read with
  | error fault => rfl
  | ok first =>
      cases hsecond : after.mapM Override.read with
      | error fault => rfl
      | ok second =>
          change ofEntries _ _ = ofEntries _ _
          rw [hsame first second hsecond]

end Config

end TokenSpacing
