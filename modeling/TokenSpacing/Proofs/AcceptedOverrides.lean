import TokenSpacing.Proofs.Overrides

/-!
# Which overrides are accepted

Overrides are accepted if every item names a field and the last item for each field has a
boolean word for its value.  An item with a bad name is fatal wherever it stands.  A bad
value is forgiven where a later item sets the same field.
-/

namespace TokenSpacing

namespace Value

def Spells (text : String) (value : Bool) : Prop :=
  String.ofList (text.toList.map Char.toLower) ∈ if value then trueWords else falseWords

theorem booleanOfText_eq_ok_iff {text : String} {value : Bool} :
    booleanOfText text = .ok value ↔ Spells text value := by
  have hapart : ∀ word ∈ trueWords, word ∉ falseWords := by decide
  unfold booleanOfText Spells
  generalize String.ofList (text.toList.map Char.toLower) = word
  by_cases hfalse : word ∈ falseWords
  · cases value with
    | true => simpa [hfalse] using fun htrue => hapart word htrue hfalse
    | false => simp [hfalse]
  · by_cases htrue : word ∈ trueWords <;> cases value <;> simp [hfalse, htrue]

end Value

namespace Override

def Names (item : String) : Prop :=
  ∃ rule, ∃ field ∈ rule.fields, ∃ text, Sets item rule field text

/-- The last of the items that set a field of a rule sets it to a text. -/
def LastSets (items : List String) (rule : Rule) (field : Field) (text : String) : Prop :=
  ∃ before item after, items = before ++ item :: after ∧ Sets item rule field text ∧
    ∀ later ∈ after, ∀ other, ¬ Sets later rule field other

theorem exists_lastSets_or_untouched (items : List String) (rule : Rule) (field : Field) :
    (∃ text, LastSets items rule field text) ∨
      ∀ item ∈ items, ∀ text, ¬ Sets item rule field text := by
  rcases exists_last_or_forall_not (fun item => ∃ text, Sets item rule field text) items
    with ⟨before, item, after, hitems, ⟨text, hitem⟩, hafter⟩ | hnone
  · exact .inl ⟨text, before, item, after, hitems, hitem,
      fun later hlater other hother => hafter later hlater ⟨other, hother⟩⟩
  · exact .inr fun item hitem text htext => hnone item hitem ⟨text, htext⟩

end Override

/-! ## Keys -/

namespace Entries

variable {entries : Entries} {key : String} {rule : Rule}

theorem exists_lookup_of_mem_keys (hkey : key ∈ entries.map Prod.fst) :
    ∃ value, entries.lookup key = some value := by
  obtain ⟨entry, hentry, rfl⟩ := List.mem_map.mp hkey
  exact Option.isSome_iff_exists.mp (List.lookup_isSome_iff.mpr ⟨entry, hentry, by simp⟩)

theorem keys_put (hkey : key ∈ entries.map Prod.fst) (value : Value) :
    (entries.put key value).map Prod.fst = entries.map Prod.fst := by
  induction entries with
  | nil => cases hkey
  | cons entry entries ih =>
      by_cases hfirst : entry.1 = key
      · simp [put, hfirst]
      · have hrest : key ∈ entries.map Prod.fst := by simpa [Ne.symm hfirst] using hkey
        simp [put, hfirst, ih hrest]

theorem complaints_eq_nil (hkeys : entries.map Prod.fst = rule.fields.map Field.snakeName)
    (hvalues : ∀ field ∈ rule.fields, ∃ value flag,
      entries.lookup field.snakeName = some value ∧ value.toBoolean = .ok flag) :
    entries.complaints rule = [] := by
  have hentry : ∀ field ∈ rule.fields, ∃ value flag,
      entries.entry? field = some (field.snakeName, value) ∧ value.toBoolean = .ok flag := by
    intro field hfield
    obtain ⟨value, flag, hsnake, hflag⟩ := hvalues field hfield
    refine ⟨value, flag, ?_, hflag⟩
    unfold entry?
    split
    next other hcamel =>
      have hnamed := mem_keys_of_lookup hcamel
      rw [hkeys] at hnamed
      obtain ⟨named, hmem, hname⟩ := List.mem_map.mp hnamed
      obtain rfl := rule.eq_of_name_eq named hmem field hfield (.inl hname.symm)
      rw [← hname, hsnake] at hcamel
      rw [← hname, Option.some.inj hcamel]
    next => simp [hsnake]
  refine List.append_eq_nil_iff.mpr ⟨List.filterMap_eq_nil_iff.mpr ?_, ?_⟩
  · intro field hfield
    obtain ⟨value, flag, hfound, hflag⟩ := hentry field hfield
    simp [fieldComplaint?, hfound, hflag]
  · rw [List.map_eq_nil_iff, unknownKeys, List.filter_eq_nil_iff, hkeys]
    intro key hkey
    obtain ⟨field, hfield, rfl⟩ := List.mem_map.mp hkey
    obtain ⟨value, flag, hfound, -⟩ := hentry field hfield
    have hused : field.snakeName ∈ entries.usedKeys rule :=
      List.mem_filterMap.mpr ⟨field, hfield, by simp [hfound]⟩
    simpa using hused

end Entries

namespace Sections

variable {sections : Sections} {overrides : List Override}

theorem keys_apply {override : Override}
    (hkey : override.option ∈ (sections override.rule).map Prod.fst) (rule : Rule) :
    (sections.apply override rule).map Prod.fst = (sections rule).map Prod.fst := by
  unfold apply
  split
  next hrule =>
    subst hrule
    exact Entries.keys_put hkey _
  next => rfl

theorem keys_foldl
    (hkeys : ∀ override ∈ overrides, override.option ∈ (sections override.rule).map Prod.fst)
    (rule : Rule) :
    (overrides.foldl apply sections rule).map Prod.fst = (sections rule).map Prod.fst := by
  induction overrides generalizing sections with
  | nil => rfl
  | cons override overrides ih =>
      obtain ⟨hfirst, hrest⟩ := List.forall_mem_cons.mp hkeys
      have hstep := keys_apply hfirst
      rw [List.foldl_cons, ih fun later hlater => hstep later.rule ▸ hrest later hlater, hstep]

theorem mem_keys_of_mem {override : Override} (hmem : override ∈ overrides) :
    override.option ∈ (overrides.foldl apply sections override.rule).map Prod.fst := by
  obtain ⟨before, after, rfl⟩ := List.append_of_mem hmem
  rw [List.foldl_append, List.foldl_cons]
  refine mem_keys_foldl ?_ after
  simp only [apply, if_true]
  exact Entries.mem_keys_of_lookup (Entries.lookup_put_self _ _ _)

end Sections

/-! ## Acceptance -/

namespace Config

variable {config : Config} {items : List String} {overrides : List Override}

theorem complaints_toEntries_eq_nil_iff {sections : Sections} :
    complaints sections.toEntries = [] ↔ ∀ rule, (sections rule).complaints rule = [] := by
  have hnamed : ((sections.toEntries.map Prod.fst).filter fun key =>
      (Rule.ofSectionName? key).isNone) = [] := by
    rfl
  simp [complaints, hnamed, List.flatMap_eq_nil_iff, Rule.mem_all, Rule.sectionComplaints,
    sections.lookup_toEntries]

theorem keys_sections (config : Config) (rule : Rule) :
    (config.sections rule).map Prod.fst = rule.fields.map Field.snakeName := by
  simp [sections, Settings.entries]

theorem exists_field_of_accepted {override : Override}
    (hnone : ((overrides.foldl Sections.apply config.sections) override.rule).complaints
      override.rule = [])
    (hmem : override ∈ overrides) :
    ∃ field ∈ override.rule.fields, override.option = field.snakeName := by
  obtain ⟨field, hfield, found, hentry⟩ :=
    exists_entry?_of_mem_keys hnone (Sections.mem_keys_of_mem hmem)
  have hplain : field.snakeName ∈ (config.sections override.rule).map Prod.fst := by
    rw [keys_sections]
    exact List.mem_map_of_mem hfield
  obtain ⟨value, hvalue⟩ :=
    Entries.exists_lookup_of_mem_keys (Sections.mem_keys_foldl hplain overrides)
  rw [entry?_of_snakeName hfield hnone hvalue] at hentry
  exact ⟨field, hfield, (Prod.mk.inj (Option.some.inj hentry)).1.symm⟩

theorem exists_override_iff :
    (∃ changed, config.override items = .ok changed) ↔
      ∃ overrides, items.mapM Override.read = .ok overrides ∧
        ∀ rule, (overrides.foldl Sections.apply config.sections rule).complaints rule = [] := by
  simp [override_eq_ok_iff, ofEntries_eq_ok_iff, complaints_toEntries_eq_nil_iff]

theorem names_of_accepted (haccepted : ∃ changed, config.override items = .ok changed) :
    ∀ item ∈ items, Override.Names item := by
  obtain ⟨overrides, hread, hnone⟩ := exists_override_iff.mp haccepted
  intro item hitem
  obtain ⟨override, hoverride⟩ := exists_mapM_eq_ok_iff.mp ⟨overrides, hread⟩ item hitem
  have hmem : override ∈ overrides := (mem_iff_of_mapM hread).mpr ⟨item, hitem, hoverride⟩
  obtain ⟨field, hfield, hoption⟩ := exists_field_of_accepted (hnone override.rule) hmem
  exact ⟨override.rule, field, hfield, override.value,
    Override.sets_iff.mpr (by rw [hoverride, ← hoption])⟩

theorem exists_override_of_names (hnamed : ∀ item ∈ items, Override.Names item)
    (hspelled : ∀ rule, ∀ field ∈ rule.fields, ∀ text,
      Override.LastSets items rule field text → ∃ value, Value.Spells text value) :
    ∃ changed, config.override items = .ok changed := by
  obtain ⟨overrides, hread⟩ := exists_mapM_eq_ok_iff.mpr fun item hitem => by
    obtain ⟨rule, field, -, text, hsets⟩ := hnamed item hitem
    exact ⟨_, Override.sets_iff.mp hsets⟩
  have hknown : ∀ override ∈ overrides,
      override.option ∈ (config.sections override.rule).map Prod.fst := by
    intro override hoverride
    obtain ⟨item, hitem, hvalue⟩ := (mem_iff_of_mapM hread).mp hoverride
    obtain ⟨rule, field, hfield, text, hsets⟩ := hnamed item hitem
    obtain rfl := Except.ok.inj (hvalue.symm.trans (Override.sets_iff.mp hsets))
    rw [keys_sections]
    exact List.mem_map_of_mem hfield
  refine exists_override_iff.mpr ⟨overrides, hread, fun rule => ?_⟩
  refine Entries.complaints_eq_nil ((Sections.keys_foldl hknown rule).trans (keys_sections _ _)) ?_
  intro field hfield
  rcases Override.exists_lastSets_or_untouched items rule field with ⟨text, hlast⟩ | huntouched
  · obtain ⟨flag, hflag⟩ := hspelled rule field hfield text hlast
    obtain ⟨before, item, after, rfl, hitem, hafter⟩ := hlast
    exact ⟨.text text, flag, lookup_of_last hread hitem hafter,
      Value.booleanOfText_eq_ok_iff.mpr hflag⟩
  · exact ⟨_, _, lookup_of_untouched hread hfield huntouched, rfl⟩

theorem source_of_override_error {error : ConfigError}
    (herror : config.override items = .error error) : error.source = overrideSource := by
  unfold override at herror
  split at herror
  next => rw [← Except.error.inj herror]
  next =>
    unfold ofEntries at herror
    split at herror
    next => cases herror
    next => rw [← Except.error.inj herror]

/--
Items are accepted if and only if each one names a field of a rule and the last item for each
field has a boolean word for its value.  The field then has the value of that word, and a
field that no item names keeps its value.  Items that are not accepted give an error about
the overrides.
-/
theorem override_accepts_exactly (config : Config) (items : List String) :
    ((∃ changed, config.override items = .ok changed) ↔
        (∀ item ∈ items, Override.Names item) ∧
        ∀ rule, ∀ field ∈ rule.fields, ∀ text, Override.LastSets items rule field text →
          ∃ value, Value.Spells text value) ∧
      (∀ changed, config.override items = .ok changed → ∀ rule, ∀ field ∈ rule.fields,
        (∀ text, Override.LastSets items rule field text →
          Value.Spells text ((changed.settings rule).value field)) ∧
        ((∀ item ∈ items, ∀ text, ¬ Override.Sets item rule field text) →
          (changed.settings rule).value field = (config.settings rule).value field)) ∧
      ∀ error, config.override items = .error error → error.source = "--set" := by
  have hlast : ∀ changed, config.override items = .ok changed → ∀ rule, ∀ field ∈ rule.fields,
      ∀ text, Override.LastSets items rule field text →
        Value.Spells text ((changed.settings rule).value field) := by
    rintro changed hchanged rule field hfield text ⟨before, item, after, rfl, hitem, hafter⟩
    exact Value.booleanOfText_eq_ok_iff.mp (value_of_last hchanged hfield hitem hafter)
  refine ⟨⟨?_, fun ⟨hnamed, hspelled⟩ => exists_override_of_names hnamed hspelled⟩, ?_,
    fun error => source_of_override_error⟩
  · intro haccepted
    refine ⟨names_of_accepted haccepted, ?_⟩
    obtain ⟨changed, hchanged⟩ := haccepted
    intro rule field hfield text htext
    exact ⟨_, hlast changed hchanged rule field hfield text htext⟩
  · intro changed hchanged rule field hfield
    exact ⟨hlast changed hchanged rule field hfield, value_of_untouched hchanged hfield⟩

example :
    ((⟨Settings.default⟩ : Config).override ["after.type_cast=maybe", " after. typeCast = YES"]
      ).toOption.map (fun changed => (changed.settings .after).value (.construct .typeCast)) =
      some true := by
  decide +kernel

end Config

end TokenSpacing
