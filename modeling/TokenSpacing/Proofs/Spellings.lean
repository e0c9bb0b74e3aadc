import Mathlib.Data.List.Nodup
import TokenSpacing.Proofs.AcceptedOverrides

/-!
# Spellings and order of settings

A table of settings is read by what it says, not by how it is written.  The order of its
keys does not matter, and an option may change between its two names as long as the table
does not use both.  Which tables are accepted, and the configuration that they give, is
the same for all ways to write them.
-/

namespace TokenSpacing

/-! ## Names of a field -/

namespace Field

def SpelledAs (field : Field) (key : String) : Prop :=
  key = field.camelName ∨ key = field.snakeName

instance (field : Field) (key : String) : Decidable (field.SpelledAs key) :=
  inferInstanceAs (Decidable (_ ∨ _))

end Field

namespace Rule

variable {rule : Rule} {field other : Field} {key : String} {spell : String → String}

theorem eq_of_sectionName_eq {first second : Rule}
    (hname : first.sectionName = second.sectionName) : first = second := by
  have hfound := ofSectionName?_eq_some_iff.mpr hname
  rw [ofSectionName?_eq_some_iff.mpr rfl] at hfound
  exact Option.some.inj hfound

theorem eq_of_camelName_eq (rule : Rule) : ∀ field ∈ rule.fields, ∀ other ∈ rule.fields,
    other.camelName = field.camelName → other = field := by
  cases rule <;> decide +kernel

theorem eq_of_spelledAs (hfield : field ∈ rule.fields) (hother : other ∈ rule.fields)
    (hkey : field.SpelledAs key) (hsame : other.SpelledAs key) : other = field := by
  rcases hkey with rfl | rfl
  · rcases hsame with hcamel | hsnake
    · exact rule.eq_of_camelName_eq field hfield other hother hcamel.symm
    · exact (rule.eq_of_name_eq other hother field hfield (.inl hsnake)).symm
  · exact rule.eq_of_name_eq field hfield other hother (hsame.imp Eq.symm Eq.symm)

/-- Keys are kept, or changed from one name of a field of the rule to another. -/
def Respells (rule : Rule) (spell : String → String) : Prop :=
  ∀ key, spell key = key ∨
    ∃ field ∈ rule.fields, field.SpelledAs key ∧ field.SpelledAs (spell key)

theorem Respells.spelledAs_iff (hspell : rule.Respells spell) (hfield : field ∈ rule.fields) :
    field.SpelledAs (spell key) ↔ field.SpelledAs key := by
  rcases hspell key with hkept | ⟨named, hnamed, hold, hnew⟩
  · rw [hkept]
  · constructor
    · intro hkey
      rwa [← eq_of_spelledAs hfield hnamed hkey hnew]
    · intro hkey
      rwa [← eq_of_spelledAs hfield hnamed hkey hold]

end Rule

/-! ## One section -/

namespace Entries

variable {entries other : Entries} {rule : Rule} {field : Field} {key : String} {value : Value}
  {spell : String → String}

def GivenOnce (entries : Entries) (rule : Rule) : Prop :=
  ∀ field ∈ rule.fields, ∀ first ∈ entries.map Prod.fst, ∀ second ∈ entries.map Prod.fst,
    field.SpelledAs first → field.SpelledAs second → first = second

/-- A section is accepted if each key names a field, each value stands for a boolean, and
no field is given under two names. -/
def Sound (entries : Entries) (rule : Rule) : Prop :=
  (∀ entry ∈ entries, (∃ field ∈ rule.fields, field.SpelledAs entry.1) ∧
    ∃ flag, entry.2.toBoolean = .ok flag) ∧ entries.GivenOnce rule

def Sets (entries : Entries) (field : Field) (value : Value) : Prop :=
  ∃ key, field.SpelledAs key ∧ (key, value) ∈ entries

def respell (entries : Entries) (spell : String → String) : Entries :=
  entries.map fun entry => (spell entry.1, entry.2)

theorem lookup_eq_some_iff (hkeys : (entries.map Prod.fst).Nodup) :
    entries.lookup key = some value ↔ (key, value) ∈ entries := by
  constructor
  · intro hlookup
    obtain ⟨before, after, hsplit, -⟩ := List.lookup_eq_some_iff.mp hlookup
    simp [hsplit]
  · intro hmem
    induction entries with
    | nil => cases hmem
    | cons entry entries ih =>
        obtain ⟨first, old⟩ := entry
        obtain ⟨hfirst, hrest⟩ := List.nodup_cons.mp hkeys
        rcases List.mem_cons.mp hmem with hequal | hlater
        · cases hequal
          simp
        · have hne : key ≠ first := by
            rintro rfl
            exact hfirst (List.mem_map.mpr ⟨_, hlater, rfl⟩)
          have hbeq : (key == first) = false := by simpa using hne
          simpa [List.lookup_cons, hbeq] using ih hrest hlater

theorem entry?_eq_some_iff (hkeys : (entries.map Prod.fst).Nodup) (honce : entries.GivenOnce rule)
    (hfield : field ∈ rule.fields) :
    entries.entry? field = some (key, value) ↔ field.SpelledAs key ∧ (key, value) ∈ entries := by
  constructor
  · intro hentry
    obtain ⟨hname, hlookup⟩ := Config.key_of_entry? hentry
    exact ⟨hname, (lookup_eq_some_iff hkeys).mp hlookup⟩
  · rintro ⟨hname, hmem⟩
    have hlookup := (lookup_eq_some_iff hkeys).mpr hmem
    unfold entry?
    split
    next found hcamel =>
      obtain rfl : key = field.camelName :=
        honce field hfield key (mem_keys_of_lookup hlookup) _ (mem_keys_of_lookup hcamel)
          hname (.inl rfl)
      rw [Option.some.inj (hcamel.symm.trans hlookup)]
    next hcamel =>
      rcases hname with rfl | rfl
      · simp [hlookup] at hcamel
      · simp [hlookup]

theorem sound_of_complaints (hkeys : (entries.map Prod.fst).Nodup)
    (hnone : entries.complaints rule = []) : entries.Sound rule := by
  refine ⟨?_, ?_⟩
  · rintro ⟨key, value⟩ hmem
    obtain ⟨field, hfield, found, hentry⟩ :=
      Config.exists_entry?_of_mem_keys hnone (List.mem_map_of_mem hmem)
    obtain ⟨hspelled, hlookup⟩ := Config.key_of_entry? hentry
    refine ⟨⟨field, hfield, hspelled⟩, ?_⟩
    obtain rfl : found = value :=
      Option.some.inj (hlookup.symm.trans ((lookup_eq_some_iff hkeys).mpr hmem))
    exact ⟨_, Config.toBoolean_of_entry? hfield hnone hentry⟩
  · have hsets : ∀ field ∈ rule.fields, ∀ key ∈ entries.map Prod.fst, field.SpelledAs key →
        ∃ value, entries.entry? field = some (key, value) := by
      intro field hfield key hkey hspelled
      obtain ⟨named, hnamed, found, hentry⟩ := Config.exists_entry?_of_mem_keys hnone hkey
      obtain ⟨hother, -⟩ := Config.key_of_entry? hentry
      obtain rfl := Rule.eq_of_spelledAs hfield hnamed hspelled hother
      exact ⟨found, hentry⟩
    intro field hfield first hfirst second hsecond hone htwo
    obtain ⟨_, hentry⟩ := hsets field hfield first hfirst hone
    obtain ⟨_, hother⟩ := hsets field hfield second hsecond htwo
    exact (Prod.mk.inj (Option.some.inj (hentry.symm.trans hother))).1

theorem complaints_of_sound (hkeys : (entries.map Prod.fst).Nodup) (hsound : entries.Sound rule) :
    entries.complaints rule = [] := by
  obtain ⟨hentries, honce⟩ := hsound
  refine List.append_eq_nil_iff.mpr ⟨List.filterMap_eq_nil_iff.mpr ?_, ?_⟩
  · intro field hfield
    unfold fieldComplaint?
    split
    next => rfl
    next key value hentry =>
      obtain ⟨-, hmem⟩ := (entry?_eq_some_iff hkeys honce hfield).mp hentry
      obtain ⟨-, flag, hflag⟩ := hentries _ hmem
      simp [hflag]
  · rw [List.map_eq_nil_iff, unknownKeys, List.filter_eq_nil_iff]
    intro key hkey
    obtain ⟨value, hlookup⟩ := exists_lookup_of_mem_keys hkey
    have hmem := (lookup_eq_some_iff hkeys).mp hlookup
    obtain ⟨⟨field, hfield, hspelled⟩, -⟩ := hentries _ hmem
    have hentry := (entry?_eq_some_iff hkeys honce hfield).mpr ⟨hspelled, hmem⟩
    have hused : key ∈ entries.usedKeys rule :=
      List.mem_filterMap.mpr ⟨field, hfield, by simp [hentry]⟩
    simpa using hused

theorem complaints_eq_nil_iff (hkeys : (entries.map Prod.fst).Nodup) :
    entries.complaints rule = [] ↔ entries.Sound rule :=
  ⟨sound_of_complaints hkeys, complaints_of_sound hkeys⟩

theorem settings_of_sets (hkeys : (entries.map Prod.fst).Nodup) (hsound : entries.Sound rule)
    (hfield : field ∈ rule.fields) (hsets : entries.Sets field value) :
    value.toBoolean = .ok ((entries.settings rule).value field) := by
  obtain ⟨key, hspelled, hmem⟩ := hsets
  exact Config.toBoolean_of_entry? hfield (complaints_of_sound hkeys hsound)
    ((entry?_eq_some_iff hkeys hsound.2 hfield).mpr ⟨hspelled, hmem⟩)

theorem settings_of_unset (hkeys : (entries.map Prod.fst).Nodup) (hsound : entries.Sound rule)
    (hfield : field ∈ rule.fields) (hunset : ∀ value, ¬ entries.Sets field value) :
    (entries.settings rule).value field = (Settings.default rule).value field := by
  have hnone : entries.entry? field = none := by
    rw [Option.eq_none_iff_forall_ne_some]
    rintro ⟨key, value⟩ hentry
    exact hunset value ⟨key, (entry?_eq_some_iff hkeys hsound.2 hfield).mp hentry⟩
  simp [settings, boolean?, hnone]

/-! ## Ways to write a section -/

structure SameSection (rule : Rule) (entries other : Entries) : Prop where
  distinct : (other.map Prod.fst).Nodup
  sound_iff : entries.Sound rule ↔ other.Sound rule
  sets_iff : ∀ field ∈ rule.fields, ∀ value, entries.Sets field value ↔ other.Sets field value

theorem SameSection.of_perm (hkeys : (entries.map Prod.fst).Nodup) (hperm : other.Perm entries) :
    SameSection rule entries other where
  distinct := (hperm.map Prod.fst).nodup_iff.mpr hkeys
  sound_iff := by simp only [Sound, GivenOnce, hperm.mem_iff, (hperm.map Prod.fst).mem_iff]
  sets_iff := by simp only [Sets, hperm.mem_iff, implies_true]

theorem map_fst_respell (entries : Entries) (spell : String → String) :
    (entries.respell spell).map Prod.fst = (entries.map Prod.fst).map spell := by
  simp [respell]

theorem nodup_respell (hkeys : (entries.map Prod.fst).Nodup) (honce : entries.GivenOnce rule)
    (hspell : rule.Respells spell) : ((entries.respell spell).map Prod.fst).Nodup := by
  rw [map_fst_respell]
  refine List.Nodup.map_on ?_ hkeys
  intro first hfirst second hsecond hsame
  rcases hspell first with hkept | ⟨field, hfield, hone, hnew⟩
  · rcases hspell second with hstays | ⟨field, hfield, htwo, hnew⟩
    · rw [← hkept, hsame, hstays]
    · rw [← hsame, hkept] at hnew
      exact honce field hfield first hfirst second hsecond hnew htwo
  · rw [hsame, hspell.spelledAs_iff hfield] at hnew
    exact honce field hfield first hfirst second hsecond hone hnew

theorem SameSection.of_respell (hkeys : (entries.map Prod.fst).Nodup)
    (honce : entries.GivenOnce rule) (hspell : rule.Respells spell) :
    SameSection rule entries (entries.respell spell) where
  distinct := nodup_respell hkeys honce hspell
  sound_iff := by
    have hgiven : (entries.respell spell).GivenOnce rule := by
      intro field hfield first hfirst second hsecond hone htwo
      rw [map_fst_respell] at hfirst hsecond
      obtain ⟨one, honeOld, rfl⟩ := List.mem_map.mp hfirst
      obtain ⟨two, htwoOld, rfl⟩ := List.mem_map.mp hsecond
      rw [hspell.spelledAs_iff hfield] at hone htwo
      rw [honce field hfield one honeOld two htwoOld hone htwo]
    have hnamed : ∀ key, (∃ field ∈ rule.fields, field.SpelledAs (spell key)) ↔
        ∃ field ∈ rule.fields, field.SpelledAs key := fun key =>
      exists_congr fun field => and_congr_right hspell.spelledAs_iff
    simp only [Sound, honce, hgiven, and_true]
    simp only [respell, List.forall_mem_map, hnamed]
  sets_iff := by
    intro field hfield value
    constructor
    · rintro ⟨key, hkey, hmem⟩
      exact ⟨spell key, (hspell.spelledAs_iff hfield).mpr hkey, List.mem_map.mpr ⟨_, hmem, rfl⟩⟩
    · rintro ⟨key, hkey, hmem⟩
      obtain ⟨⟨old, _⟩, hold, hequal⟩ := List.mem_map.mp hmem
      cases hequal
      exact ⟨old, (hspell.spelledAs_iff hfield).mp hkey, hold⟩

theorem SameSection.trans {third : Entries} (hfirst : SameSection rule entries other)
    (hsecond : SameSection rule other third) : SameSection rule entries third where
  distinct := hsecond.distinct
  sound_iff := hfirst.sound_iff.trans hsecond.sound_iff
  sets_iff field hfield value :=
    (hfirst.sets_iff field hfield value).trans (hsecond.sets_iff field hfield value)

theorem SameSection.settings_eq (hsame : SameSection rule entries other)
    (hkeys : (entries.map Prod.fst).Nodup) (hsound : entries.Sound rule) :
    other.settings rule = entries.settings rule := by
  have hother := hsame.sound_iff.mp hsound
  have hvalue : ∀ field,
      (other.settings rule).value field = (entries.settings rule).value field := by
    intro field
    by_cases hfield : field ∈ rule.fields
    · by_cases hset : ∃ value, entries.Sets field value
      · obtain ⟨value, hvalue⟩ := hset
        have hsets := (hsame.sets_iff field hfield value).mp hvalue
        have hflag := settings_of_sets hsame.distinct hother hfield hsets
        rw [settings_of_sets hkeys hsound hfield hvalue] at hflag
        exact (Except.ok.inj hflag).symm
      · have hunset : ∀ value, ¬ other.Sets field value := fun value hvalue =>
          hset ⟨value, (hsame.sets_iff field hfield value).mpr hvalue⟩
        rw [settings_of_unset hsame.distinct hother hfield hunset,
          settings_of_unset hkeys hsound hfield (not_exists.mp hset)]
    · simp [settings, hfield]
  exact congrArg Settings.mk (funext hvalue)

/-! ## Ways to write a configuration -/

structure IsMapping (data : Entries) : Prop where
  distinct : (data.map Prod.fst).Nodup
  sections : ∀ name (entries : Entries), (name, .table entries) ∈ data →
    (entries.map Prod.fst).Nodup

/-- The value under a name, written in another way: a table in another order, and a section
that gives no option twice also with other names for its options. -/
inductive Rewritten (name : String) : Value → Value → Prop
  | kept (value : Value) : Rewritten name value value
  | reordered {entries other : Entries} (hperm : other.Perm entries) :
      Rewritten name (.table entries) (.table other)
  | respelled {rule : Rule} {spell : String → String} {entries other : Entries}
      (hname : name = rule.sectionName) (honce : entries.GivenOnce rule)
      (hspell : rule.Respells spell) (hperm : other.Perm (entries.respell spell)) :
      Rewritten name (.table entries) (.table other)

/-- Other data that say the same: the values are written in other ways, and the names stand
in another order. -/
def Rearranged (data other : Entries) : Prop :=
  ∃ change : String × Value → Value,
    (∀ entry ∈ data, Rewritten entry.1 entry.2 (change entry)) ∧
      other.Perm (data.map fun entry => (entry.1, change entry))

def Fits (name : String) (value : Value) : Prop :=
  ∃ rule entries, name = Rule.sectionName rule ∧ value = .table entries ∧ Sound entries rule

theorem fits_table_iff {name : String} :
    Fits name (.table entries) ↔ ∃ rule : Rule, name = rule.sectionName ∧ entries.Sound rule := by
  simp [Fits]

namespace Rewritten

variable {name : String} {value changed : Value}

theorem distinct (hvalue : ∀ entries : Entries, value = .table entries →
      (entries.map Prod.fst).Nodup) (hrewritten : Rewritten name value (.table other)) :
    (other.map Prod.fst).Nodup := by
  cases hrewritten with
  | kept => exact hvalue other rfl
  | reordered hperm => exact (hperm.map Prod.fst).nodup_iff.mpr (hvalue _ rfl)
  | respelled _ honce hspell hperm =>
      exact (hperm.map Prod.fst).nodup_iff.mpr (nodup_respell (hvalue _ rfl) honce hspell)

theorem sameSection (hkeys : (entries.map Prod.fst).Nodup) (hname : name = rule.sectionName)
    (hrewritten : Rewritten name (.table entries) (.table other)) :
    SameSection rule entries other := by
  cases hrewritten with
  | kept => exact .of_perm hkeys (.refl _)
  | reordered hperm => exact .of_perm hkeys hperm
  | @respelled named _ _ _ hnamed honce hspell hperm =>
      obtain rfl : named = rule := Rule.eq_of_sectionName_eq (hnamed.symm.trans hname)
      have hrespelled := SameSection.of_respell hkeys honce hspell
      exact hrespelled.trans (.of_perm hrespelled.distinct hperm)

theorem exists_table (hrewritten : Rewritten name (.table entries) changed) :
    ∃ other, changed = .table other := by
  cases hrewritten with
  | kept => exact ⟨_, rfl⟩
  | reordered => exact ⟨_, rfl⟩
  | respelled => exact ⟨_, rfl⟩

theorem fits_iff (hvalue : ∀ entries : Entries, value = .table entries →
      (entries.map Prod.fst).Nodup) (hrewritten : Rewritten name value changed) :
    Fits name value ↔ Fits name changed := by
  have htables : ∀ {entries other : Entries}, (entries.map Prod.fst).Nodup →
      Rewritten name (.table entries) (.table other) →
      (Fits name (.table entries) ↔ Fits name (.table other)) := by
    intro entries other hkeys htable
    rw [fits_table_iff, fits_table_iff]
    exact exists_congr fun rule => and_congr_right fun hname =>
      (htable.sameSection hkeys hname).sound_iff
  cases hrewritten with
  | kept => exact Iff.rfl
  | reordered hperm => exact htables (hvalue _ rfl) (.reordered hperm)
  | respelled hname honce hspell hperm =>
      exact htables (hvalue _ rfl) (.respelled hname honce hspell hperm)

end Rewritten

namespace Rearranged

variable {data : Entries}

theorem isMapping (hdata : data.IsMapping) (hother : data.Rearranged other) : other.IsMapping := by
  obtain ⟨change, hchange, hperm⟩ := hother
  refine ⟨?_, ?_⟩
  · rw [(hperm.map Prod.fst).nodup_iff, List.map_map]
    exact hdata.distinct
  · intro name entries hmem
    obtain ⟨entry, hentry, hequal⟩ := List.mem_map.mp (hperm.mem_iff.mp hmem)
    have hrewritten := hchange entry hentry
    rw [(Prod.mk.inj hequal).2] at hrewritten
    refine hrewritten.distinct fun old hold => hdata.sections entry.1 old ?_
    rwa [← hold]

theorem fits_iff (hdata : data.IsMapping) (hother : data.Rearranged other) :
    (∀ entry ∈ data, Fits entry.1 entry.2) ↔ ∀ entry ∈ other, Fits entry.1 entry.2 := by
  obtain ⟨change, hchange, hperm⟩ := hother
  simp only [hperm.mem_iff, List.forall_mem_map]
  refine forall₂_congr fun entry hentry => (hchange entry hentry).fits_iff fun table htable => ?_
  refine hdata.sections entry.1 table ?_
  rwa [← htable]

theorem sectionSettings_eq (hdata : data.IsMapping) (hother : data.Rearranged other)
    (hfits : ∀ entry ∈ data, Fits entry.1 entry.2) (rule : Rule) :
    rule.sectionSettings other = rule.sectionSettings data := by
  have hmapping := hother.isMapping hdata
  obtain ⟨change, hchange, hperm⟩ := hother
  cases hsection : data.lookup rule.sectionName with
  | none =>
      have habsent : other.lookup rule.sectionName = none := by
        rw [Option.eq_none_iff_forall_ne_some]
        intro value hvalue
        have hkey := ((hperm.map Prod.fst).mem_iff).mp (mem_keys_of_lookup hvalue)
        rw [List.map_map] at hkey
        obtain ⟨found, hfound⟩ := exists_lookup_of_mem_keys hkey
        cases hsection.symm.trans hfound
      simp [Rule.sectionSettings, hsection, habsent]
  | some value =>
      have hmem := (lookup_eq_some_iff hdata.distinct).mp hsection
      obtain ⟨named, entries, hname, rfl, hsound⟩ := hfits _ hmem
      obtain rfl := Rule.eq_of_sectionName_eq hname
      have hrewritten := hchange _ hmem
      obtain ⟨table, htable⟩ := hrewritten.exists_table
      have hkeys := hdata.sections _ _ hmem
      have hchanged : other.lookup rule.sectionName = some (.table table) := by
        rw [lookup_eq_some_iff hmapping.distinct, hperm.mem_iff, ← htable]
        exact List.mem_map.mpr ⟨_, hmem, rfl⟩
      rw [htable] at hrewritten
      simp only [Rule.sectionSettings, hsection, hchanged]
      exact (hrewritten.sameSection hkeys rfl).settings_eq hkeys hsound

end Rearranged

end Entries

namespace Config

open Entries

variable {data other : Entries} {source : String} {config : Config}

theorem complaints_eq_nil_iff_fits (hdata : data.IsMapping) :
    complaints data = [] ↔ ∀ entry ∈ data, Fits entry.1 entry.2 := by
  constructor
  · rintro hnone ⟨name, value⟩ hmem
    obtain ⟨-, hknown⟩ := List.append_eq_nil_iff.mp hnone
    have hname := List.filter_eq_nil_iff.mp (List.map_eq_nil_iff.mp hknown) name
      (List.mem_map_of_mem hmem)
    obtain ⟨rule, hrule⟩ := Option.ne_none_iff_exists'.mp (by simpa using hname)
    obtain rfl := Rule.ofSectionName?_eq_some_iff.mp hrule
    have hsection := sectionComplaints_eq_nil hnone rule
    simp only [Rule.sectionComplaints, (lookup_eq_some_iff hdata.distinct).mpr hmem] at hsection
    split at hsection
    next => contradiction
    next entries htable =>
      cases htable
      exact ⟨rule, entries, rfl, rfl,
        (complaints_eq_nil_iff (hdata.sections _ _ hmem)).mp hsection⟩
    next => cases hsection
  · intro hfits
    refine List.append_eq_nil_iff.mpr ⟨List.flatMap_eq_nil_iff.mpr ?_, ?_⟩
    · intro rule _
      unfold Rule.sectionComplaints
      split
      next => rfl
      next entries htable =>
        have hmem := (lookup_eq_some_iff hdata.distinct).mp htable
        obtain ⟨named, hname, hsound⟩ := fits_table_iff.mp (hfits _ hmem)
        obtain rfl := Rule.eq_of_sectionName_eq hname
        exact (complaints_eq_nil_iff (hdata.sections _ _ hmem)).mpr hsound
      next value hother hvalue =>
        have hmem := (lookup_eq_some_iff hdata.distinct).mp hvalue
        obtain ⟨named, entries, -, htable, -⟩ := hfits _ hmem
        exact absurd htable (hother entries)
    · rw [List.map_eq_nil_iff, List.filter_eq_nil_iff]
      intro name hname
      obtain ⟨entry, hentry, rfl⟩ := List.mem_map.mp hname
      obtain ⟨rule, entries, hsection, -, -⟩ := hfits entry hentry
      simp [Rule.ofSectionName?_eq_some_iff.mpr hsection]

theorem ofEntries_of_rearranged (hdata : data.IsMapping) (hother : data.Rearranged other) :
    ofEntries source data = .ok config ↔ ofEntries source other = .ok config := by
  rw [ofEntries_eq_ok_iff, ofEntries_eq_ok_iff, complaints_eq_nil_iff_fits hdata,
    complaints_eq_nil_iff_fits (hother.isMapping hdata), ← hother.fits_iff hdata]
  refine and_congr_right fun hfits => ?_
  rw [funext (hother.sectionSettings_eq hdata hfits)]

/--
Data that say the same in another order and with other names for their options are accepted
alike, and give the same configuration: the defaults, except for the options that are given.
-/
theorem ofEntries_same_however_written (source : String) (hdata : data.IsMapping)
    (hother : data.Rearranged other) :
    ((∃ config, ofEntries source data = .ok config) ↔
        ∃ config, ofEntries source other = .ok config) ∧
      ∀ config, ofEntries source data = .ok config →
        ofEntries source other = .ok config ∧
        ∀ rule, ∀ field ∈ rule.fields,
          (∃ value, data.Gives rule field value ∧
            value.toBoolean = .ok ((config.settings rule).value field)) ∨
          (∀ value, ¬ data.Gives rule field value) ∧
            (config.settings rule).value field = (Settings.default rule).value field := by
  refine ⟨exists_congr fun config => ofEntries_of_rearranged hdata hother, ?_⟩
  intro config hconfig
  exact ⟨(ofEntries_of_rearranged hdata hother).mp hconfig,
    fun rule field hfield => value_of_ofEntries hconfig hfield⟩

def plainCastData : Entries :=
  [("before", .table [("dot", .text "YES"), ("labeledStatement", .integer 0)]),
   ("after", .table [("type_cast", .boolean true), ("allow_line_breaks", .text "off")])]

def camelCastData : Entries :=
  [("after", .table [("allowLineBreaks", .text "off"), ("typeCast", .boolean true)]),
   ("before", .table [("dot", .text "YES"), ("labeledStatement", .integer 0)])]

theorem isMapping_plainCastData : plainCastData.IsMapping where
  distinct := by decide
  sections := by
    intro name entries hmem
    simp only [plainCastData, List.mem_cons, Prod.mk.injEq, Value.table.injEq, List.not_mem_nil,
      or_false] at hmem
    rcases hmem with ⟨-, rfl⟩ | ⟨-, rfl⟩ <;> decide

def camelCastName (key : String) : String :=
  if key = "type_cast" then "typeCast"
  else if key = "allow_line_breaks" then "allowLineBreaks" else key

theorem respells_camelCastName : Rule.after.Respells camelCastName := by
  intro key
  by_cases hcast : key = "type_cast"
  · subst hcast
    exact .inr ⟨.construct .typeCast, by decide, by decide +kernel⟩
  · by_cases hbreaks : key = "allow_line_breaks"
    · subst hbreaks
      exact .inr ⟨.allowLineBreaks, by decide, by decide +kernel⟩
    · exact .inl (by simp [camelCastName, hcast, hbreaks])

theorem rearranged_camelCastData : plainCastData.Rearranged camelCastData := by
  refine ⟨fun entry => if entry.1 = "after" then
    .table [("allowLineBreaks", .text "off"), ("typeCast", .boolean true)] else entry.2, ?_, ?_⟩
  · intro entry hentry
    simp only [plainCastData, List.mem_cons, List.not_mem_nil, or_false] at hentry
    rcases hentry with rfl | rfl
    · exact .kept _
    · have honce : GivenOnce [("type_cast", .boolean true), ("allow_line_breaks", .text "off")]
          .after := by
        unfold GivenOnce
        decide +kernel
      exact .respelled rfl honce respells_camelCastName (.swap _ _ _)
  · exact .swap _ _ _

theorem ofEntries_camelCastData :
    plainCastData.IsMapping ∧ plainCastData.Rearranged camelCastData ∧
      ∃ config, ofEntries "settings" plainCastData = .ok config ∧
        ofEntries "settings" camelCastData = .ok config ∧
        (config.settings .after).value (.construct .typeCast) = true ∧
        (config.settings .after).value .allowLineBreaks = false := by
  have hsame := ofEntries_same_however_written "settings" isMapping_plainCastData
    rearranged_camelCastData
  have hplain : ofEntries "settings" plainCastData =
      .ok ⟨fun rule => rule.sectionSettings plainCastData⟩ :=
    ofEntries_eq_ok_iff.mpr ⟨by decide +kernel, rfl⟩
  exact ⟨isMapping_plainCastData, rearranged_camelCastData, _, hplain, (hsame.2 _ hplain).1,
    by decide +kernel, by decide +kernel⟩

end Config

end TokenSpacing
