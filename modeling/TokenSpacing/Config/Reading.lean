import TokenSpacing.Config.Error
import TokenSpacing.Settings

/-!
Reading a configuration from a table of values.

A section may name each option by words joined with underscores or in camel case.  The
camel case spelling wins; every key that no option takes is a fault.  Faults are
listed in the order of the fields, unknown keys after them in the order of the table.
-/

namespace TokenSpacing

namespace Entries

/-- The entry that sets a field, with the key as it was written. -/
def entry? (entries : Entries) (field : Field) : Option (String × Value) :=
  match entries.lookup field.camelName with
  | some value => some (field.camelName, value)
  | none => (entries.lookup field.snakeName).map fun value => (field.snakeName, value)

def fieldComplaint? (entries : Entries) (rule : Rule) (field : Field) : Option Complaint :=
  match entries.entry? field with
  | none => none
  | some (key, value) =>
      match value.toBoolean with
      | .ok _ => none
      | .error fault => some ⟨[rule.sectionName, key], .notBoolean fault⟩

def usedKeys (entries : Entries) (rule : Rule) : List String :=
  rule.fields.filterMap fun field => (entries.entry? field).map Prod.fst

def unknownKeys (entries : Entries) (rule : Rule) : List String :=
  (entries.map Prod.fst).filter fun key => !(entries.usedKeys rule).contains key

def complaints (entries : Entries) (rule : Rule) : List Complaint :=
  rule.fields.filterMap (entries.fieldComplaint? rule) ++
    (entries.unknownKeys rule).map fun key => ⟨[rule.sectionName, key], .unknownKey⟩

def boolean? (entries : Entries) (field : Field) : Option Bool :=
  (entries.entry? field).bind fun entry => entry.2.toBoolean.toOption

def settings (entries : Entries) (rule : Rule) : Settings where
  value field :=
    let default := (Settings.default rule).value field
    if rule.fields.contains field then (entries.boolean? field).getD default else default

end Entries

namespace Rule

def sectionComplaints (rule : Rule) (data : Entries) : List Complaint :=
  match data.lookup rule.sectionName with
  | none => []
  | some (.table entries) => Entries.complaints entries rule
  | some _ => [⟨[rule.sectionName], .notTable rule⟩]

def sectionSettings (rule : Rule) (data : Entries) : Settings :=
  match data.lookup rule.sectionName with
  | some (.table entries) => Entries.settings entries rule
  | _ => Settings.default rule

end Rule

namespace Config

def complaints (data : Entries) : List Complaint :=
  Rule.all.flatMap (·.sectionComplaints data) ++
    ((data.map Prod.fst).filter fun key => (Rule.ofSectionName? key).isNone).map fun key =>
      ⟨[key], .unknownKey⟩

def ofEntries (source : String) (data : Entries) : Except ConfigError Config :=
  match complaints data with
  | [] => .ok ⟨fun rule => rule.sectionSettings data⟩
  | faults => .error ⟨source, .invalid faults⟩

end Config

end TokenSpacing
