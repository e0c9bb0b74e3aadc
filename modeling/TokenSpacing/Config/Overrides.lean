import TokenSpacing.Config.Reading
import TokenSpacing.Text.Layout
import TokenSpacing.Text.Casing

/-!
Overrides of single settings, written `SECTION.OPTION=VALUE`.

An override replaces the value of its option, so only the last one for an option
counts.  Values are read when all overrides are in place.
-/

namespace TokenSpacing

def partitionAt (mark : Char) : List Char → Option (List Char × List Char)
  | [] => none
  | c :: rest =>
      if c == mark then some ([], rest)
      else (partitionAt mark rest).map fun (left, right) => (c :: left, right)

structure Override where
  rule : Rule
  option : String
  value : String
  deriving DecidableEq, Repr

namespace Override

def read (item : String) : Except ConfigFault Override :=
  match partitionAt '=' item.toList with
  | none => .error (.malformedOverride item)
  | some (name, value) =>
      match partitionAt '.' (Text.strip name) with
      | none | some (_, []) => .error (.malformedOverride item)
      | some (sectionText, option) =>
          match Rule.ofSectionName? (String.ofList sectionText) with
          | none => .error (.unknownSection (String.ofList sectionText))
          | some rule =>
              .ok ⟨rule, String.ofList (Text.toSnake (Text.strip option)),
                String.ofList (Text.strip value)⟩

end Override

namespace Settings

def entries (settings : Settings) (rule : Rule) : Entries :=
  rule.fields.map fun field => (field.snakeName, .boolean (settings.value field))

end Settings

abbrev Sections := Rule → Entries

namespace Sections

def apply (sections : Sections) (override : Override) : Sections := fun rule =>
  if rule = override.rule then (sections rule).put override.option (.text override.value)
  else sections rule

def toEntries (sections : Sections) : Entries :=
  Rule.all.map fun rule => (rule.sectionName, .table (sections rule))

end Sections

namespace Config

def sections (config : Config) : Sections := fun rule =>
  (config.settings rule).entries rule

def overrideSource : String := "--set"

/-- The configuration with overrides applied in order.  A malformed item is an error
even if a later one has the same option. -/
def override (config : Config) (items : List String) : Except ConfigError Config :=
  match items.mapM Override.read with
  | .error fault => .error ⟨overrideSource, fault⟩
  | .ok overrides =>
      ofEntries overrideSource (overrides.foldl Sections.apply config.sections).toEntries

end Config

end TokenSpacing
