import TokenSpacing.Config.Value
import TokenSpacing.Rule
import TokenSpacing.Text.Quoted

/-!
What can be wrong with a configuration.
-/

namespace TokenSpacing

inductive SettingFault where
  | notTable (rule : Rule)
  | notBoolean (fault : BooleanFault)
  | unknownKey
  deriving DecidableEq, Repr

namespace SettingFault

def text : SettingFault → String
  | notTable rule => "Input should be a valid dictionary or instance of " ++ rule.settingsName
  | notBoolean .uninterpretable =>
      "Input should be a valid boolean, unable to interpret input"
  | notBoolean .wrongKind => "Input should be a valid boolean"
  | unknownKey => "Extra inputs are not permitted"

end SettingFault

structure Complaint where
  keys : List String
  fault : SettingFault
  deriving DecidableEq, Repr

namespace Complaint

def text (complaint : Complaint) : String :=
  let place := ".".intercalate complaint.keys
  if place.isEmpty then complaint.fault.text else place ++ ": " ++ complaint.fault.text

end Complaint

inductive ReadFault where
  | notFound
  | isDirectory
  | notDirectory
  deriving DecidableEq, Repr

namespace ReadFault

def text : ReadFault → String
  | notFound => "No such file or directory"
  | isDirectory => "Is a directory"
  | notDirectory => "Not a directory"

def number : ReadFault → Nat
  | notFound => 2
  | isDirectory => 21
  | notDirectory => 20

end ReadFault

inductive ConfigFault where
  | invalid (complaints : List Complaint)
  | unreadable (fault : ReadFault)
  | notToml
  | malformedOverride (item : String)
  | unknownSection (name : String)
  | unknownRules (names : List String)
  deriving DecidableEq, Repr

namespace ConfigFault

def text : ConfigFault → String
  | invalid complaints => "; ".intercalate (complaints.map Complaint.text)
  | unreadable fault => "cannot read file: " ++ fault.text
  | notToml => "invalid TOML"
  | malformedOverride item => "expected SECTION.OPTION=VALUE, got " ++ Text.quote item
  | unknownSection name =>
      "unknown section " ++ Text.quote name ++ " (expected one of: " ++
        ", ".intercalate (Rule.all.map Rule.sectionName) ++ ")"
  | unknownRules names =>
      "unknown rule(s): " ++ ", ".intercalate names ++ " (expected one of: " ++
        ", ".intercalate (Rule.all.map Rule.key) ++ ")"

end ConfigFault

structure ConfigError where
  source : String
  fault : ConfigFault
  deriving DecidableEq, Repr

namespace ConfigError

def locate (source text : String) : String :=
  source ++ ": " ++ text

def message (error : ConfigError) : String :=
  locate error.source error.fault.text

end ConfigError

end TokenSpacing
