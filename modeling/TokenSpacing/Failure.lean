import TokenSpacing.Config.Error
import TokenSpacing.Java.Conversion

/-!
Why a run over files stops, and what it logs on the way.

Wrong settings, and files that do not parse or cannot be read, are told to the user.  The
run breaks off at settings that are not text or hold an integer with too many digits, at a
tool table that is something else, at options and overrides that are left blank, at names
too long for a directory, and at a path from a home directory that is not known.
-/

namespace TokenSpacing

inductive Failure where
  | config (error : ConfigError)
  | parse (error : ParseError)
  | unconvertible (fault : Java.ConversionFault)
  | violation (violation : Violation)
  | unreadable (location : String) (fault : ReadFault)
  | undecodableSettings
  | toolsNotTable
  | longInteger
  | blankOption
  | blankOverride
  | longName
  | unknownHome
  deriving DecidableEq, Repr

namespace Failure

def ofParse : Java.ParseFailure → Failure
  | .rejected error => parse error
  | .unconvertible fault => unconvertible fault

end Failure

inductive LogLevel where
  | debug
  | info
  | warning
  | error
  deriving DecidableEq, Repr

namespace LogLevel

def name : LogLevel → String
  | debug => "DEBUG"
  | info => "INFO"
  | warning => "WARNING"
  | error => "ERROR"

def rank : LogLevel → Nat
  | debug => 0
  | info => 1
  | warning => 2
  | error => 3

end LogLevel

structure LogEntry where
  level : LogLevel
  source : String
  text : String
  deriving DecidableEq, Repr

structure Logged (α : Type) where
  log : List LogEntry
  outcome : Except Failure α

namespace Logged

def ofExcept {α : Type} (outcome : Except Failure α) : Logged α :=
  ⟨[], outcome⟩

def fail {α : Type} (failure : Failure) : Logged α :=
  ⟨[], .error failure⟩

def note (level : LogLevel) (source text : String) : Logged Unit :=
  ⟨[⟨level, source, text⟩], .ok ()⟩

def bind {α β : Type} (first : Logged α) (next : α → Logged β) : Logged β :=
  match first.outcome with
  | .error failure => ⟨first.log, .error failure⟩
  | .ok value =>
      let rest := next value
      ⟨first.log ++ rest.log, rest.outcome⟩

instance : Monad Logged where
  pure value := ⟨[], .ok value⟩
  bind := bind

end Logged

end TokenSpacing
