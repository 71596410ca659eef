import TypeBridge.Json.Display
import TypeBridge.Json.Reading
import TypeBridge.Settings
import TypeBridge.Text.Newline
/-!
# TypeBridge — settings from a configuration

A configuration is a JSON object whose members are settings by name. What it
does not name keeps its default, members of other names mean nothing, and
values that are no strings stand for their text. Null takes a setting away,
which the base namespace cannot be.
-/

namespace TypeBridge

/-- Why there are no settings. -/
inductive SettingsError
  /-- The configuration file with this name is no JSON text. -/
  | malformed (file : String) (text : List Char) (fault : Json.Fault)
  /-- The configuration has an integer of too many digits. -/
  | longInteger (digits : Nat)
  /-- The configuration is no object. -/
  | noObject
  /-- The base namespace is null. -/
  | noBaseNamespace
  /-- The base namespace is no single name. -/
  | baseNamespacePath (name : String)
deriving DecidableEq

namespace SettingsError

/-- Whether the fault is one of the user's. -/
def isReported : SettingsError → Bool
  | malformed .. | baseNamespacePath _ => true
  | longInteger _ | noObject | noBaseNamespace => false

/-- What there is to say of an error. -/
def message? : SettingsError → Option String
  | malformed file text fault =>
    some ("Invalid configuration file " ++ file ++ ": " ++ fault.message text)
  | baseNamespacePath name =>
    some ("Base namespace " ++ Text.quoted name ++ " must be a single namespace name")
  | longInteger digits => some (Json.Problem.longInteger digits).message
  | noObject | noBaseNamespace => none

end SettingsError

namespace Settings

/-- The settings with another base namespace. -/
def rebase (settings : Settings) (baseNamespace : String) : Except SettingsError Settings :=
  match settings.withBase? baseNamespace with
  | some settings => .ok settings
  | none => .error (.baseNamespacePath baseNamespace)

/-- One setting of a configuration, which has a default. -/
def member (members : List (String × Json)) (key : String) (default : Option String) :
    Option String :=
  match members.lookup key with
  | some value => value.text?
  | none => default

/-- The settings that a configuration names. -/
def ofMembers (members : List (String × Json)) : Except SettingsError Settings :=
  let settings : Settings :=
    { standard with
      enumBase := member members "enum_base_type" standard.enumBase
      handleNamespace := member members "handle_namespace" standard.handleNamespace
      handleName := member members "handle_name" standard.handleName }
  match member members "base_namespace" (some standard.baseNamespace) with
  | some baseNamespace => settings.rebase baseNamespace
  | none => .error .noBaseNamespace

/-- The settings in the text of a configuration file. Every line end counts as
a line feed. -/
def load (file : String) (text : String) : Except SettingsError Settings := do
  let text := Text.unifyNewlines text.toList
  match Json.ofText text with
  | .error ⟨.longInteger digits, _⟩ => .error (.longInteger digits)
  | .error fault => .error (.malformed file text fault)
  | .ok (.object members) => ofMembers members
  | .ok _ => .error .noObject

end Settings

end TypeBridge
