/-!
# TypeBridge — the parameters of the command line

The program has two commands, and each takes options alone. An option has a
long name and possibly a short one, and it either takes a value or is a
switch.
-/

namespace TypeBridge

namespace Command

/-- What the program is asked to do. -/
inductive Subcommand
  | map
  | preamble
deriving DecidableEq

inductive Parameter
  | verbose
  | baseNamespace
  | config
  | input
  | json
  | context
  | output
  | help
deriving DecidableEq

namespace Parameter

def long : Parameter → String
  | verbose => "--verbose"
  | baseNamespace => "--base-namespace"
  | config => "--config"
  | input => "--input"
  | json => "--json"
  | context => "--context"
  | output => "--output"
  | help => "--help"

def short? : Parameter → Option Char
  | verbose => some 'v'
  | input => some 'i'
  | context => some 'c'
  | output => some 'o'
  | baseNamespace | config | json | help => none

/-- The word for the value that a parameter takes. -/
def valueWord? : Parameter → Option String
  | baseNamespace | output => some "TEXT"
  | config | input => some "FILE"
  | context => some "[header|source]"
  | verbose | json | help => none

def takesValue (p : Parameter) : Bool :=
  p.valueWord?.isSome

/-- How a parameter is given. -/
def usage (p : Parameter) : String :=
  let short := (p.short?.map fun c => "-" ++ c.toString).toList
  let names := ", ".intercalate (short ++ [p.long])
  " ".intercalate (names :: p.valueWord?.toList)

/-- What a parameter is for. -/
def purpose : Parameter → String
  | verbose => "Increase log verbosity"
  | baseNamespace => "Outermost C++ namespace (overrides the configuration file)"
  | config => "JSON configuration file"
  | input => "Type fact description file  [required]"
  | json => "Output as JSON"
  | context => "Kind of file the preamble is for"
  | output => "Output file (default stdout)"
  | help => "Show this message and exit."

/-- Both names of a parameter, as messages give them. -/
def hint (p : Parameter) : String :=
  "'" ++ p.long ++ "'" ++
    match p.short? with
    | some c => " / '-" ++ c.toString ++ "'"
    | none => ""

end Parameter

namespace Subcommand

def name : Subcommand → String
  | map => "map"
  | preamble => "preamble"

def all : List Subcommand :=
  [map, preamble]

def ofName? (name : String) : Option Subcommand :=
  all.find? (·.name = name)

/-- What a command is for. -/
def purpose : Subcommand → String
  | map => "Show how each declared type is represented in C++."
  | preamble => "Generate the includes and forward declarations for all declared types."

/-- The parameters of a command, in the order of its help text. -/
def parameters : Subcommand → List Parameter
  | map => [.verbose, .baseNamespace, .config, .input, .json, .help]
  | preamble => [.verbose, .baseNamespace, .config, .input, .context, .output, .help]

end Subcommand

end Command

end TypeBridge
