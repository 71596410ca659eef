import TypeBridge.Command.Parameter
import TypeBridge.Text.Filled
import TypeBridge.Text.Quoted
import TypeBridge.Text.Wrapped
/-!
# TypeBridge — usage errors and help

How the program tells its user what it takes. A usage error names what is
wrong with the arguments, below a reminder of how the command is used unless
an option and its value do not go together.
-/

namespace TypeBridge

namespace Command

/-- What arguments belong to: the program itself, or one of its commands. -/
inductive Addressee
  | program
  | command (c : Subcommand)
deriving DecidableEq

namespace Addressee

/-- The words that start the program or one of its commands. -/
def call : Addressee → String
  | program => "reinterop"
  | command c => "reinterop " ++ c.name

/-- How arguments are put. -/
def synopsis : Addressee → String
  | program => "Usage: reinterop [OPTIONS] COMMAND [ARGS]...\n"
  | command c => "Usage: reinterop " ++ c.name ++ " [OPTIONS]\n"

/-- What the program or a command is for. -/
def purpose : Addressee → String
  | program => "Reinterop C++ type mapper."
  | command c => c.purpose

/-- The options of the program or a command. -/
def parameters : Addressee → List Parameter
  | program => [.help]
  | command c => c.parameters

/-- Lines below each other, every one behind some blanks. -/
def block (indent : Nat) (lines : List String) : String :=
  String.join (lines.map fun line => Text.blanks indent ++ line ++ "\n")

/-- Entries in a column of their own, each with what there is to say about it
to the right. -/
def listing (width : Nat) (entries : List (String × String)) : String :=
  let column := (entries.map (·.1.length)).foldl max 0 + 2
  let lines : String × String → List String := fun (entry, text) =>
    match Text.wrapped (max (width - column - 2) 10) text with
    | [] => [entry]
    | first :: rest => (Text.filled column entry ++ first) :: rest.map (Text.blanks column ++ ·)
  block 2 (entries.flatMap lines)

/-- The commands, each with as much of its purpose as goes into a line. -/
def commandListing (width : Nat) : String :=
  let longest := (Subcommand.all.map (·.name.length)).foldl max 0
  let entry (c : Subcommand) := (c.name, Text.abridged (width - 6 - longest) c.purpose)
  listing width (Subcommand.all.map entry)

/-- Everything there is to say about the arguments, in lines of a width. -/
def help (width : Nat) (addressee : Addressee) : String :=
  let purpose := block 2 (Text.wrapped (width - 4) addressee.purpose)
  let options := listing width (addressee.parameters.map fun p => (p.usage, p.purpose))
  let general := addressee.synopsis ++ "\n" ++ purpose ++ "\nOptions:\n" ++ options
  match addressee with
  | program => general ++ "\nCommands:\n" ++ commandListing width
  | command _ => general

end Addressee

/-- What is wrong with arguments. -/
inductive UsageError
  /-- An unknown option, and the options that may be meant. -/
  | noSuchOption (name : String) (meant : List String)
  | needsArgument (name : String)
  | takesNoValue (name : String)
  | missingCommand
  /-- An unknown command, and the commands that may be meant. -/
  | noSuchCommand (name : String) (meant : List String)
  | noSuchFile (parameter : Parameter) (path : String)
  | isDirectory (parameter : Parameter) (path : String)
  | noSuchContext (value : String)
  | missingOption (parameter : Parameter)
  | extraArguments (arguments : List String)
deriving DecidableEq

namespace UsageError

def invalidValue (parameter : Parameter) (reason : String) : String :=
  "Invalid value for " ++ parameter.hint ++ ": " ++ reason

/-- The question whether a word that exists is meant. -/
def suggestion : List String → String
  | [] => ""
  | [word] => " Did you mean " ++ Text.quoted word ++ "?"
  | words => " (Did you mean one of: " ++ ", ".intercalate (words.map Text.quoted) ++ "?)"

def message : UsageError → String
  | noSuchOption name meant => "No such option " ++ Text.quoted name ++ "." ++ suggestion meant
  | needsArgument name => "Option " ++ Text.quoted name ++ " requires an argument."
  | takesNoValue name => "Option " ++ Text.quoted name ++ " does not take a value."
  | missingCommand => "Missing command."
  | noSuchCommand name meant => "No such command " ++ Text.quoted name ++ "." ++ suggestion meant
  | noSuchFile parameter path =>
    invalidValue parameter ("File " ++ Text.quoted path ++ " does not exist.")
  | isDirectory parameter path =>
    invalidValue parameter ("File " ++ Text.quoted path ++ " is a directory.")
  | noSuchContext value =>
    invalidValue .context (Text.quoted value ++ " is not one of 'header', 'source'.")
  | missingOption parameter => "Missing option " ++ parameter.hint ++ "."
  | extraArguments arguments =>
    (if arguments.length = 1 then "Got unexpected extra argument ("
      else "Got unexpected extra arguments (") ++ " ".intercalate arguments ++ ")"

/-- Whether the error comes without a reminder of the usage. -/
def isBare : UsageError → Bool
  | needsArgument _ | takesNoValue _ => true
  | _ => false

/-- The whole report of an error in the arguments of the program or a command. -/
def report (addressee : Addressee) (e : UsageError) : String :=
  let reminder :=
    if e.isBare then ""
    else addressee.synopsis ++ "Try '" ++ addressee.call ++ " --help' for help.\n\n"
  reminder ++ "Error: " ++ e.message ++ "\n"

end UsageError

end Command

end TypeBridge
