import TypeBridge.Command.Invocation
import TypeBridge.Command.Table
import TypeBridge.Command.Terminal
import TypeBridge.Console.Grid
import TypeBridge.Journal
import TypeBridge.Json.Indented
import TypeBridge.Managed.Display
import TypeBridge.Settings.Load
/-!
# TypeBridge — running a command

From arguments, environment and the files they lead to, to everything the
program does: what it prints, what it writes to a file, and how it ends. A
fault of the user's is reported and ends the run with status 1; settings that
no report is foreseen for end it as a breakdown. Tables are shown by a console,
which may be any.

Arguments and files are ordinary texts. What becomes of them may have lone
halves, and so may any text of a report.
-/

namespace TypeBridge

namespace Command

open Managed Native

/-- Why a command has no result, or not the whole of it. -/
inductive Failure
  | settings (error : SettingsError)
  | parse (error : ParseError)
  | layout (fault : LayoutFault String)
  | handle (error : HandleError)
  | markup (fault : Markup.Fault)
  /-- A text to write has a lone half of a character. -/
  | loneHalf

namespace Failure

/-- A type's lack of a descriptor, with the names of the types in it. -/
def ofClassification (u : Universe) : ClassificationError → Failure
  | .layout fault => layout (fault.map u.qualifiedName)
  | .descriptor error => handle (.descriptor error)

/-- A type's lack of a mapping, with the names of the types in it. -/
def ofMapping (u : Universe) : MappingError → Failure
  | .classification error => ofClassification u error
  | .handle error => handle error

/-- The report of a fault of the user's. -/
def report? : Failure → Option String
  | settings error => if error.isReported then error.message? else none
  | parse (.notRead error) => some error.report
  | parse (.notLinked error) => some error.message
  | layout fault => some fault.message
  | handle _ | markup _ | loneHalf => none

end Failure

/-! ## Output -/

/-- What a command writes, up to the failure that keeps it from writing more. -/
structure Output where
  text : String := ""
  failure : Option Failure := none

namespace Output

/-- A text is written as a whole or, if it has a lone half, not at all. -/
def ofText (text : String) : Output :=
  if Text.hasHalf text then { failure := some .loneHalf } else { text }

/-- What a console makes of markup. -/
def ofMarkup : Except Markup.Fault String → Output
  | .ok text => ofText text
  | .error fault => { failure := some (.markup fault) }

/-- One output behind another, unless that is not whole. -/
def append (first second : Output) : Output :=
  match first.failure with
  | some _ => first
  | none => { second with text := first.text ++ second.text }

/-- The table of mappings. Its title is written before the names are read. -/
def ofTable (console : Console) (mappings : List Mapping) : Output :=
  (ofMarkup (console.line Table.title)).append
    (ofMarkup (console.table Table.headings (mappings.map Table.row)))

end Output

/-! ## Results -/

/-- A mapping as a JSON object. -/
def mappingJson (m : Mapping) : Json :=
  let text? (text : Option String) : Json := (text.map Json.string).getD .null
  .object [("name", .string m.name), ("kind", .string m.kind.label),
    ("qualified_name", .string m.qualifiedName), ("return_type", .string m.returnType),
    ("parameter_type", .string m.parameterType), ("interop_type", .string m.interopType),
    ("to_interop", .string m.toInterop), ("from_interop", .string m.fromInterop),
    ("forward_declarable", .bool m.forwardDeclarable),
    ("forward_declaration", text? m.forwardDeclaration),
    ("header_include", text? m.headerInclude), ("source_include", text? m.sourceInclude)]

/-- The text of a file; a path that leads to none has no text. -/
def Entry.text : Entry → String
  | file text => text
  | missing | directory => ""

/-- The settings of an invocation: those of its configuration, with the base
namespace it overrides. -/
def settingsOf (files : String → Entry) (i : Invocation) : Except SettingsError Settings := do
  let settings ←
    match i.config with
    | some path => Settings.load path (files path).text
    | none => .ok .standard
  match i.baseNamespace with
  | some baseNamespace => settings.rebase (Text.protect baseNamespace)
  | none => return settings

/-- The result of an invocation. -/
def result (console : Console) (files : String → Entry) (i : Invocation) :
    Account Failure Output := do
  let settings ← (Account.ofExcept (settingsOf files i)).mapError .settings
  Account.tell (.baseNamespace settings.baseNamespace)
  let source := String.ofList (Text.unifyNewlines (files i.input).text.toList)
  let c ← (Catalogue.parseAccount settings source).mapError .parse
  match i.command with
  | .map =>
    let mappings ← (c.describeAllAccount settings c.declared).mapError (.ofMapping c.toUniverse)
    return if i.json then .ofText ((Json.array (mappings.map mappingJson)).indented 0 ++ "\n")
      else .ofTable console mappings
  | .preamble =>
    let types ← (c.classifyAllAccount settings c.declared).mapError
      (.ofClassification c.toUniverse)
    return .ofText (preamble i.emission types)

/-! ## Reports -/

/-- How a run ends. -/
inductive Ending
  | success
  /-- The user's input is at fault. -/
  | reported
  /-- The arguments make no sense. -/
  | misused
  /-- A failure without a report. -/
  | breakdown (failure : Failure)

def Ending.exitCode : Ending → Nat
  | success => 0
  | reported | breakdown _ => 1
  | misused => 2

/-- Everything a run does. -/
structure Report where
  ending : Ending
  stdout : String := ""
  stderr : String := ""
  /-- A file to write, by path and text. -/
  written : Option (String × String) := none

/-- Whether an event is told at a verbosity. -/
def isTold (verbosity : Nat) (e : Event) : Bool :=
  match e.severity with
  | .info => 1 ≤ verbosity
  | .debug => 2 ≤ verbosity

/-- An event on a line of its own, where a lone half is written as an
escape. -/
def eventLine (e : Event) : String :=
  let label := e.severity.label
  "[" ++ Text.filled 5 label ++ "] " ++ e.channel ++
    ": " ++ Text.protect (Text.writable e.message) ++ "\n"

/-- Everything an invocation does. Only a preamble goes to a file. -/
def Invocation.report (console : Console) (files : String → Entry) (i : Invocation) : Report :=
  let account := result console files i
  let stderr := String.join ((account.events.filter (isTold i.verbosity)).map eventLine)
  match account.outcome, i.output with
  | .ok output, path? =>
    let ending := (output.failure.map Ending.breakdown).getD .success
    match path? with
    | none => { ending, stdout := output.text, stderr }
    | some path => { ending, stderr, written := some (path, output.text) }
  | .error failure, _ =>
    match failure.report? with
    | some message =>
      { ending := .reported, stdout := "Error: " ++ Text.protect message ++ "\n", stderr }
    | none => { ending := .breakdown failure, stderr }

/-- Everything the program does. -/
def run (files : String → Entry) (environment : String → Option String)
    (arguments : List String) : Report :=
  let columns := environment "COLUMNS"
  match Request.ofArguments files environment arguments with
  | .error (addressee, e) => { ending := .misused, stderr := Text.protect (e.report addressee) }
  | .ok .nothing =>
    { ending := .misused, stderr := Addressee.program.help (Terminal.helpWidth columns) }
  | .ok (.help addressee) =>
    { ending := .success, stdout := addressee.help (Terminal.helpWidth columns) }
  | .ok (.run invocation) => invocation.report (.terminal (Terminal.tableWidth columns)) files

end Command

end TypeBridge
