import TypeBridge.Command.Arguments
import TypeBridge.Preamble
/-!
# TypeBridge — invocations

What arguments and environment ask for, once they are known to make sense.
The checks run in the order in which options are first given, then over the
options that are not, and the first that fails is the one reported. Asking
for help comes before all of them.
-/

namespace TypeBridge

namespace Command

/-- What a path leads to. -/
inductive Entry
  | missing
  | directory
  | file (text : String)

/-- A command with everything it needs to know. -/
structure Invocation where
  command : Subcommand
  verbosity : Nat
  baseNamespace : Option String
  config : Option String
  input : String
  json : Bool
  emission : Emission
  output : Option String

/-- What arguments ask for. -/
inductive Request
  | help (addressee : Addressee)
  /-- Nothing at all. -/
  | nothing
  | run (invocation : Invocation)

/-- The value that a parameter is given last. -/
def lastValue? (occurrences : List Occurrence) (p : Parameter) : Option String :=
  (occurrences.reverse.find? (·.parameter = p)).bind (·.value)

/-- The parameters of a command, those that are given first and by their first
occurrence. -/
def checkOrder (command : Subcommand) (occurrences : List Occurrence) : List Parameter :=
  let given := (occurrences.map (·.parameter)).eraseDups
  given ++ command.parameters.filter (· ∉ given)

/-- A path has to lead to a file. -/
def checkFile (files : String → Entry) (p : Parameter) (path : String) : Except UsageError Unit :=
  match files path with
  | .missing => .error (.noSuchFile p path)
  | .directory => .error (.isDirectory p path)
  | .file _ => .ok ()

/-- Checks the value of a parameter, or that it may go without. -/
def check (files : String → Entry) (p : Parameter) (value : Option String) :
    Except UsageError Unit :=
  match p, value with
  | .config, some path => checkFile files p path
  | .input, some path => checkFile files p path
  | .input, none => .error (.missingOption p)
  | .context, some word =>
    if (Emission.ofLabel? word).isSome then .ok () else .error (.noSuchContext word)
  | _, _ => .ok ()

/-- The invocation that checked options make. An empty variable of the
environment counts as none. -/
def Invocation.ofOccurrences (command : Subcommand) (environment : String → Option String)
    (occurrences : List Occurrence) : Invocation :=
  let value? := lastValue? occurrences
  let inherited := (environment "REINTEROP_BASE_NAMESPACE").filter (· ≠ "")
  { command
    verbosity := occurrences.countP (·.parameter = .verbose)
    baseNamespace := value? .baseNamespace <|> inherited
    config := value? .config
    input := (value? .input).getD ""
    json := occurrences.any (·.parameter = .json)
    emission := ((value? .context).bind Emission.ofLabel?).getD .header
    output := value? .output }

/-- What the arguments of a command ask for. -/
def Request.ofCommand (files : String → Entry) (environment : String → Option String)
    (command : Subcommand) (arguments : List String) : Except UsageError Request := do
  let (occurrences, free) ← split command.parameters true arguments
  if occurrences.any (·.parameter = .help) then return .help (.command command)
  (checkOrder command occurrences).forM fun p => check files p (lastValue? occurrences p)
  unless free.isEmpty do .error (.extraArguments free)
  return .run (.ofOccurrences command environment occurrences)

/-- What arguments ask for that start with no command. An unknown command may
still be an option that stands behind two dashes. -/
def Request.ofUnknown (name : String) (rest : List String) : Except UsageError Request := do
  let (occurrences, _) ← split [.help] false (name :: rest)
  if occurrences.any (·.parameter = .help) then return .help .program
  .error (.noSuchCommand name (Text.closeMatches name (Subcommand.all.map (·.name))))

/-- What arguments ask for, or what is wrong with them and whom they were
for. -/
def Request.ofArguments (files : String → Entry) (environment : String → Option String)
    (arguments : List String) : Except (Addressee × UsageError) Request := do
  if arguments.isEmpty then return .nothing
  let (occurrences, free) ← (split [.help] false arguments).mapError (Addressee.program, ·)
  if occurrences.any (·.parameter = .help) then return .help .program
  match free with
  | [] => .error (.program, .missingCommand)
  | name :: rest =>
    match Subcommand.ofName? name with
    | none => (ofUnknown name rest).mapError (.program, ·)
    | some command =>
      (ofCommand files environment command rest).mapError (Addressee.command command, ·)

/-- The paths that arguments may ask to read. -/
def pathsToRead (arguments : List String) : List String :=
  let ofCommand (command : Subcommand) : List String :=
    match split command.parameters true (arguments.drop 1) with
    | .ok (occurrences, _) =>
      let reads := occurrences.filter fun o => o.parameter = .input ∨ o.parameter = .config
      reads.filterMap (·.value)
    | .error _ => []
  ofCommand .map ++ ofCommand .preamble

end Command

end TypeBridge
