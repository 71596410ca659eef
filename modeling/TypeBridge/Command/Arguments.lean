import TypeBridge.Command.Usage
import TypeBridge.Text.Similarity
/-!
# TypeBridge — arguments

Splits arguments into occurrences of options and free arguments. An option's
value may be part of its argument, behind an equals sign after a long name or
at once after a short one, or else it is the next argument, whatever that
looks like. Short switches may share an argument. After two dashes everything
is free.
-/

namespace TypeBridge

namespace Command

/-- An option as it is given, with its value if it takes one. -/
structure Occurrence where
  parameter : Parameter
  value : Option String := none
deriving DecidableEq

/-- What one argument gives, and whether the next one is part of it. -/
structure Taken where
  occurrences : List Occurrence
  takesNext : Bool := false

/-- An option whose value is the next argument. -/
def readNext (name : String) (p : Parameter) (rest : List String) : Except UsageError Taken :=
  match rest with
  | [] => .error (.needsArgument name)
  | value :: _ => .ok { occurrences := [⟨p, some value⟩], takesNext := true }

/-- The options of an argument with one dash. -/
def readShort (known : List Parameter) (rest : List String) :
    List Char → Except UsageError Taken
  | [] => .ok { occurrences := [] }
  | c :: more =>
    let name := "-" ++ c.toString
    match known.find? (·.short? = some c) with
    | none => .error (.noSuchOption name [])
    | some p =>
      if p.takesValue then
        if more.isEmpty then readNext name p rest
        else .ok { occurrences := [⟨p, some (String.ofList more)⟩] }
      else do
        let others ← readShort known rest more
        return { others with occurrences := ⟨p, none⟩ :: others.occurrences }

/-- The name in an argument and the value behind an equals sign. -/
def splitValue (argument : List Char) : String × Option String :=
  let name := String.ofList (argument.takeWhile (· ≠ '='))
  match argument.dropWhile (· ≠ '=') with
  | [] => (name, none)
  | _ :: value => (name, some (String.ofList value))

/-- The options of an argument that starts with a dash. -/
def readOption (known : List Parameter) (argument : List Char) (rest : List String) :
    Except UsageError Taken :=
  let (name, value) := splitValue argument
  match known.find? (·.long = name) with
  | some p =>
    match p.takesValue, value with
    | true, some value => .ok { occurrences := [⟨p, some value⟩] }
    | true, none => readNext name p rest
    | false, some _ => .error (.takesNoValue name)
    | false, none => .ok { occurrences := [⟨p, none⟩] }
  | none =>
    if argument.take 2 = ['-', '-'] then
      .error (.noSuchOption name (Text.closeMatches name (known.map (·.long))))
    else readShort known rest (argument.drop 1)

/-- Splits arguments into options and free arguments. Unless they may be
mixed, the first free argument ends the options. -/
def split (known : List Parameter) (mixed : Bool) :
    List String → Except UsageError (List Occurrence × List String)
  | [] => .ok ([], [])
  | argument :: rest =>
    if argument = "--" then .ok ([], rest)
    else
      match argument.toList with
      | '-' :: _ :: _ => do
        let found ← readOption known argument.toList rest
        let remaining := if found.takesNext then rest.drop 1 else rest
        let (occurrences, free) ← split known mixed remaining
        return (found.occurrences ++ occurrences, free)
      | _ =>
        if mixed then do
          let (occurrences, free) ← split known mixed rest
          return (occurrences, argument :: free)
        else .ok ([], argument :: rest)
termination_by arguments => arguments.length
decreasing_by
  · simp only [List.length_cons]
    split
    · rw [List.length_drop]
      omega
    · omega
  · simp

end Command

end TypeBridge
