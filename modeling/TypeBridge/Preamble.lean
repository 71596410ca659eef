import TypeBridge.Native.Include
import TypeBridge.Text.Ascending
/-!
# TypeBridge — the opening of a generated file

The includes and forward declarations that a set of native types asks for,
collected for one kind of file and written out in ascending order. The text
depends on the set of types alone: neither their order nor repetition shows.
-/

namespace TypeBridge

open Native

/-- The kind of file that is generated. -/
inductive Emission
  | header
  | source
deriving DecidableEq

namespace Emission

def label : Emission → String
  | header => "header"
  | source => "source"

/-- The kind of file that a word names. -/
def ofLabel? (word : String) : Option Emission :=
  [header, source].find? (·.label = word)

end Emission

/-- What one file needs: include operands and forward declarations, ascending
and each once. -/
structure Requirements where
  includes : List String := []
  declarations : List String := []

namespace Requirements

open Text

/-- Adds what a type needs in a kind of file. -/
def add (emission : Emission) (needs : Requirements) (t : Descriptor) : Requirements :=
  match emission with
  | .header =>
    { includes := Ascending.insert? t.headerInclude? needs.includes
      declarations := Ascending.insert? t.forwardDeclaration? needs.declarations }
  | .source =>
    { needs with includes := Ascending.insert? t.sourceInclude? needs.includes }

/-- Adds what each of some types needs. -/
def addAll (emission : Emission) (needs : Requirements) (types : List Descriptor) : Requirements :=
  types.foldl (add emission) needs

/-- What some types need together. -/
def ofTypes (emission : Emission) (types : List Descriptor) : Requirements :=
  addAll emission {} types

end Requirements

/-- The opening of a generated file: the include lines, a blank line if
declarations follow, and the declarations. A header starts with its guard. -/
def preamble (emission : Emission) (types : List Descriptor) : String :=
  let needs := Requirements.ofTypes emission types
  let guard := if emission = .header then "#pragma once\n\n" else ""
  let includes := String.join (needs.includes.map fun operand => "#include " ++ operand ++ "\n")
  let gap := if needs.includes = [] ∨ needs.declarations = [] then "" else "\n"
  let declarations := String.join (needs.declarations.map (· ++ "\n"))
  guard ++ includes ++ gap ++ declarations

end TypeBridge
