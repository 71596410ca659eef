import TypeBridge.Catalogue
import TypeBridge.Mapping
import TypeBridge.Text.Quoted
/-!
# TypeBridge — the journal of a run

What a run has to tell besides its outcome: the settings it uses, how many
types it read, each layout verdict when it is reached and each descriptor when
it is made. An `Account` is an outcome with the events on the way to it, and a
failed step keeps the events before it. The outcome of an account is always
that of the plain function of the same name.
-/

namespace TypeBridge

open Managed Native

inductive Severity
  | debug
  | info
deriving DecidableEq

def Severity.label : Severity → String
  | debug => "DEBUG"
  | info => "INFO"

inductive Event
  /-- The base namespace in use. -/
  | baseNamespace (name : String)
  /-- A number of types was read and linked. -/
  | parsed (count : Nat)
  /-- The layout of a type was decided. -/
  | verdict (name : String) (shared : Bool)
  /-- A type was given a descriptor. -/
  | classified (name : String) (t : Descriptor)

namespace Event

def severity : Event → Severity
  | baseNamespace _ => .info
  | parsed _ | verdict .. | classified .. => .debug

/-- The part of the program that tells of an event. -/
def channel : Event → String
  | baseNamespace _ => "reinterop"
  | parsed _ => "reinterop.generator.parser"
  | verdict .. | classified .. => "reinterop.generator.classifier"

def message : Event → String
  | baseNamespace name => "Base namespace: " ++ Text.quoted name
  | parsed count => "Parsed " ++ toString count ++ " types"
  | verdict name shared => name ++ (if shared then " is blittable" else " is not blittable")
  | classified name t =>
    "Classified " ++ name ++ " as " ++ t.rootedSpelling ++ " (" ++ t.kind.label ++ ")"

end Event

/-- An outcome and the events on the way to it. -/
structure Account (ε α : Type) where
  events : List Event
  outcome : Except ε α

namespace Account

variable {ε ε' α β : Type}

/-- An outcome with nothing to tell. -/
def ofExcept (outcome : Except ε α) : Account ε α :=
  ⟨[], outcome⟩

/-- Tells of an event. -/
def tell (event : Event) : Account ε Unit :=
  ⟨[event], .ok ()⟩

/-- Goes on from a success; a failure ends the account. -/
def bind (first : Account ε α) (next : α → Account ε β) : Account ε β :=
  match first with
  | ⟨events, .error e⟩ => ⟨events, .error e⟩
  | ⟨events, .ok a⟩ =>
    let ⟨more, outcome⟩ := next a
    ⟨events ++ more, outcome⟩

instance : Monad (Account ε) where
  pure a := ⟨[], .ok a⟩
  bind := bind

/-- The same account with another word for its failure. -/
def mapError (f : ε → ε') (account : Account ε α) : Account ε' α :=
  ⟨account.events, account.outcome.mapError f⟩

end Account

namespace Managed.Universe

/-- The verdicts of a ledger as events. -/
def verdictEvents (u : Universe) (ledger : Ledger FactId) : List Event :=
  ledger.map fun (id, shared) => .verdict (u.qualifiedName id) shared

/-- Decides whether a type has the same layout on both sides. -/
def layoutAccount (u : Universe) (settings : Settings) (id : FactId) :
    Account (LayoutFault FactId) Bool :=
  let (ledger, outcome) := (u.layoutGraph settings.enumBase).survey id
  ⟨u.verdictEvents ledger, outcome⟩

/-- The events of a classification: the verdicts it needs and, if it succeeds,
its result. A type with a fixed descriptor has nothing to tell. -/
def classifyEvents (u : Universe) (settings : Settings) (id : FactId) : List Event :=
  let (last, _) := u.pointerChain id
  if (u.fact last).fixedNative?.isSome then []
  else
    u.verdictEvents (u.surveyKind settings last).1 ++
      match u.classifyDeclared settings last with
      | .ok t => [.classified (u.qualifiedName last) t]
      | .error _ => []

/-- Gives a type its descriptor. -/
def classifyAccount (u : Universe) (settings : Settings) (id : FactId) :
    Account ClassificationError Descriptor :=
  ⟨u.classifyEvents settings id, u.classify settings id⟩

/-- Describes a type. -/
def describeAccount (u : Universe) (settings : Settings) (id : FactId) :
    Account MappingError Mapping :=
  ⟨u.classifyEvents settings id, u.describe settings id⟩

/-- Gives some types their descriptors, up to the first that has none. -/
def classifyAllAccount (u : Universe) (settings : Settings) (ids : List FactId) :
    Account ClassificationError (List Descriptor) :=
  ids.mapM (u.classifyAccount settings)

/-- Describes some types, up to the first that has no mapping. -/
def describeAllAccount (u : Universe) (settings : Settings) (ids : List FactId) :
    Account MappingError (List Mapping) :=
  ids.mapM (u.describeAccount settings)

end Managed.Universe

namespace Catalogue

/-- Reads a description. -/
def parseAccount (settings : Settings) (text : String) : Account ParseError Catalogue := do
  let c ← Account.ofExcept (parse settings.enumBase text)
  Account.tell (.parsed c.declared.length)
  return c

end Catalogue

end TypeBridge
