import TypeBridge.Command.Run
import TypeBridge.Proofs.Settings.Spoilt
/-!
# TypeBridge — the outcome of a run

What a run tells on its way does not change where it gets. So the outcome of a
run is that of its steps, one after the other and without a journal
(`outcome_result`): settings, a catalogue, and what the command makes of them.
And the outcome says how the run ends: a text is delivered, a fault of the
user's is told, and any other failure is a breakdown.
-/

namespace TypeBridge

open Managed Native Text

namespace Account

variable {ε α β : Type}

theorem outcome_bind (first : Account ε α) (next : α → Account ε β) :
    (first >>= next).outcome = first.outcome >>= fun a => (next a).outcome := by
  obtain ⟨events, error | a⟩ := first <;> rfl

theorem outcome_loop (f : α → Account ε β) (as : List α) (bs : List β) :
    (List.mapM.loop f as bs).outcome = List.mapM.loop (fun a => (f a).outcome) as bs := by
  induction as generalizing bs with
  | nil => rfl
  | cons a as ih =>
    rw [List.mapM.loop, List.mapM.loop, outcome_bind]
    exact bind_congr fun b => ih (b :: bs)

/-- One account after another has the outcome of one attempt after another. -/
theorem outcome_mapM (f : α → Account ε β) (as : List α) :
    (as.mapM f).outcome = as.mapM fun a => (f a).outcome :=
  outcome_loop f as []

end Account

namespace Command

variable {console : Console} {files : String → Entry} {i : Invocation} {settings : Settings}
variable {c : Catalogue} {error : SettingsError} {failure : Failure} {output : Output}
variable {text message : String}

/-- The input as it is read: every line end counts as a line feed. -/
def Invocation.source (i : Invocation) (files : String → Entry) : String :=
  String.ofList (Text.unifyNewlines (files i.input).text.toList)

/-- The output of a command for the types of a catalogue. -/
def Invocation.outputFor (i : Invocation) (console : Console) (settings : Settings)
    (c : Catalogue) : Except Failure Output :=
  match i.command with
  | .map => ((c.describeAll settings c.declared).mapError (.ofMapping c.toUniverse)).map
      fun mappings =>
        if i.json then .ofText ((Json.array (mappings.map mappingJson)).indented 0 ++ "\n")
        else .ofTable console mappings
  | .preamble => ((c.classifyAll settings c.declared).mapError
      (.ofClassification c.toUniverse)).map fun types => .ofText (preamble i.emission types)

/-- **The outcome of a run** is that of its steps. -/
theorem outcome_result : (result console files i).outcome =
    (settingsOf files i).mapError Failure.settings >>= fun settings =>
      (Catalogue.parse settings.enumBase (i.source files)).mapError Failure.parse >>= fun c =>
        i.outputFor console settings c := by
  have hparse (settings : Settings) (source : String) :
      (Catalogue.parseAccount settings source).outcome =
        Catalogue.parse settings.enumBase source := by
    rw [Catalogue.parseAccount, Account.outcome_bind]
    rcases Catalogue.parse settings.enumBase source with error | c <;> rfl
  rw [result, Account.outcome_bind]
  refine bind_congr fun settings => ?_
  rw [Account.outcome_bind]
  show (_ >>= _ : Account Failure Output).outcome = _
  rw [Account.outcome_bind, Account.mapError, hparse]
  refine bind_congr fun c => ?_
  rw [Invocation.outputFor]
  cases i.command
  · show (_ >>= _ : Account Failure Output).outcome = _
    rw [Account.outcome_bind, Account.mapError, Universe.describeAllAccount, Account.outcome_mapM]
    rfl
  · show (_ >>= _ : Account Failure Output).outcome = _
    rw [Account.outcome_bind, Account.mapError, Universe.classifyAllAccount, Account.outcome_mapM]
    rfl

/-- **Settings are lacking without a report** only for a configuration that is
spoilt: a base namespace that overrides it is reported. -/
theorem settingsOf_eq_error_iff (hunreported : error.isReported = false) :
    settingsOf files i = .error error ↔ ∃ path, i.config = some path ∧
      Settings.Spoilt (Text.unifyNewlines (files path).text.toList) error := by
  have hrebase (settings : Settings) (baseNamespace : String) :
      settings.rebase (protect baseNamespace) ≠ .error error :=
    Settings.rebase_ne_error hunreported
  rw [settingsOf]
  rcases hconfig : i.config with _ | path
  · refine iff_of_false ?_ (by simp)
    cases i.baseNamespace with
    | none => rintro ⟨⟩
    | some baseNamespace => simpa only [bind, Except.bind] using hrebase .standard baseNamespace
  · have hload : Settings.load path (files path).text = .error error ↔
        Settings.Spoilt (unifyNewlines (files path).text.toList) error :=
      Settings.load_eq_error_iff hunreported
    simp only [Option.some.injEq, exists_eq_left', ← hload]
    rcases Settings.load path (files path).text with error' | settings
    · rfl
    · refine iff_of_false ?_ (by simp)
      cases i.baseNamespace with
      | none => rintro ⟨⟩
      | some baseNamespace => simpa only [bind, Except.bind] using hrebase settings baseNamespace

/-- A run that gets as far as a catalogue. -/
structure Invocation.Reads (files : String → Entry) (i : Invocation) (settings : Settings)
    (c : Catalogue) : Prop where
  settings_eq : settingsOf files i = .ok settings
  parse_eq : Catalogue.parse settings.enumBase (i.source files) = .ok c

theorem outcome_of_settings_error (console : Console) (h : settingsOf files i = .error error) :
    (result console files i).outcome = .error (.settings error) := by
  rw [outcome_result, h]
  rfl

theorem outcome_of_parse_error {error : ParseError} (console : Console)
    (h : settingsOf files i = .ok settings)
    (hparse : Catalogue.parse settings.enumBase (i.source files) = .error error) :
    (result console files i).outcome = .error (.parse error) := by
  rw [outcome_result, h]
  show (Except.mapError _ (Catalogue.parse settings.enumBase (i.source files)) >>= _) = _
  rw [hparse]
  rfl

theorem Invocation.Reads.outcome_eq (h : i.Reads files settings c) (console : Console) :
    (result console files i).outcome = i.outputFor console settings c := by
  rw [outcome_result, h.settings_eq]
  show (Except.mapError _ (Catalogue.parse settings.enumBase (i.source files)) >>= _) = _
  rw [h.parse_eq]
  rfl

section

variable (h : i.Reads files settings c) (console : Console)

include h

theorem Invocation.Reads.outcome_of_describeAll {mappings : List Mapping} (hmap : i.command = .map)
    (hdescribe : c.describeAll settings c.declared = .ok mappings) :
    (result console files i).outcome =
      .ok (if i.json then .ofText ((Json.array (mappings.map mappingJson)).indented 0 ++ "\n")
        else .ofTable console mappings) := by
  rw [h.outcome_eq, Invocation.outputFor, hmap, hdescribe]
  rfl

theorem Invocation.Reads.outcome_of_describeAll_error {error : MappingError}
    (hmap : i.command = .map) (hdescribe : c.describeAll settings c.declared = .error error) :
    (result console files i).outcome = .error (.ofMapping c.toUniverse error) := by
  rw [h.outcome_eq, Invocation.outputFor, hmap, hdescribe]
  rfl

theorem Invocation.Reads.outcome_of_classifyAll {types : List Descriptor}
    (hpreamble : i.command = .preamble)
    (hclassify : c.classifyAll settings c.declared = .ok types) :
    (result console files i).outcome = .ok (.ofText (preamble i.emission types)) := by
  rw [h.outcome_eq, Invocation.outputFor, hpreamble, hclassify]
  rfl

theorem Invocation.Reads.outcome_of_classifyAll_error {error : ClassificationError}
    (hpreamble : i.command = .preamble)
    (hclassify : c.classifyAll settings c.declared = .error error) :
    (result console files i).outcome = .error (.ofClassification c.toUniverse error) := by
  rw [h.outcome_eq, Invocation.outputFor, hpreamble, hclassify]
  rfl

end

/-! ## Reports -/

/-- A report of success with a text, on the terminal or in a file. -/
def Report.Delivers (report : Report) (path? : Option String) (text : String) : Prop :=
  report.ending = .success ∧
    match path? with
    | none => report.stdout = text ∧ report.written = none
    | some path => report.stdout = "" ∧ report.written = some (path, text)

/-- A report of a fault. -/
def Report.Tells (report : Report) (message : String) : Prop :=
  report.ending = .reported ∧ report.stdout = "Error: " ++ protect message ++ "\n" ∧
    report.written = none

theorem delivers_of_outcome (h : (result console files i).outcome = .ok output)
    (hnone : output.failure = none) : (i.report console files).Delivers i.output output.text := by
  rw [Invocation.report, h]
  rcases i.output with _ | path
  · simp [Report.Delivers, hnone]
  · simp [Report.Delivers, hnone]

theorem ending_of_failure (h : (result console files i).outcome = .ok output)
    (hfailure : output.failure = some failure) :
    (i.report console files).ending = .breakdown failure := by
  rw [Invocation.report, h]
  rcases i.output with _ | path
  · simp [hfailure]
  · simp [hfailure]

theorem tells_of_outcome (h : (result console files i).outcome = .error failure)
    (hreport : failure.report? = some message) : (i.report console files).Tells message := by
  rw [Invocation.report, h]
  simp [Report.Tells, hreport]

theorem ending_of_outcome (h : (result console files i).outcome = .error failure)
    (hreport : failure.report? = none) :
    (i.report console files).ending = .breakdown failure := by
  rw [Invocation.report, h]
  simp [hreport]

end Command

end TypeBridge
