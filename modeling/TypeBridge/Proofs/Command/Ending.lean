import TypeBridge.Proofs.Classification.Described
import TypeBridge.Proofs.Command.Outcome
import TypeBridge.Proofs.Command.Table
import TypeBridge.Proofs.Console.Terminal
import TypeBridge.Proofs.Json.Ascii
import TypeBridge.Proofs.Preamble.Framed
/-!
# TypeBridge — how a run ends

A run ends well (`EndsWell`) with its whole output, or with the report of a fault
of the user's. Not every run does: `Breaks` lists what makes one end without
either, from a configuration that is no object to a name that the console takes
for markup. There is nothing else (`report_ending`), whatever the console is.

Settings that are free of all that break no run. For a table that takes a console
that keeps to its laws; what it makes of a base namespace with a bracket in it is
its own affair.
-/

namespace TypeBridge

/-- Settings that no run breaks down on: there is a handle, and the base namespace
opens no tag and has no half of a character. -/
structure Settings.Sound (settings : Settings) : Prop where
  handleNamespace : settings.handleNamespace ≠ none
  handleName : settings.handleName.getD "" ≠ ""
  base : IsUnmarked settings.baseNamespace

theorem Settings.Sound.exists_handleType {settings : Settings} (h : settings.Sound) :
    ∃ handle, settings.handleType = .ok handle := by
  obtain ⟨handleNamespace, hnamespace⟩ := Option.ne_none_iff_exists'.mp h.handleNamespace
  rw [Settings.handleType, hnamespace]
  simp [Native.Descriptor.named, h.handleName, Except.mapError]

namespace Command

open Managed Native Text

variable {console : Console} {files : String → Entry} {i : Invocation} {settings : Settings}
variable {c : Catalogue} {failure : Failure} {text : String}

/-! ## Runs that end well -/

/-- The whole output of a command for a catalogue. -/
inductive Invocation.Writes (i : Invocation) (console : Console) (settings : Settings)
    (c : Catalogue) : String → Prop
  | json {mappings : List Mapping} : i.command = .map → i.json = true →
      c.describeAll settings c.declared = .ok mappings →
      Writes i console settings c ((Json.array (mappings.map mappingJson)).indented 0 ++ "\n")
  | table {mappings : List Mapping} {title text : String} : i.command = .map → i.json = false →
      c.describeAll settings c.declared = .ok mappings →
      Console.Writes (console.line Table.title) title →
      Console.Writes (console.table Table.headings (mappings.map Table.row)) text →
      Writes i console settings c (title ++ text)
  | preamble {types : List Descriptor} : i.command = .preamble →
      c.classifyAll settings c.declared = .ok types →
      Writes i console settings c (preamble i.emission types)

/-- A fault of the user's, by what is said of it: of the configuration, of the
text of the description, of what it refers to, or of the first struct without a
layout. -/
inductive Invocation.Blames (files : String → Entry) (i : Invocation) : String → Prop
  | settings {error : SettingsError} {message : String} : settingsOf files i = .error error →
      error.isReported = true → error.message? = some message → Blames files i message
  | notRead {settings : Settings} {error : Description.SyntaxError} :
      settingsOf files i = .ok settings →
      Catalogue.parse settings.enumBase (i.source files) = .error (.notRead error) →
      Blames files i error.report
  | notLinked {settings : Settings} {error : LinkError} : settingsOf files i = .ok settings →
      Catalogue.parse settings.enumBase (i.source files) = .error (.notLinked error) →
      Blames files i error.message
  | layout {settings : Settings} {c : Catalogue} {before after : List FactId} {id : FactId}
      {fault : LayoutFault FactId} : i.Reads files settings c →
      c.declared = before ++ id :: after → (∀ p ∈ before, ∃ t, c.classify settings p = .ok t) →
      (c.layoutGraph settings.enumBase).hasSharedLayout id = .error fault →
      Blames files i (fault.map c.qualifiedName).message

/-- A run ends well with its whole output, or with the report of a fault. -/
def Invocation.EndsWell (console : Console) (files : String → Entry) (i : Invocation) : Prop :=
  (∃ settings c text, i.Reads files settings c ∧ i.Writes console settings c text ∧
    (i.report console files).Delivers i.output text) ∨
  ∃ message, i.Blames files message ∧ (i.report console files).Tells message

/-! ## Runs that break down -/

/-- What a run breaks down on. -/
inductive Invocation.Breaks (console : Console) (files : String → Entry) (i : Invocation) :
    Failure → Prop
  /-- The configuration is spoilt. -/
  | settings {path : String} {error : SettingsError} : i.config = some path →
      Settings.Spoilt (unifyNewlines (files path).text.toList) error →
      Breaks console files i (.settings error)
  /-- There is a class to map and no handle for it, and nothing in front of the
  class is at fault. -/
  | handle {settings : Settings} {c : Catalogue} {before after : List FactId} {id : FactId}
      {error : HandleError} : i.Reads files settings c → i.command = .map →
      settings.handleType = .error error → c.declared = before ++ id :: after →
      (∀ p ∈ before, (c.fact p).isReferenceType = false ∧ ∃ t, c.classify settings p = .ok t) →
      (c.fact id).isReferenceType = true → Breaks console files i (.handle error)
  /-- There is a table to show, and the console fails at its title. -/
  | title {settings : Settings} {c : Catalogue} {mappings : List Mapping} {failure : Failure} :
      i.Reads files settings c → i.command = .map → i.json = false →
      c.describeAll settings c.declared = .ok mappings →
      Console.Fails (console.line Table.title) failure → Breaks console files i failure
  /-- The console fails at the rows, which have names of the user's in them. -/
  | table {settings : Settings} {c : Catalogue} {mappings : List Mapping} {title : String}
      {failure : Failure} : i.Reads files settings c → i.command = .map → i.json = false →
      c.describeAll settings c.declared = .ok mappings →
      Console.Writes (console.line Table.title) title →
      Console.Fails (console.table Table.headings (mappings.map Table.row)) failure →
      Breaks console files i failure
  /-- There is a type, and its base namespace has half a character. -/
  | preambleHalf {settings : Settings} {c : Catalogue} {types : List Descriptor} :
      i.Reads files settings c → i.command = .preamble →
      c.classifyAll settings c.declared = .ok types → c.declared ≠ [] →
      hasHalf settings.baseNamespace = true → Breaks console files i .loneHalf

/-! ## What is shown of declared types -/

section

variable (h : c.Linked settings.enumBase) {mappings : List Mapping} {types : List Descriptor}

include h

/-- A mapping of a declared type shows the base namespace. -/
theorem shows_of_describe {id : FactId} {m : Mapping} (hid : id ∈ c.declared)
    (hm : c.describe settings id = .ok m) : Shows settings.baseNamespace m := by
  obtain ⟨hname, t, ht, htells⟩ := Universe.tellsOf_of_describe hm
  obtain ⟨hdeclared, -⟩ := h.declaredIn_of_classify hid ht
  obtain ⟨line, hline, -⟩ := hdeclared.exists_frames_forwardDeclaration
  obtain ⟨hisName, hnamespaces⟩ := h.isName_of_declared hid
  refine ⟨?_, ?_, ?_, ?_, ?_⟩
  · rw [hname, Universe.qualifiedName_of_kind (h.kind_of_declared hid), Fact.dottedName]
    have hdot : IsCode "." := by decide
    refine forall_mem_intercalate hdot fun s hs => isCode_of_isName ?_
    exact Description.forall_mem_concat hnamespaces hisName s hs
  · exact htells.qualifiedName ▸ hdeclared.frames_spelling
  · exact htells.parameterType ▸ hdeclared.frames_asParameter
  · exact htells.interopType ▸ hdeclared.frames_or_isCode_asInterop
  · rw [htells.forwardDeclaration, hline]
    rfl

theorem forall_shows (hmappings : c.describeAll settings c.declared = .ok mappings) :
    ∀ m ∈ mappings, Shows settings.baseNamespace m := by
  intro m hm
  obtain ⟨id, hid, hdescribe⟩ := exists_of_mem_mapM hmappings hm
  exact shows_of_describe h hid hdescribe

theorem forall_declaredIn (htypes : c.classifyAll settings c.declared = .ok types) :
    ∀ t ∈ types, t.DeclaredIn settings.baseNamespace := by
  intro t ht
  obtain ⟨id, hid, hclassify⟩ := exists_of_mem_mapM htypes ht
  exact (h.declaredIn_of_classify hid hclassify).1

end

/-- Mappings are written in ASCII. -/
theorem isAscii_mappings (mappings : List Mapping) :
    Json.IsAscii ((Json.array (mappings.map mappingJson)).indented 0 ++ "\n") := by
  have htext (text : Option String) (level : Nat) :
      Json.IsAscii (((text.map Json.string).getD .null).indented level) := by
    cases text with
    | none => exact Json.isAscii_null level
    | some text => exact Json.isAscii_string text level
  refine Json.isAscii_append.mpr ⟨Json.isAscii_array fun item hitem level => ?_, by decide⟩
  obtain ⟨m, -, rfl⟩ := List.mem_map.mp hitem
  refine Json.isAscii_object ?_
  simp [Json.isAscii_string, Json.isAscii_bool, htext]

/-! ## Every run -/

/-- **What breaks a run ends it** without a report. -/
theorem ending_of_breaks (h : i.Breaks console files failure) :
    (i.report console files).ending = .breakdown failure := by
  cases h with
  | settings hconfig hspoilt =>
    have hunreported := hspoilt.isReported
    have hsettings := (settingsOf_eq_error_iff hunreported).mpr ⟨_, hconfig, hspoilt⟩
    refine ending_of_outcome (outcome_of_settings_error console hsettings) ?_
    rw [Failure.report?, if_neg (by simp [hunreported])]
  | handle hreads hmap hhandle hsplit hbefore href =>
    have hlinked := Catalogue.linked_of_parse hreads.parse_eq
    have hdescribe := hlinked.describeAll_eq_handle_iff.mpr
      ⟨hhandle, _, _, _, hsplit, hbefore, href⟩
    exact ending_of_outcome (hreads.outcome_of_describeAll_error console hmap hdescribe) rfl
  | title hreads hmap hjson hdescribe hfails =>
    refine ending_of_failure (hreads.outcome_of_describeAll console hmap hdescribe) ?_
    rw [if_neg (by simp [hjson]), Output.ofTable_of_title_fails hfails]
  | table hreads hmap hjson hdescribe htitle hfails =>
    refine ending_of_failure (hreads.outcome_of_describeAll console hmap hdescribe) ?_
    rw [if_neg (by simp [hjson]), Output.ofTable_of_fails htitle hfails]
  | preambleHalf hreads hpreamble hclassify hne hhalf =>
    have hlinked := Catalogue.linked_of_parse hreads.parse_eq
    have htypes := mt (mapM_eq_nil_iff hclassify).mp hne
    have htext := (hasHalf_preamble i.emission (forall_declaredIn hlinked hclassify)).mpr
      ⟨htypes, hhalf⟩
    refine ending_of_failure (hreads.outcome_of_classifyAll console hpreamble hclassify) ?_
    rw [Output.ofText_of_hasHalf htext]

/-- The first struct without a layout is reported. -/
theorem endsWell_of_layout {before after : List FactId} {id : FactId} {fault : LayoutFault FactId}
    (hreads : i.Reads files settings c) (hsplit : c.declared = before ++ id :: after)
    (hbefore : ∀ p ∈ before, ∃ t, c.classify settings p = .ok t)
    (hlayout : (c.layoutGraph settings.enumBase).hasSharedLayout id = .error fault)
    (houtcome : (result console files i).outcome = .error (.layout (fault.map c.qualifiedName))) :
    i.EndsWell console files :=
  .inr ⟨_, .layout hreads hsplit hbefore hlayout, tells_of_outcome houtcome rfl⟩

/-- A text without half a character is delivered. -/
theorem endsWell_of_writes (hreads : i.Reads files settings c)
    (hwrites : i.Writes console settings c text)
    (houtcome : (result console files i).outcome = .ok { text }) : i.EndsWell console files :=
  .inl ⟨settings, c, text, hreads, hwrites, delivers_of_outcome houtcome rfl⟩

/-- Described types are shown, or the console fails at the table. -/
theorem endsWell_or_breaks_of_describeAll {mappings : List Mapping}
    (hreads : i.Reads files settings c) (hmap : i.command = .map)
    (hdescribe : c.describeAll settings c.declared = .ok mappings) :
    i.EndsWell console files ∨ ∃ failure, i.Breaks console files failure := by
  have houtcome := hreads.outcome_of_describeAll console hmap hdescribe
  cases hjson : i.json with
  | true =>
    have hhalf := (isAscii_mappings mappings).hasHalf_eq
    rw [if_pos hjson, Output.ofText_of_hasHalf_eq_false hhalf] at houtcome
    exact .inl (endsWell_of_writes hreads (.json hmap hjson hdescribe) houtcome)
  | false =>
    rw [if_neg (by simp [hjson])] at houtcome
    rcases Console.writes_or_fails (console.line Table.title) with ⟨title, htitle⟩ | ⟨_, hfails⟩
    · rcases Console.writes_or_fails (console.table Table.headings (mappings.map Table.row))
        with ⟨text, htext⟩ | ⟨_, hfails⟩
      · rw [Output.ofTable_of_writes htitle htext] at houtcome
        have hwrites : i.Writes console settings c (title ++ text) :=
          .table hmap hjson hdescribe htitle htext
        exact .inl (endsWell_of_writes hreads hwrites houtcome)
      · exact .inr ⟨_, .table hreads hmap hjson hdescribe htitle hfails⟩
    · exact .inr ⟨_, .title hreads hmap hjson hdescribe hfails⟩

theorem endsWell_or_breaks_of_map (hreads : i.Reads files settings c) (hmap : i.command = .map) :
    i.EndsWell console files ∨ ∃ failure, i.Breaks console files failure := by
  have hlinked := Catalogue.linked_of_parse hreads.parse_eq
  rcases hdescribe : c.describeAll settings c.declared with error | mappings
  · have houtcome := hreads.outcome_of_describeAll_error console hmap hdescribe
    cases error with
    | handle error =>
      obtain ⟨hhandle, before, id, after, hsplit, hbefore, href⟩ :=
        hlinked.describeAll_eq_handle_iff.mp hdescribe
      exact .inr ⟨_, .handle hreads hmap hhandle hsplit hbefore href⟩
    | classification error =>
      obtain ⟨before, id, after, hsplit, hbefore, herror⟩ := mapM_eq_error_iff.mp hdescribe
      have hid : id ∈ c.declared := by rw [hsplit]; simp
      obtain ⟨fault, rfl, hlayout⟩ := hlinked.layout_of_describe_error hid herror
      refine .inl (endsWell_of_layout hreads hsplit (fun p hp => ?_) hlayout houtcome)
      obtain ⟨m, hm⟩ := hbefore p hp
      obtain ⟨-, t, ht, -⟩ := Universe.tellsOf_of_describe hm
      exact ⟨t, ht⟩
  · exact endsWell_or_breaks_of_describeAll hreads hmap hdescribe

theorem endsWell_or_breaks_of_preamble (hreads : i.Reads files settings c)
    (hpreamble : i.command = .preamble) :
    i.EndsWell console files ∨ ∃ failure, i.Breaks console files failure := by
  have hlinked := Catalogue.linked_of_parse hreads.parse_eq
  rcases hclassify : c.classifyAll settings c.declared with error | types
  · have houtcome := hreads.outcome_of_classifyAll_error console hpreamble hclassify
    obtain ⟨before, id, after, hsplit, hbefore, herror⟩ := mapM_eq_error_iff.mp hclassify
    have hid : id ∈ c.declared := by rw [hsplit]; simp
    rcases hlinked.classify_cases hid with ⟨t, ht, -⟩ | ⟨fault, hfault, -, hlayout⟩
    · rw [ht] at herror
      cases herror
    · rw [hfault] at herror
      cases herror
      exact .inl (endsWell_of_layout hreads hsplit hbefore hlayout houtcome)
  · have houtcome := hreads.outcome_of_classifyAll console hpreamble hclassify
    cases hhalf : hasHalf (preamble i.emission types) with
    | true =>
      obtain ⟨hne, hbase⟩ :=
        (hasHalf_preamble i.emission (forall_declaredIn hlinked hclassify)).mp hhalf
      have hdeclared := mt (mapM_eq_nil_iff hclassify).mpr hne
      exact .inr ⟨_, .preambleHalf hreads hpreamble hclassify hdeclared hbase⟩
    | false =>
      rw [Output.ofText_of_hasHalf_eq_false hhalf] at houtcome
      exact .inl (endsWell_of_writes hreads (.preamble hpreamble hclassify) houtcome)

/-- **A run ends well, or something breaks it.** -/
theorem endsWell_or_breaks (console : Console) (files : String → Entry) (i : Invocation) :
    i.EndsWell console files ∨ ∃ failure, i.Breaks console files failure := by
  rcases hsettings : settingsOf files i with error | settings
  · have houtcome := outcome_of_settings_error console hsettings
    cases hreported : error.isReported with
    | false =>
      obtain ⟨path, hconfig, hspoilt⟩ := (settingsOf_eq_error_iff hreported).mp hsettings
      exact .inr ⟨_, .settings hconfig hspoilt⟩
    | true =>
      obtain ⟨message, hmessage⟩ : ∃ message, error.message? = some message := by
        cases error <;> first | exact ⟨_, rfl⟩ | cases hreported
      refine .inl (.inr ⟨message, .settings hsettings hreported hmessage, ?_⟩)
      exact tells_of_outcome houtcome (by simp [Failure.report?, hreported, hmessage])
  rcases hparse : Catalogue.parse settings.enumBase (i.source files) with error | c
  · have houtcome := outcome_of_parse_error console hsettings hparse
    cases error with
    | notRead error =>
      exact .inl (.inr ⟨_, .notRead hsettings hparse, tells_of_outcome houtcome rfl⟩)
    | notLinked error =>
      exact .inl (.inr ⟨_, .notLinked hsettings hparse, tells_of_outcome houtcome rfl⟩)
  have hreads : i.Reads files settings c := ⟨hsettings, hparse⟩
  cases hcommand : i.command with
  | map => exact endsWell_or_breaks_of_map hreads hcommand
  | preamble => exact endsWell_or_breaks_of_preamble hreads hcommand

theorem Invocation.EndsWell.ending_ne (h : i.EndsWell console files) :
    (i.report console files).ending ≠ .breakdown failure := by
  rcases h with ⟨settings, c, text, -, -, hending, -⟩ | ⟨message, -, hending, -⟩ <;>
    rw [hending] <;> nofun

/-- Sound settings break no run, given a console for tables that keeps to its
laws. -/
theorem not_breaks_of_sound (hsettings : settingsOf files i = .ok settings)
    (hsound : settings.Sound) (hlaws : i.command = .map → i.json = false → console.Laws) :
    ¬ i.Breaks console files failure := by
  have hsame {settings' : Settings} {c : Catalogue} (hreads : i.Reads files settings' c) :
      settings' = settings := Except.ok.inj (hreads.settings_eq.symm.trans hsettings)
  intro h
  cases h with
  | settings hconfig hspoilt =>
    rw [(settingsOf_eq_error_iff hspoilt.isReported).mpr ⟨_, hconfig, hspoilt⟩] at hsettings
    cases hsettings
  | handle hreads _ hhandle =>
    obtain rfl := hsame hreads
    obtain ⟨handle, hok⟩ := hsound.exists_handleType
    rw [hhandle] at hok
    cases hok
  | title _ hmap hjson _ hfails =>
    obtain ⟨title, htitle⟩ := (hlaws hmap hjson).title
    exact htitle.not_fails hfails
  | table hreads hmap hjson hdescribe _ hfails =>
    obtain rfl := hsame hreads
    have hlinked := Catalogue.linked_of_parse hreads.parse_eq
    obtain ⟨text, htext⟩ := Table.exists_writes_rows (hlaws hmap hjson) hsound.base
      (forall_shows hlinked hdescribe)
    exact htext.not_fails hfails
  | preambleHalf hreads _ _ _ hhalf =>
    obtain rfl := hsame hreads
    rw [hsound.base.hasHalf_eq] at hhalf
    cases hhalf

/-- **How a run ends**, whatever the console. It ends well unless something breaks
it, and what breaks it is the failure that it ends with. Sound settings rule all of
that out, with a console that keeps to its laws if there is a table to show. -/
theorem report_ending (console : Console) (files : String → Entry) (i : Invocation) :
    (i.EndsWell console files ↔ ∀ failure, ¬ i.Breaks console files failure) ∧
    (∀ failure, (i.report console files).ending = .breakdown failure ↔
      i.Breaks console files failure) ∧
    ∀ settings, settingsOf files i = .ok settings → settings.Sound →
      (i.command = .map → i.json = false → console.Laws) → i.EndsWell console files := by
  have hends : i.EndsWell console files ↔ ∀ failure, ¬ i.Breaks console files failure :=
    ⟨fun hends failure hbreaks => hends.ending_ne (ending_of_breaks hbreaks),
      fun hnone => (endsWell_or_breaks console files i).resolve_right fun ⟨failure, hbreaks⟩ =>
        hnone failure hbreaks⟩
  refine ⟨hends, fun failure => ⟨fun hending => ?_, ending_of_breaks⟩,
    fun settings hsettings hsound hlaws => hends.mpr fun failure =>
      not_breaks_of_sound hsettings hsound hlaws⟩
  rcases endsWell_or_breaks console files i with hwell | ⟨failure', hbreaks⟩
  · exact absurd hending hwell.ending_ne
  · have hending' := ending_of_breaks hbreaks
    rw [hending] at hending'
    cases hending'
    exact hbreaks

/-- Maps a class, with some configuration or none. -/
def mapsNode (config : Option String) : Invocation where
  command := .map
  verbosity := 0
  baseNamespace := none
  config
  input := "types"
  json := false
  emission := .header
  output := none

/-- A configuration, and a class for everything else. -/
def nodeFiles (config path : String) : Entry :=
  .file (if path = "config" then config else "class\nNode")

/-- A list is no configuration, and that breaks a run that would end well without
it. -/
theorem mapsNode_endings :
    ((mapsNode (some "config")).report (.terminal 1000) (nodeFiles "[]")).ending =
      .breakdown (.settings .noObject) ∧
    (mapsNode none).EndsWell (.terminal 1000) (nodeFiles "[]") := by
  have hjson : Json.ofText (unifyNewlines (nodeFiles "[]" "config").text.toList) =
      .ok (.array []) := rfl
  have hsound : Settings.standard.Sound := ⟨by decide, by decide, by decide, by decide⟩
  constructor
  · exact ((report_ending _ _ _).2.1 _).mpr (.settings rfl (.noObject hjson nofun))
  · exact (report_ending _ _ _).2.2 _ rfl hsound fun _ _ => Console.terminal_laws 1000

/-- A base namespace of null is no single name, and yet it is not reported, so a
run with it does not end well. -/
theorem mapsNode_not_endsWell : ¬ (mapsNode (some "config")).EndsWell (.terminal 1000)
    (nodeFiles "\x7b\"base_namespace\": null\x7d") := by
  have hsettings : settingsOf (nodeFiles "\x7b\"base_namespace\": null\x7d")
      (mapsNode (some "config")) = .error .noBaseNamespace := by decide +kernel
  obtain ⟨path, hconfig, hspoilt⟩ := (settingsOf_eq_error_iff rfl).mp hsettings
  exact fun hends => hends.ending_ne (ending_of_breaks (.settings hconfig hspoilt))

end Command

end TypeBridge
