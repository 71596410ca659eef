import TypeBridge.Proofs.Resolution.Link
/-!
# TypeBridge — the innermost type of a name

What linking comes to. It goes through when no two types have one name and
every field's type is a keyword or names a declared type somewhere on the way
outward. Then each field keeps its name, its flag and its chain of pointers, and
the chain ends at what the field's mention means: a special type of its own for
a keyword, whatever is declared, and else the declared type of the name furthest
inside the namespaces of the field's owner. All else is as it was.
-/

namespace TypeBridge

namespace Managed

namespace Universe

variable {u v : Universe} {declared : List FactId} {path : List String} {mention : Fact}
variable {target : FactId} {field : Field}

/-- A declared type is the innermost one that a mention names inside a path. -/
def IsInnermost (u : Universe) (declared : List FactId) (path : List String) (mention : Fact)
    (target : FactId) : Prop :=
  target ∈ declared ∧ ∃ depth ≤ path.length,
    u.qualifiedName target = mention.nameBehind path depth ∧
      ∀ deeper ≤ path.length, depth < deeper →
        ∀ other ∈ declared, u.qualifiedName other ≠ mention.nameBehind path deeper

/-- A field's type is a mention of something, behind any pointers. -/
def NamesSomething (u : Universe) (declared : List FactId) (path : List String) (field : Field) :
    Prop :=
  ∃ pointers mention, u.Leads field.type pointers mention ∧ (u.fact mention).kind = .mention ∧
    ((u.fact mention).keyword? = none →
      ∃ target, u.IsInnermost declared path (u.fact mention) target)

theorem means_of_isInnermost (hnone : mention.keyword? = none)
    (h : u.IsInnermost declared path mention target) :
    mention.Means (declared.map u.qualifiedName) path (.declared (u.qualifiedName target)) := by
  obtain ⟨hmem, depth, hle, hname, hdeeper⟩ := h
  rw [hname]
  refine .declared depth hnone hle (List.mem_map.mpr ⟨target, hmem, hname⟩) fun deeper hle hlt => ?_
  rintro hother
  obtain ⟨other, hother, heq⟩ := List.mem_map.mp hother
  exact hdeeper deeper hle hlt other hother heq

/-- What is meant by no keyword is an innermost type. -/
theorem isInnermost_of_means {name : String} (hname : u.qualifiedName target = name)
    (hmem : target ∈ declared)
    (hmeans : mention.Means (declared.map u.qualifiedName) path (.declared name)) :
    mention.keyword? = none ∧ u.IsInnermost declared path mention target := by
  obtain ⟨⟩ | ⟨depth, hnone, hle, -, hdeeper⟩ := hmeans
  refine ⟨hnone, hmem, depth, hle, hname, fun deeper hle hlt other hother heq => ?_⟩
  exact hdeeper deeper hle hlt (List.mem_map.mpr ⟨other, hother, heq⟩)

theorem resolvable_iff : Resolvable (u.entries declared) path u field ↔
    u.NamesSomething declared path field := by
  rw [Resolvable, NamesSomething, names_entries]
  constructor
  · rintro ⟨pointers, mention, meaning, hleads, hkind, hmeans⟩
    refine ⟨pointers, mention, hleads, hkind, fun hnone => ?_⟩
    cases meaning with
    | keyword s =>
      obtain ⟨hs⟩ := hmeans
      rw [hnone] at hs
      cases hs
    | declared name =>
      have hname : name ∈ declared.map u.qualifiedName := by
        obtain ⟨⟩ | ⟨_, -, -, hmem, -⟩ := hmeans
        exact hmem
      obtain ⟨target, hmem, hname⟩ := List.mem_map.mp hname
      exact ⟨target, (isInnermost_of_means hname hmem hmeans).2⟩
  · rintro ⟨pointers, mention, hleads, hkind, hnames⟩
    rcases hs : (u.fact mention).keyword? with _ | s
    · obtain ⟨target, htarget⟩ := hnames hs
      exact ⟨pointers, mention, _, hleads, hkind, means_of_isInnermost hs htarget⟩
    · exact ⟨pointers, mention, _, hleads, hkind, .keyword hs⟩

theorem nodup_of_link (hlink : u.link declared = .ok v) :
    (declared.map u.qualifiedName).Nodup := by
  rcases hdir : u.directory declared with error | dir
  · rw [link, hdir] at hlink
    cases hlink
  · exact (directory_eq_ok_iff.mp hdir).1

theorem typesLinked_of_link (hnamed : ∀ id ∈ declared, (u.fact id).kind = .named)
    (hpending : u.Pending (u.fieldsOf declared)) (hlink : u.link declared = .ok v) :
    TypesLinked (u.entries declared) u v declared := by
  rcases link_cases hnamed hpending (nodup_of_link hlink) with ⟨w, hok, h⟩ | ⟨error, herror, -⟩
  · obtain rfl := Except.ok.inj (hlink.symm.trans hok)
    exact h
  · rw [hlink] at herror
    cases herror

/-- **Linking goes through** exactly when the names differ and every field's
type is a keyword or the name of a declared type. -/
theorem exists_link_iff (hnamed : ∀ id ∈ declared, (u.fact id).kind = .named)
    (hpending : u.Pending (u.fieldsOf declared)) :
    (∃ v, u.link declared = .ok v) ↔ (declared.map u.qualifiedName).Nodup ∧
      ∀ id ∈ declared, ∀ field ∈ (u.fact id).fields,
        u.NamesSomething declared (u.fact id).namespaces field := by
  constructor
  · rintro ⟨v, hlink⟩
    refine ⟨nodup_of_link hlink, fun id hid field hfield => resolvable_iff.mp ?_⟩
    have hlinked := (typesLinked_of_link hnamed hpending hlink).linked id hid
    obtain ⟨new, -, hnew⟩ := exists_of_forall₂ hlinked.fields.flip hfield
    obtain ⟨pointers, mention, target, meaning, hleads, hkind, -, -, hmeans, -⟩ := hnew.type
    exact ⟨pointers, mention, meaning, hleads, hkind, hmeans⟩
  · rintro ⟨hnames, hall⟩
    rcases link_cases hnamed hpending hnames with ⟨v, hlink, -⟩ | ⟨_, -, hunknown⟩
    · exact ⟨v, hlink⟩
    · obtain ⟨id, hid, field, hfield, hnot⟩ := hunknown.exists_not_resolvable
      exact absurd (resolvable_iff.mpr (hall id hid field hfield)) hnot

/-- **Names are resolved from the inside outward**, whenever they can be. -/
theorem link_resolves (hnamed : ∀ id ∈ declared, (u.fact id).kind = .named)
    (hpending : u.Pending (u.fieldsOf declared)) :
    ((∃ v, u.link declared = .ok v) ↔ (declared.map u.qualifiedName).Nodup ∧
      ∀ id ∈ declared, ∀ field ∈ (u.fact id).fields,
        u.NamesSomething declared (u.fact id).namespaces field) ∧
    ∀ v, u.link declared = .ok v →
      (∀ id ∈ declared, v.fact id = { u.fact id with fields := (v.fact id).fields } ∧
        List.Forall₂ (fun old new => new.name = old.name ∧ new.isStatic = old.isStatic ∧
          ∃ pointers mention target, u.Leads old.type pointers mention ∧
            (u.fact mention).kind = .mention ∧ v.Leads new.type pointers target ∧
            (∀ p ∈ pointers, ∃ pointee, v.fact p = { u.fact p with pointee }) ∧
            match (u.fact mention).keyword? with
            | some s => u.size ≤ target ∧ v.fact target = .ofSpecial s
            | none => u.IsInnermost declared (u.fact id).namespaces (u.fact mention) target)
          (u.fact id).fields (v.fact id).fields) ∧
      ((v.fieldsOf declared).Pairwise fun f g =>
        ∀ p, v.Passes f.type p → v.Passes g.type p → p ∈ declared) ∧
      ∀ p < u.size, p ∉ declared → (∀ field ∈ u.fieldsOf declared, ¬ u.Passes field.type p) →
        v.fact p = u.fact p := by
  refine ⟨exists_link_iff hnamed hpending, fun v hlink => ?_⟩
  have hall := typesLinked_of_link hnamed hpending hlink
  refine ⟨fun id hid => ?_, ?_, fun p hp hfresh hnot => ?_⟩
  · have hlinked := hall.linked id hid
    refine ⟨hlinked.fact_eq, hlinked.fields.imp fun old new h => ?_⟩
    obtain ⟨pointers, mention, target, meaning, hleads, hkind, hleads', hpointers, hmeans, hends⟩ :=
      h.type
    refine ⟨h.name_eq, h.isStatic_eq, pointers, mention, target, hleads, hkind, hleads', hpointers, ?_⟩
    rw [names_entries] at hmeans
    cases meaning with
    | keyword s =>
      obtain ⟨hs⟩ := hmeans
      rw [hs]
      exact hends
    | declared name =>
      obtain ⟨hmem, hname⟩ := mem_entries.mp hends
      obtain ⟨hnone, hinnermost⟩ := isInnermost_of_means hname hmem hmeans
      rw [hnone]
      exact hinnermost
  · simpa only [ids_entries] using hall.apart
  · refine hall.keeps.fact_eq p hp ?_
    rintro (hmem | ⟨field, hfield, hpasses⟩)
    · exact hfresh hmem
    · exact hnot field hfield hpasses

/-- Two types of one name, and one in the inner namespace that mentions the
name behind two stars and a keyword. -/
def twoOfOneName : Universe where
  facts := #[
    { kind := .named, name := "T", isValueType := true },
    { kind := .named, name := "T", isValueType := true, namespaces := ["A"] },
    { kind := .named
      name := "Holder"
      isReferenceType := true
      namespaces := ["A", "B"]
      fields := [{ name := "inner", type := 5 }, { name := "raw", type := 6, isStatic := true }] },
    .mention [] "T", .pointer "T" 3, .pointer "T" 4, .mention [] "int32"]

theorem pending_twoOfOneName : twoOfOneName.Pending (twoOfOneName.fieldsOf [0, 1, 2]) := by
  have hinner : twoOfOneName.Leads 5 [5, 4] 3 := .pointer rfl (.pointer rfl (.here 3))
  have hraw : twoOfOneName.Leads 6 [] 6 := .here 6
  refine ⟨?_, ?_⟩
  · rintro field hfield
    rcases List.mem_pair.mp hfield with rfl | rfl
    · exact ⟨_, _, hinner, rfl, by decide⟩
    · exact ⟨_, _, hraw, rfl, by decide⟩
  · refine List.pairwise_pair.mpr fun p hp hp' => ?_
    rcases (hinner.passes_iff rfl).mp hp with hp | rfl
    · rcases (hraw.passes_iff rfl).mp hp' with hp' | rfl
      · cases hp'
      · simp at hp
    · rcases (hraw.passes_iff rfl).mp hp' with hp' | hp'
      · cases hp'
      · cases hp'

/-- The inner one of the two is found, and the types stay what they are. -/
theorem twoOfOneName_resolves : ∃ v, twoOfOneName.link [0, 1, 2] = .ok v ∧
    (v.fact 4).pointee = some 1 ∧
    ∀ id ∈ [0, 1, 2],
      v.fact id = { twoOfOneName.fact id with fields := (v.fact id).fields } := by
  refine ⟨_, rfl, rfl, fun id hid => ?_⟩
  exact (((link_resolves (by decide) pending_twoOfOneName).2 _ rfl).1 id hid).1

end Universe

end Managed

end TypeBridge
