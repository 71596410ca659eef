import TypeBridge.Proofs.Catalogue.RoundTrip
import TypeBridge.Proofs.Description.Named
/-!
# TypeBridge — a parsed catalogue is closed

A fact refers to the types of its fields and to its pointee. Whatever the
declared types of a parsed catalogue lead to that way is declared itself, or a
special type, or a pointer that one field alone has to such a type: no mention
is left anywhere, and no pointer is shared.

`Linked` is what parsing leaves, stated of the declared types and of their
fields. One step of reference stays among the declared types and the chains of
their fields (`Linked.within_of_refersTo`), and so does any number of them.
-/

namespace TypeBridge

open Managed Description

namespace Managed.Universe

variable {u : Universe} {id p q : FactId}

/-- A fact refers to the types of its fields, and to its pointee. -/
def RefersTo (u : Universe) (a b : FactId) : Prop :=
  (∃ field ∈ (u.fact a).fields, field.type = b) ∨ (u.fact a).pointee = some b

/-- A way to a pointer goes on to its pointee. -/
theorem Passes.next (h : u.Passes id p) (htarget : (u.fact p).target? = some q) :
    u.Passes id q := by
  obtain ⟨pointers, hleads⟩ := h
  induction hleads with
  | here => exact .pointer htarget (.refl u q)
  | pointer hfirst _ ih => exact .pointer hfirst (ih htarget)

end Managed.Universe

namespace Catalogue

variable {enumBase : Option String} {text : String} {o : Outline} {c : Catalogue}
variable {id p q : FactId}

/-! ## What parsing leaves -/

/-- A type that a reference may end at: a declared one, or a special type. -/
def IsTarget (c : Catalogue) (p : FactId) : Prop :=
  p ∈ c.declared ∨ ∃ s, c.fact p = .ofSpecial s

/-- A catalogue whose references are resolved: its declared types are what
declarations write, under different names, and each of their fields ends at
some type behind pointers of its own. -/
structure Linked (c : Catalogue) (enumBase : Option String) : Prop where
  names_nodup : (c.declared.map c.qualifiedName).Nodup
  declaration : ∀ id ∈ c.declared, ∃ d : Declared, d.Named ∧
    c.fact id = d.fact enumBase (c.fact id).fields
  chain : ∀ field ∈ c.fieldsOf c.declared, ∃ pointers target,
    c.Leads field.type pointers target ∧ (∀ p ∈ pointers, (c.fact p).fields = []) ∧
      c.IsTarget target
  apart : (c.fieldsOf c.declared).Pairwise fun f g =>
    ∀ p, c.Passes f.type p → c.Passes g.type p → p ∈ c.declared

/-- What is parsed is read and linked. -/
theorem exists_link_of_parse (h : parse enumBase text = .ok c) :
    ∃ o, Reading.read {} text.toList = .ok o ∧ (ofOutline enumBase o).link = .ok c := by
  rcases hread : Reading.read {} text.toList with stop | o
  · rw [parse_of_stop hread] at h
    cases h
  · exact ⟨o, rfl, (parse_eq_ok_iff hread).mp h⟩

/-- **What is parsed is linked.** -/
theorem linked_of_parse (h : parse enumBase text = .ok c) : c.Linked enumBase := by
  obtain ⟨o, hread, hlink⟩ := exists_link_of_parse h
  have hnamed : o.Named := named_of_read hread
  have htypes := linksType_of_link hlink
  refine ⟨?_, fun id hid => ?_, fun field hfield => ?_, ?_⟩
  · rw [names_of_link hlink]
    exact nodup_of_link hlink
  · obtain ⟨d, hd, htype⟩ := exists_of_forall₂ htypes hid
    exact ⟨d, hnamed.declared d hd, htype.fact_eq⟩
  · obtain ⟨id, hid, hfield⟩ := List.mem_flatMap.mp hfield
    obtain ⟨d, -, htype⟩ := exists_of_forall₂ htypes hid
    obtain ⟨decl, -, hlinks⟩ := exists_of_forall₂ htype.fields hfield
    obtain ⟨pointers, target, meaning, hleads, -, hpointers, -, hshows⟩ := hlinks.type
    refine ⟨pointers, target, hleads, fun p hp => ?_, ?_⟩
    · obtain ⟨next, hnext⟩ := hpointers p hp
      rw [hnext]
      rfl
    · cases meaning with
      | keyword s => exact .inr ⟨s, hshows⟩
      | declared name => exact .inl hshows.1
  · have hapart := (typesLinked_ofOutline hlink).apart
    rw [Universe.ids_entries, ← (link_eq_ok_iff.mp hlink).2] at hapart
    exact hapart

/-! ## What is referred to -/

namespace Linked

variable (h : c.Linked enumBase)

include h

theorem kind_of_declared (hid : id ∈ c.declared) : (c.fact id).kind = .named := by
  obtain ⟨d, -, hfact⟩ := h.declaration id hid
  rw [hfact, Declared.kind_fact]

theorem pointee_of_declared (hid : id ∈ c.declared) : (c.fact id).pointee = none := by
  obtain ⟨d, -, hfact⟩ := h.declaration id hid
  rw [hfact, Declared.pointee_fact]

/-- A type that a reference ends at is no pointer and no mention. -/
theorem kind_of_isTarget (hp : c.IsTarget p) :
    (c.fact p).kind ≠ .pointer ∧ (c.fact p).kind ≠ .mention := by
  rcases hp with hp | ⟨s, hp⟩
  · simp [h.kind_of_declared hp]
  · simp [hp, Fact.ofSpecial]

theorem target?_of_isTarget (hp : c.IsTarget p) : (c.fact p).target? = none :=
  Fact.target?_eq_none (h.kind_of_isTarget hp).1

/-- What a field passes is a pointer of its chain, without fields and on the
way to some type, or that type. -/
theorem cases_of_passes {field : Field} (hfield : field ∈ c.fieldsOf c.declared)
    (hp : c.Passes field.type p) :
    c.IsTarget p ∨ (c.fact p).kind = .pointer ∧ (c.fact p).fields = [] ∧
      ∃ pointers last, c.Leads p pointers last ∧ c.IsTarget last := by
  obtain ⟨pointers, target, hleads, hfields, htarget⟩ := h.chain field hfield
  rcases (hleads.passes_iff (h.target?_of_isTarget htarget)).mp hp with hmem | rfl
  · obtain ⟨_, after, -, hdrop⟩ := hleads.drop hmem
    exact .inr ⟨hleads.kind_eq_pointer hmem, hfields p hmem, p :: after, target, hdrop, htarget⟩
  · exact .inl htarget

/-- **One step of reference** stays among the declared types and what their
fields pass. -/
theorem within_of_refersTo
    (hp : p ∈ c.declared ∨ ∃ field ∈ c.fieldsOf c.declared, c.Passes field.type p)
    (hpq : c.RefersTo p q) : ∃ field ∈ c.fieldsOf c.declared, c.Passes field.type q := by
  have hdeclared : p ∈ c.declared → ∃ field ∈ c.fieldsOf c.declared, c.Passes field.type q := by
    intro hp
    rcases hpq with ⟨field, hfield, rfl⟩ | hpointee
    · exact ⟨field, Universe.mem_fieldsOf hp hfield, .refl _ _⟩
    · rw [h.pointee_of_declared hp] at hpointee
      cases hpointee
  rcases hp with hp | ⟨field, hfield, hp⟩
  · exact hdeclared hp
  · rcases h.cases_of_passes hfield hp with (hp | ⟨s, hs⟩) | ⟨hkind, hnone, -⟩
    · exact hdeclared hp
    · -- a special type refers to nothing
      rw [Universe.RefersTo, hs] at hpq
      rcases hpq with ⟨_, hfield, -⟩ | hpointee
      · cases hfield
      · cases hpointee
    · -- a pointer refers to its pointee alone
      rcases hpq with ⟨_, hother, -⟩ | hpointee
      · rw [hnone] at hother
        cases hother
      · exact ⟨field, hfield, hp.next (Fact.target?_eq_some_iff.mpr ⟨hkind, hpointee⟩)⟩

/-- **And so does any number of steps.** -/
theorem within_of_reflTransGen (hid : id ∈ c.declared)
    (hp : Relation.ReflTransGen c.RefersTo id p) :
    p ∈ c.declared ∨ ∃ field ∈ c.fieldsOf c.declared, c.Passes field.type p := by
  induction hp with
  | refl => exact .inl hid
  | tail _ hstep ih => exact .inr (h.within_of_refersTo ih hstep)

/-- A pointer that a field passes has one place among all fields. -/
theorem existsUnique_field {field : Field} (hfield : field ∈ c.fieldsOf c.declared)
    (hp : c.Passes field.type p) (hkind : (c.fact p).kind = .pointer) :
    ∃! i : Fin (c.fieldsOf c.declared).length, c.Passes (c.fieldsOf c.declared)[i].type p := by
  obtain ⟨i, hi, rfl⟩ := List.mem_iff_getElem.mp hfield
  refine ⟨⟨i, hi⟩, hp, fun ⟨j, hj⟩ hp' => Fin.ext ?_⟩
  have hnot : p ∉ c.declared := fun hmem => by
    rw [h.kind_of_declared hmem] at hkind
    cases hkind
  have hapart := List.pairwise_iff_getElem.mp h.apart
  rcases Nat.lt_trichotomy i j with hlt | rfl | hlt
  · exact absurd (hapart i j hi hj hlt p hp hp') hnot
  · rfl
  · exact absurd (hapart j i hj hi hlt p hp' hp) hnot

end Linked

/-- **A parsed catalogue is closed.** Its declared types have different names,
none of them empty, and are each of one sort. What they lead to is one of them,
a special type, or a pointer that belongs to one field and ends at such a
type. -/
theorem parse_closed (h : parse enumBase text = .ok c) :
    (c.declared.map c.qualifiedName).Nodup ∧
    (∀ id ∈ c.declared, (c.fact id).kind = .named ∧
      (c.fact id).isValueType ≠ (c.fact id).isReferenceType ∧ (c.fact id).name ≠ "" ∧
      ∀ s ∈ (c.fact id).namespaces, s ≠ "") ∧
    ∀ id ∈ c.declared, ∀ p, Relation.ReflTransGen c.RefersTo id p →
      (c.fact p).kind ≠ .mention ∧
      ((p ∈ c.declared ∨ ∃ s, c.fact p = .ofSpecial s) ∨
        (c.fact p).kind = .pointer ∧
        (∃ pointers last, c.Leads p pointers last ∧
          (last ∈ c.declared ∨ ∃ s, c.fact last = .ofSpecial s)) ∧
        ∃! i : Fin (c.fieldsOf c.declared).length,
          c.Passes (c.fieldsOf c.declared)[i].type p) := by
  have hlinked := linked_of_parse h
  refine ⟨hlinked.names_nodup, fun id hid => ?_, fun id hid p hp => ?_⟩
  · obtain ⟨d, hd, hfact⟩ := hlinked.declaration id hid
    refine ⟨hlinked.kind_of_declared hid, ?_, ?_, ?_⟩
    · rw [hfact, Declared.isValueType_fact]
      simp
    · rw [hfact, Declared.name_fact]
      exact ne_empty_of_isName hd.name
    · rw [hfact, Declared.namespaces_fact]
      exact fun s hs => ne_empty_of_isName (hd.namespaces s hs)
  · rcases hlinked.within_of_reflTransGen hid hp with hp | ⟨field, hfield, hp⟩
    · exact ⟨by simp [hlinked.kind_of_declared hp], .inl (.inl hp)⟩
    · rcases hlinked.cases_of_passes hfield hp with htarget | ⟨hkind, -, hchain⟩
      · exact ⟨(hlinked.kind_of_isTarget htarget).2, .inl htarget⟩
      · exact ⟨by simp [hkind], .inr ⟨hkind, hchain, hlinked.existsUnique_field hfield hp hkind⟩⟩

/-- A class that points at itself through two stars, and a struct that points
at the class. -/
def ring : Outline :=
  (Outline.empty.type (.referenceType "Node" (some [⟨false, "next", ⟨⟨[], "Node"⟩, 2⟩⟩]))).type
    (.valueType "Pair" [⟨false, "left", ⟨⟨[], "Node"⟩, 1⟩⟩, ⟨true, "count", ⟨⟨[], "int32"⟩, 0⟩⟩])

/-- The outer pointer of the class belongs to one of the three fields. -/
theorem ring_keeps_its_pointers : ∃ c, parse (some "System.Enum") ring.written = .ok c ∧
    c.declared = [0, 1] ∧ (c.fact 4).kind = .pointer ∧
    Relation.ReflTransGen c.RefersTo 0 4 ∧
    ∃! i : Fin (c.fieldsOf c.declared).length, c.Passes (c.fieldsOf c.declared)[i].type 4 := by
  obtain ⟨c, hlink, hdeclared, hkind, hfields⟩ :
      ∃ c, (ofOutline (some "System.Enum") ring.preferred).link = .ok c ∧ c.declared = [0, 1] ∧
        (c.fact 4).kind = .pointer ∧ (c.fact 0).fields = [⟨"next", 4, false⟩] :=
    ⟨_, rfl, rfl, rfl, rfl⟩
  have hparse : parse (some "System.Enum") ring.written = .ok c :=
    parse_written_of_link (by decide) hlink
  have hrefers : Relation.ReflTransGen c.RefersTo 0 4 :=
    .single (.inl ⟨_, hfields ▸ List.mem_singleton_self _, rfl⟩)
  obtain ⟨-, htarget | ⟨-, -, hfield⟩⟩ :=
    (parse_closed hparse).2.2 0 (by simp [hdeclared]) 4 hrefers
  · -- a pointer is neither declared nor special
    rcases htarget with hmem | ⟨s, hs⟩
    · simp [hdeclared] at hmem
    · simp [hs, Fact.ofSpecial] at hkind
  · exact ⟨c, hparse, hdeclared, hkind, hrefers, hfield⟩

end Catalogue

end TypeBridge
