import TypeBridge.Proofs.Catalogue.Closed
import TypeBridge.Proofs.Description.Enclosed
import TypeBridge.Proofs.Layout.Witness
import TypeBridge.Proofs.Resolution.Moved
/-!
# TypeBridge — a universe under a namespace

The types of a description may be put under a namespace all together. What is
parsed then is the same catalogue with the namespace in front of every type
(`parse_enclose`): each type at its old place, with fields that lead where they
led, and so with the layout that it had.
-/

namespace TypeBridge

open Managed Description

namespace Managed

/-! ## Layouts and names -/

/-- The types that a fault tells of. -/
def LayoutFault.types {ν : Type} : LayoutFault ν → List ν
  | cycle members => members
  | tooDeep outermost innermost => [outermost, innermost]

theorem LayoutFault.map_congr {ν μ : Type} {f g : ν → μ} {fault : LayoutFault ν}
    (h : ∀ m ∈ fault.types, f m = g m) : fault.map f = fault.map g := by
  cases fault with
  | cycle members => exact congrArg cycle (List.map_congr_left h)
  | tooDeep outermost innermost =>
    rw [map, map, h outermost (by simp [types]), h innermost (by simp [types])]

/-- A fault tells of structs. -/
theorem Graph.standing_of_fault {ν : Type} [DecidableEq ν] {g : Graph ν} {n m : ν}
    {fault : LayoutFault ν} (h : g.hasSharedLayout n = .error fault) (hm : m ∈ fault.types) :
    g.standing m = .struct := by
  have hex := g.survey_explains n
  rw [hasSharedLayout] at h
  generalize g.survey n = answer at h hex
  obtain ⟨ledger, outcome⟩ := answer
  obtain rfl : outcome = .error fault := h
  cases fault with
  | cycle members =>
    obtain ⟨c, below, rfl, -, -, hchain⟩ := hex.ring
    have hstruct := standing_of_mem_isChain hchain
    rcases List.mem_append.mp hm with hm | hm
    · exact hstruct m hm
    · obtain rfl := List.mem_singleton.mp hm
      exact hstruct m (by simp)
  | tooDeep outermost innermost =>
    obtain ⟨path, -, hhead, rfl, -, -, hstruct⟩ := hex.nesting
    rcases List.mem_pair.mp hm with rfl | rfl
    · exact hstruct m (List.mem_of_mem_head? hhead)
    · exact hstruct m (by simp)

namespace Universe

variable {u : Universe} {ids : List FactId} {path : List String} {enumBase : Option String}

/-- Layouts have nothing to do with namespaces. -/
theorem layoutGraph_moved :
    (u.revise (.moved path ids)).layoutGraph enumBase = u.layoutGraph enumBase := by
  have hsame : ∀ p, ((u.revise (.moved path ids)).fact p).standing enumBase =
      (u.fact p).standing enumBase ∧
      ((u.revise (.moved path ids)).fact p).instanceFields = (u.fact p).instanceFields := by
    intro p
    rcases Nat.lt_or_ge p u.size with hsize | hsize
    · by_cases hp : p ∈ ids
      · rw [fact_moved hsize hp]
        exact ⟨rfl, rfl⟩
      · rw [fact_moved_of_notMem hp]
        exact ⟨rfl, rfl⟩
    · rw [fact_revise_of_le hsize]
      exact ⟨rfl, rfl⟩
  simp only [layoutGraph, hsame]

end Universe

end Managed

namespace Catalogue

variable {enumBase : Option String} {o : Outline} {c : Catalogue} {path : DottedName}
variable {text : String}

/-- The catalogue with its types inside further namespaces. -/
def inside (path : List String) (c : Catalogue) : Catalogue :=
  { c with toUniverse := c.toUniverse.revise (.moved path c.declared) }

/-! ## Parsing -/

/-- **What is written down inside a block** is written down at the same places. -/
theorem ofOutline_block (enumBase : Option String) (path : DottedName) (o : Outline) :
    ofOutline enumBase (Outline.empty.block path o) =
      (ofOutline enumBase o).inside path.segments := by
  have hlength : (declaredFacts enumBase o.declared.length o.declared).1.length =
      o.declared.length := length_declaredFacts o.declared o.declared.length
  simp only [ofOutline, inside, declared_block, List.length_map, declaredFacts_inside,
    Universe.revise, List.mapIdx_toArray, List.mapIdx_append, Catalogue.mk.injEq, Universe.mk.injEq,
    and_true]
  refine congrArg List.toArray (congrArg₂ _ ?_ ?_)
  · refine List.ext_getElem (by simp) fun i hi _ => ?_
    have hi : i < o.declared.length := by simpa [hlength] using hi
    simp [Revision.moved, hi]
  · refine List.ext_getElem (by simp) fun i hi _ => ?_
    simp [Revision.moved, hlength]

/-- **A description inside a block** is parsed to the same catalogue, inside the
block's namespaces. -/
theorem parse_enclose (hpath : path.Readable) (h : parse enumBase text = .ok c) :
    parse enumBase (path.enclose text) = .ok (c.inside path.segments) := by
  obtain ⟨o, hread, hlink⟩ := exists_link_of_parse h
  obtain ⟨hlinked, hdeclared⟩ := link_eq_ok_iff.mp hlink
  have hinside : (c.inside path.segments).toUniverse =
      c.toUniverse.revise (.moved path.segments (ofOutline enumBase o).declared) := by
    rw [inside, hdeclared]
  rw [parse_eq_ok_iff (read_enclose hpath hread), ofOutline_block, link_eq_ok_iff, hinside]
  refine ⟨?_, hdeclared⟩
  exact Universe.link_moved (fun _ => named_ofOutline) (isFact_ofOutline enumBase o).2 hlinked

/-! ## The same universe -/

theorem dotted_ne_nil (path : DottedName) : path.segments ≠ [] := by
  simp [DottedName.segments]

/-- A type that is no pointer is called as before, or by the path in front of
that if it is declared. -/
theorem qualifiedName_inside {m : FactId} (hnamed : ∀ id ∈ c.declared, (c.fact id).kind = .named)
    (hm : (c.fact m).kind ≠ .pointer) : (c.inside path.segments).qualifiedName m =
      if m ∈ c.declared then path.dotted ++ "." ++ c.qualifiedName m else c.qualifiedName m := by
  rw [inside, Universe.qualifiedName_moved hnamed, Universe.pointerChain_of_kind_ne hm,
    nameInside_of_ne_nil (dotted_ne_nil path)]
  rfl

/-- **Under a namespace a universe means what it meant.** A description that is
parsed is parsed inside a block as well. Its types are the same ones, each with
the block's namespaces in front. Everything else is as it was, so each field
leads where it led. The layout of each type has the same verdict, or the same
fault with the block's name in front of the declared types. -/
theorem parse_enclose_means (settings : Settings) (hpath : path.Readable)
    (h : parse settings.enumBase text = .ok c) :
    ∃ c', parse settings.enumBase (path.enclose text) = .ok c' ∧ c'.declared = c.declared ∧
      (∀ id ∈ c.declared,
        c'.fact id = { c.fact id with namespaces := path.segments ++ (c.fact id).namespaces } ∧
        c'.qualifiedName id = path.dotted ++ "." ++ c.qualifiedName id) ∧
      (∀ p ∉ c.declared, c'.fact p = c.fact p) ∧
      (∀ id pointers last, c'.Leads id pointers last ↔ c.Leads id pointers last) ∧
      ∀ id, (c'.layoutGraph settings.enumBase).hasSharedLayout id =
          (c.layoutGraph settings.enumBase).hasSharedLayout id ∧
        ∀ fault, (c.layoutGraph settings.enumBase).hasSharedLayout id = .error fault →
          fault.map c'.qualifiedName = fault.map fun m =>
            if m ∈ c.declared then path.dotted ++ "." ++ c.qualifiedName m
            else c.qualifiedName m := by
  have hlinked := linked_of_parse h
  have hnamed : ∀ id ∈ c.declared, (c.fact id).kind = .named := fun id hid =>
    hlinked.kind_of_declared hid
  refine ⟨c.inside path.segments, parse_enclose hpath h, rfl, fun id hid => ⟨?_, ?_⟩,
    fun p hp => ?_, fun id pointers last => Universe.leads_revise_iff,
    fun id => ⟨?_, fun fault hfault => ?_⟩⟩
  · exact Universe.fact_moved (Universe.lt_size_of_kind (by simp [hnamed id hid])) hid
  · rw [qualifiedName_inside hnamed (by simp [hnamed id hid]), if_pos hid]
  · exact Universe.fact_moved_of_notMem hp
  · rw [inside, Universe.layoutGraph_moved]
  · refine LayoutFault.map_congr fun m hm => qualifiedName_inside hnamed ?_
    exact (Fact.standing_eq_struct_iff.mp (Graph.standing_of_fault hfault hm)).2.1

/-- A struct with the name of its namespace, that points to itself, and a class. -/
def nameTwice : Outline :=
  Outline.empty.block ⟨[], "A"⟩
    ((Outline.empty.type (.valueType "A" [⟨false, "self", ⟨⟨["A"], "A"⟩, 1⟩⟩])).type
      (.referenceType "B" none))

/-- Under one more namespace of the name, the name still means the struct. -/
theorem nameTwice_enclosed : ∃ c c', parse none nameTwice.written = .ok c ∧
    parse none (DottedName.enclose ⟨[], "A"⟩ nameTwice.written) = .ok c' ∧
    ∀ id ∈ c.declared, c'.qualifiedName id = "A" ++ "." ++ c.qualifiedName id := by
  have hread := read_written (show nameTwice.Named by decide)
  have hresolvable : nameTwice.preferred.Resolvable := by
    intro d hd field hfield
    rcases hd with _ | ⟨_, _ | ⟨_, ⟨⟩⟩⟩
    · obtain rfl := List.mem_singleton.mp hfield
      exact ⟨_, .declared 0 rfl (by decide) (by decide) (by decide)⟩
    · cases hfield
  obtain ⟨c, hlink⟩ := exists_link none (by decide) hresolvable
  have hparse := (parse_eq_ok_iff hread).mpr hlink
  have hpath : (⟨[], "A"⟩ : DottedName).Readable := by decide
  obtain ⟨c', hparse', -, hfacts, -⟩ := parse_enclose_means { enumBase := none } hpath hparse
  exact ⟨c, c', hparse, hparse', fun id hid => (hfacts id hid).2⟩

end Catalogue

end TypeBridge
