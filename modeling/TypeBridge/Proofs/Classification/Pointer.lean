import TypeBridge.Proofs.Classification.Declared
import TypeBridge.Proofs.Resolution.Chain
/-!
# TypeBridge — pointers are classified by where they end

A pointer has the descriptor of the type at the end of its chain, with a pointer
mark. The mark is one qualifier of the descriptor and is put on for every star,
so it is there or not, and how many stars there were is forgotten: all pointers
to one type are one native type. `void*`, which stands for a raw pointer, has
the mark already, and pointers to it are spelled like it.
-/

namespace TypeBridge

open Managed Native

namespace Native.Descriptor

variable {t : Descriptor}

/-- The mark is written once, and hides no reference mark where there is
none. -/
theorem spelling_asPointer (h : t.qualifiers.reference = false) (rooted : Bool) :
    t.asPointer.spelling rooted =
      t.spelling rooted ++ if t.qualifiers.pointer then "" else "*" := by
  cases hpointer : t.qualifiers.pointer <;>
    simp [spelling, asPointer, h, hpointer, String.append_assoc]

end Native.Descriptor

namespace Managed

/-- A special type that is a pointer by itself. -/
def Fact.IsRawPointer (fact : Fact) : Prop :=
  fact.kind = .special ∧ (fact.special = some .intptr ∨ fact.special = some .uintptr)

instance (fact : Fact) : Decidable fact.IsRawPointer :=
  inferInstanceAs (Decidable (_ ∧ _))

/-- Only special types have a fixed descriptor. -/
theorem Fact.exists_of_fixedNative? {fact : Fact} {t : Descriptor}
    (h : fact.fixedNative? = some t) :
    fact.kind = .special ∧ ∃ s, fact.special = some s ∧ s.native? = some t := by
  rw [fixedNative?] at h
  split_ifs at h with hkind
  exact ⟨hkind, Option.bind_eq_some_iff.mp h⟩

namespace Universe

variable {u : Universe} {settings : Settings} {p last : FactId} {pointers : List FactId}
variable {t : Descriptor}

/-! ## Chains -/

theorem followPointers_of_leads (h : u.Leads p pointers last)
    (hlast : (u.fact last).target? = none) {steps : ℕ} (hsteps : pointers.length ≤ steps) :
    u.followPointers steps p = (last, pointers.length) := by
  induction h generalizing steps with
  | here id =>
    cases steps with
    | zero => rfl
    | succ steps => rw [followPointers, hlast, List.length_nil]
  | pointer htarget _ ih =>
    obtain ⟨steps, rfl⟩ : ∃ n, steps = n + 1 := ⟨steps - 1, by simp at hsteps; omega⟩
    rw [followPointers, htarget]
    simp only [ih hlast (by simpa using hsteps), List.length_cons]

/-- **A chain is followed to its end**, and its stars are counted. -/
theorem pointerChain_of_leads (h : u.Leads p pointers last)
    (hlast : (u.fact last).target? = none) : u.pointerChain p = (last, pointers.length) :=
  followPointers_of_leads h hlast (h.length_le_size hlast)

/-- **The end decides**, and the mark is put on if there is a chain at all. -/
theorem classify_of_leads (h : u.Leads p pointers last) (hlast : (u.fact last).target? = none) :
    u.classify settings p =
      (u.classifyPointee settings last).map fun t => if pointers = [] then t else t.asPointer := by
  rw [classify, pointerChain_of_leads h hlast]
  simp only [List.length_eq_zero_iff]

/-- The end of a chain is classified as what stands there. -/
theorem classify_of_end (hlast : (u.fact last).target? = none) :
    u.classify settings last = u.classifyPointee settings last := by
  rw [classify_of_leads (.here last) hlast]
  exact congrFun Except.map_id _

/-! ## Marks -/

/-- No type at the end of a chain is a reference, and only a raw pointer has
the pointer mark. -/
theorem qualifiers_of_classifyPointee (h : u.classifyPointee settings last = .ok t) :
    t.qualifiers.reference = false ∧
      (t.qualifiers.pointer = true ↔ (u.fact last).IsRawPointer) := by
  rw [classifyPointee] at h
  rcases hfixed : (u.fact last).fixedNative? with _ | fixed
  · rw [hfixed] at h
    -- a declared type has no marks
    obtain ⟨kind, hname, -, rfl⟩ := exists_of_classifyDeclared h
    refine ⟨rfl, iff_of_false Bool.false_ne_true ?_⟩
    rintro ⟨hkind, hspecial | hspecial⟩ <;>
      simp [Fact.fixedNative?, hkind, hspecial, Special.native?] at hfixed
  · rw [hfixed] at h
    obtain rfl : fixed = t := Except.ok.inj h
    obtain ⟨hkind, s, hs, hnative⟩ := Fact.exists_of_fixedNative? hfixed
    simp only [Fact.IsRawPointer, hkind, hs, true_and, Option.some.injEq]
    cases s <;> cases hnative <;> exact ⟨rfl, by decide⟩

/-- **A pointer to a type is spelled with one star**, however long its chain
is, and with none behind a raw pointer. So the stars of a chain are all written
only if it has one, to a type that is no raw pointer, or none at all; and all
pointers to a type are the same native type. -/
theorem rootedSpelling_of_leads (hleads : u.Leads p pointers last)
    (hlast : (u.fact last).kind ≠ .pointer) (hok : u.classify settings last = .ok t) :
    ∃ t', u.classify settings p = .ok t' ∧
      t'.rootedSpelling = t.rootedSpelling ++
        (if pointers = [] ∨ (u.fact last).IsRawPointer then "" else "*") ∧
      (t'.rootedSpelling =
          t.rootedSpelling ++ String.ofList (List.replicate pointers.length '*') ↔
        pointers.length = 0 ∨ pointers.length = 1 ∧ ¬ (u.fact last).IsRawPointer) ∧
      ∀ q others, u.Leads q others last → pointers ≠ [] → others ≠ [] →
        u.classify settings q = .ok t' := by
  have htarget := Fact.target?_eq_none hlast
  have hend : u.classifyPointee settings last = .ok t := classify_of_end htarget ▸ hok
  obtain ⟨hreference, hpointer⟩ := qualifiers_of_classifyPointee hend
  have hspelling : (if pointers = [] then t else t.asPointer).rootedSpelling =
      t.rootedSpelling ++ if pointers = [] ∨ (u.fact last).IsRawPointer then "" else "*" := by
    by_cases hnil : pointers = []
    · simp [hnil]
    · rw [if_neg hnil, Descriptor.rootedSpelling, Descriptor.spelling_asPointer hreference]
      simp [hnil, hpointer]
  refine ⟨if pointers = [] then t else t.asPointer, ?_, hspelling, ?_, ?_⟩
  · rw [classify_of_leads hleads htarget, hend]
    rfl
  · rw [hspelling, String.append_right_inj]
    -- one star at most stands on the left
    rcases pointers with _ | ⟨p, _ | ⟨q, pointers⟩⟩
    · simp
    · by_cases hraw : (u.fact last).IsRawPointer <;> simp [hraw, ← String.toList_inj]
    · by_cases hraw : (u.fact last).IsRawPointer <;>
        simp [hraw, ← String.toList_inj, List.replicate_succ]
  · intro q others hothers hpointers hne
    rw [classify_of_leads hothers htarget, hend, if_neg hpointers]
    simp [Except.map, hne]

/-- A number, a pointer to it and a pointer to that. -/
def numberPointers : Universe where
  facts := #[.ofSpecial .int32, .pointer "Int32" 0, .pointer "Int32" 1]

theorem leads_numberPointers : numberPointers.Leads 2 [2, 1] 0 :=
  .pointer rfl (.pointer rfl (.here 0))

/-- Two stars are spelled as one. -/
theorem numberPointers_one_star : ∃ t', numberPointers.classify {} 2 = .ok t' ∧
    t'.rootedSpelling = "::std::int32_t*" := by
  have hend : numberPointers.classify {} 0 = .ok .int32 := rfl
  obtain ⟨t', hok, hspelling, -⟩ :=
    rootedSpelling_of_leads leads_numberPointers (by decide) hend
  refine ⟨t', hok, hspelling.trans ?_⟩
  decide

/-- So a chain is not spelled with all its stars. -/
theorem not_rootedSpelling_of_leads : ¬ ∀ (u : Universe) (settings : Settings) (p last : FactId)
    (pointers : List FactId) (t : Descriptor), u.Leads p pointers last →
      (u.fact last).kind ≠ .pointer → u.classify settings last = .ok t →
        ∃ t', u.classify settings p = .ok t' ∧ t'.rootedSpelling =
          t.rootedSpelling ++ String.ofList (List.replicate pointers.length '*') := by
  intro h
  obtain ⟨t', hok, hspelling⟩ :=
    h numberPointers {} 2 0 [2, 1] .int32 leads_numberPointers (by decide) rfl
  obtain rfl : Descriptor.int32.asPointer = t' := Except.ok.inj hok
  revert hspelling
  decide

end Universe

end Managed

end TypeBridge
