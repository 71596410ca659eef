import TypeBridge.Proofs.Layout.Outcome
import TypeBridge.Proofs.Classification.Struct
/-!
# TypeBridge — types that contain themselves

No instance of a struct that contains itself could be laid out, and so the
verdict on it is never a yes. It is not always a fault either. The walk stops
at the first part with a no, and where a type of the managed side alone stands
before the way round, the struct is refused and the way round is not seen.

So the order of the fields decides: `Graph.Refused` is the condition. The
classifier fails on such a struct where the question about its layout does,
and with the same fault.
-/

namespace TypeBridge

namespace Managed

namespace Universe

variable {u : Universe} {n : FactId}

theorem ContainsItself.isStruct {enumBase : Option String} (h : u.ContainsItself enumBase n) :
    (u.fact n).IsStruct enumBase := by
  rw [← containsItself_layoutGraph] at h
  exact Fact.standing_eq_struct_iff.mp h.standing

/-- **A struct that contains itself is refused or a fault.** It is refused
when a type of the managed side alone is met before the way round, and a
cycle otherwise, where the walk does not go too far inside. Its classification
has the same faults. -/
theorem hasSharedLayout_of_containsItself (u : Universe) (settings : Settings) (n : FactId)
    (hself : u.ContainsItself settings.enumBase n) :
    (u.layoutGraph settings.enumBase).hasSharedLayout n ≠ .ok true ∧
    ((u.layoutGraph settings.enumBase).hasSharedLayout n = .ok false ↔
      (u.layoutGraph settings.enumBase).Refused n ∧
        ¬ (u.layoutGraph settings.enumBase).Overflows n) ∧
    ((∃ members, (u.layoutGraph settings.enumBase).hasSharedLayout n = .error (.cycle members)) ↔
      ¬ (u.layoutGraph settings.enumBase).Refused n ∧
        ¬ (u.layoutGraph settings.enumBase).Overflows n) ∧
    ((∃ m, (u.layoutGraph settings.enumBase).hasSharedLayout n = .error (.tooDeep n m)) ↔
      (u.layoutGraph settings.enumBase).Overflows n) ∧
    ((u.fact n).kind = .named → (u.fact n).isReferenceType = false → ∀ fault,
      u.classify settings n = .error (.layout fault) ↔
        (u.layoutGraph settings.enumBase).hasSharedLayout n = .error fault) := by
  -- what is shared is founded, so only the other three outcomes are left
  have hshared : ¬ (u.layoutGraph settings.enumBase).Shared n := fun hn =>
    hn.not_containsItself (containsItself_layoutGraph ▸ hself)
  refine ⟨fun hyes => hshared (Graph.hasSharedLayout_eq_true_iff.mp hyes).1,
    Graph.hasSharedLayout_eq_false_iff, ?_, Graph.hasSharedLayout_tooDeep_iff,
    fun hkind href => classify_eq_layout_iff hkind hself.isStruct href⟩
  rw [Graph.hasSharedLayout_cycle_iff]
  exact and_iff_right hshared

/-- A struct with a text in front of itself. -/
def labelledNode : Universe where
  facts := #[
    { kind := .named
      name := "Node"
      isValueType := true
      fields := [{ name := "label", type := 1 }, { name := "next", type := 0 }] },
    .ofSpecial .string]

theorem labelledNode_containsItself : labelledNode.ContainsItself (some "System.Enum") 0 := by
  refine .single ⟨?_, { name := "next", type := 0 }, ?_, rfl⟩
  · exact Fact.standing_eq_struct_iff.mp (by decide)
  · decide

/-- It is refused for the text, and the way round is not seen. -/
theorem labelledNode_refused :
    labelledNode.ContainsItself (some "System.Enum") 0 ∧
      (labelledNode.layoutGraph (some "System.Enum")).Refused 0 ∧
      ¬ (labelledNode.layoutGraph (some "System.Enum")).Overflows 0 :=
  ⟨labelledNode_containsItself,
    (hasSharedLayout_of_containsItself labelledNode {} 0 labelledNode_containsItself).2.1.mp rfl⟩

/-- So a struct may contain itself and have a verdict. -/
theorem not_fault_of_containsItself : ¬ ∀ (u : Universe) (settings : Settings) (n : FactId),
    u.ContainsItself settings.enumBase n →
      ∃ fault, (u.layoutGraph settings.enumBase).hasSharedLayout n = .error fault := by
  intro h
  obtain ⟨fault, hfault⟩ := h labelledNode {} 0 labelledNode_containsItself
  have hno : (labelledNode.layoutGraph (some "System.Enum")).hasSharedLayout 0 = .ok false := rfl
  rw [hno] at hfault
  cases hfault

end Universe

end Managed

end TypeBridge
