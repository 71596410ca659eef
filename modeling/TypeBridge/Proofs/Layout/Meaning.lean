import TypeBridge.Proofs.Layout.Outcome
import TypeBridge.Settings
/-!
# TypeBridge — what a verdict says of the fields

The verdict on a type is about everything its fields lead to. After a yes
nothing of the managed side alone is reached, and no struct contains itself;
a no is for such a type. Where no struct contains itself and no nesting is
longer than the limit there is a verdict, and it tells the two apart.
-/

namespace TypeBridge

namespace Managed

namespace Universe

variable {u : Universe} {enumBase : Option String} {n m : FactId}

/-- Nothing is refused at sight below a shared type. -/
theorem not_isManagedOnly_of_shared (hn : (u.layoutGraph enumBase).Shared n)
    (hreach : u.Reaches enumBase n m) : ¬ (u.fact m).IsManagedOnly := by
  rw [← reaches_layoutGraph] at hreach
  exact fun hm => (hn.of_reaches hreach).standing_ne (Fact.standing_eq_settled_false_iff.mpr hm)

/-- A shared type reaches no struct that contains itself. -/
theorem not_containsItself_of_shared (hn : (u.layoutGraph enumBase).Shared n)
    (hreach : u.Reaches enumBase n m) : ¬ u.ContainsItself enumBase m := by
  rw [← reaches_layoutGraph] at hreach
  exact containsItself_layoutGraph ▸ (hn.of_reaches hreach).not_containsItself

/-- A refused type reaches one of the managed side alone. -/
theorem exists_isManagedOnly_of_refused (hn : (u.layoutGraph enumBase).Refused n) :
    ∃ m, u.Reaches enumBase n m ∧ (u.fact m).IsManagedOnly := by
  obtain ⟨m, hreach, hm⟩ := hn.exists_reaches
  exact ⟨m, reaches_layoutGraph ▸ hreach, Fact.standing_eq_settled_false_iff.mp hm⟩

/-- Short nestings do not overflow: a first way is a nesting. -/
theorem not_overflows_of_bounded (hbound : ∀ path, u.IsNesting enumBase path → path.Nodup →
      path.head? = some n → path.length ≤ nestingLimit) :
    ¬ (u.layoutGraph enumBase).Overflows n := by
  rintro ⟨m, path, hway, hlong⟩
  have := hbound path (isNesting_layoutGraph ▸ hway.isNesting) hway.nodup hway.head
  omega

/-- **What a verdict says.** A yes excludes types of the managed side alone
and structs that contain themselves from all that the fields lead to, and a
no shows such a type. Without circles and without nestings beyond the limit
the verdict is there, and right. -/
theorem hasSharedLayout_means (u : Universe) (settings : Settings) (n : FactId) :
    ((u.layoutGraph settings.enumBase).hasSharedLayout n = .ok true →
      (∀ m, u.Reaches settings.enumBase n m →
        (u.fact m).IsLayoutScalar ∨ (u.fact m).kind = .pointer ∨
          ((u.fact m).isValueType = true ∧ (u.fact m).isEnum settings.enumBase = true) ∨
          (u.fact m).IsStruct settings.enumBase) ∧
      ∀ m, u.Reaches settings.enumBase n m → (u.fact m).IsStruct settings.enumBase →
        ¬ u.ContainsItself settings.enumBase m) ∧
    ((u.layoutGraph settings.enumBase).hasSharedLayout n = .ok false →
      ∃ m, u.Reaches settings.enumBase n m ∧ (u.fact m).IsManagedOnly) ∧
    ((∀ m, u.Reaches settings.enumBase n m → ¬ u.ContainsItself settings.enumBase m) →
      (∀ path, u.IsNesting settings.enumBase path → path.Nodup → path.head? = some n →
        path.length ≤ nestingLimit) →
      ∃ v, (u.layoutGraph settings.enumBase).hasSharedLayout n = .ok v ∧
        (v = true ↔ ∀ m, u.Reaches settings.enumBase n m → ¬ (u.fact m).IsManagedOnly)) := by
  refine ⟨fun hyes => ?_, fun hno => ?_, fun hself hbound => ?_⟩
  · have hn := (Graph.hasSharedLayout_eq_true_iff.mp hyes).1
    exact ⟨fun m hm => (Fact.not_isManagedOnly_iff _).mp (not_isManagedOnly_of_shared hn hm),
      fun m hm _ => not_containsItself_of_shared hn hm⟩
  · exact exists_isManagedOnly_of_refused (Graph.hasSharedLayout_eq_false_iff.mp hno).1
  · have hdeep := not_overflows_of_bounded hbound
    rcases Graph.shared_or_refused_of_bounded (g := u.layoutGraph settings.enumBase)
      (reaches_layoutGraph ▸ containsItself_layoutGraph ▸ hself) (isNesting_layoutGraph ▸ hbound)
      with hn | hn
    · refine ⟨true, Graph.hasSharedLayout_eq_true_iff.mpr ⟨hn, hdeep⟩, ?_⟩
      exact iff_of_true rfl fun m hm => not_isManagedOnly_of_shared hn hm
    · refine ⟨false, Graph.hasSharedLayout_eq_false_iff.mpr ⟨hn, hdeep⟩, ?_⟩
      obtain ⟨m, hreach, hm⟩ := exists_isManagedOnly_of_refused hn
      exact iff_of_false (by simp) fun hnone => hnone m hreach hm

end Universe

end Managed

end TypeBridge
