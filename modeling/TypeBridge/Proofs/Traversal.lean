import TypeBridge.Proofs.Pairing
/-!
# TypeBridge — one attempt after another

What is done for each entry of a list in turn succeeds when it does for every
entry, and it fails with the first failure.
-/

namespace TypeBridge

variable {α β ε : Type} {f : α → Except ε β} {as : List α} {bs : List β} {error : ε}

/-- **Every entry succeeds**, each with its own result. -/
theorem mapM_eq_ok_iff : as.mapM f = .ok bs ↔ List.Forall₂ (fun a b => f a = .ok b) as bs := by
  induction as generalizing bs with
  | nil => cases bs <;> simp [pure, Except.pure]
  | cons a as ih =>
    rw [List.mapM_cons]
    rcases ha : f a with error | b
    · simp [List.forall₂_cons_left_iff, ha, bind, Except.bind]
    · rcases has : as.mapM f with error | rest
      · simp [List.forall₂_cons_left_iff, ← ih, ha, has, bind, Except.bind]
      · simp [List.forall₂_cons_left_iff, ← ih, ha, has, bind, Except.bind, pure, Except.pure,
          eq_comm]

theorem mapM_eq_ok_map {g : α → β} (h : ∀ a ∈ as, f a = .ok (g a)) :
    as.mapM f = .ok (as.map g) :=
  mapM_eq_ok_iff.mpr (List.forall₂_map_right_iff.mpr (List.forall₂_same.mpr h))

theorem exists_of_mem_mapM {b : β} (h : as.mapM f = .ok bs) (hb : b ∈ bs) :
    ∃ a ∈ as, f a = .ok b := by
  obtain ⟨a, ha, hab⟩ := exists_of_forall₂ (mapM_eq_ok_iff.mp h) hb
  exact ⟨a, ha, hab⟩

theorem mapM_eq_nil_iff (h : as.mapM f = .ok bs) : bs = [] ↔ as = [] := by
  rw [← List.length_eq_zero_iff, ← List.length_eq_zero_iff, (mapM_eq_ok_iff.mp h).length_eq]

/-- **The first entry that fails** decides on the failure. -/
theorem mapM_eq_error_iff : as.mapM f = .error error ↔
    ∃ before a after, as = before ++ a :: after ∧ (∀ x ∈ before, ∃ b, f x = .ok b) ∧
      f a = .error error := by
  induction as with
  | nil => simp [pure, Except.pure]
  | cons a as ih =>
    rw [List.mapM_cons]
    constructor
    · intro h
      rcases ha : f a with error' | b <;> rw [ha] at h
      · obtain rfl := Except.error.inj h
        exact ⟨[], a, as, rfl, nofun, ha⟩
      · rcases has : as.mapM f with error' | rest
        · obtain rfl : error' = error := by simpa [has, bind, Except.bind] using h
          obtain ⟨before, x, after, rfl, hbefore, hx⟩ := ih.mp has
          exact ⟨a :: before, x, after, rfl, List.forall_mem_cons.mpr ⟨⟨b, ha⟩, hbefore⟩, hx⟩
        · simp [has, bind, Except.bind, pure, Except.pure] at h
    · rintro ⟨_ | ⟨first, before⟩, x, after, hsplit, hbefore, hx⟩
      · obtain ⟨rfl, rfl⟩ := List.cons.inj hsplit
        rw [hx]
        rfl
      · obtain ⟨rfl, hrest⟩ := List.cons.inj hsplit
        obtain ⟨⟨b, ha⟩, hbefore⟩ := List.forall_mem_cons.mp hbefore
        rw [ha, ih.mpr ⟨before, x, after, hrest, hbefore, hx⟩]
        rfl

end TypeBridge
