import Mathlib.Data.List.Forall2
/-!
# TypeBridge — two lists side by side

`List.Forall₂` pairs the entries of two lists of one length. These are the ways
its pairs are carried over to another relation or another list.
-/

namespace TypeBridge

variable {α β γ : Type} {R R' : α → β → Prop} {S : β → γ → Prop} {T : α → γ → Prop}
variable {as : List α} {bs : List β} {cs : List γ}

theorem exists_of_forall₂ {b : β} (h : List.Forall₂ R as bs) (hb : b ∈ bs) :
    ∃ a ∈ as, R a b := by
  induction h with
  | nil => cases hb
  | cons hab _ ih =>
    rcases List.mem_cons.mp hb with rfl | hb
    · exact ⟨_, by simp, hab⟩
    · obtain ⟨a, ha, hab⟩ := ih hb
      exact ⟨a, by simp [ha], hab⟩

theorem forall₂_imp_of_mem (h : List.Forall₂ R as bs)
    (himp : ∀ a ∈ as, ∀ b ∈ bs, R a b → R' a b) : List.Forall₂ R' as bs := by
  induction h with
  | nil => exact .nil
  | cons hab _ ih =>
    exact .cons (himp _ (by simp) _ (by simp) hab) (ih fun a ha b hb =>
      himp a (by simp [ha]) b (by simp [hb]))

theorem forall₂_comp (h : List.Forall₂ R as bs) (h' : List.Forall₂ S bs cs)
    (hcomp : ∀ {a b c}, R a b → S b c → T a c) : List.Forall₂ T as cs := by
  induction h generalizing cs with
  | nil =>
    cases h'
    exact .nil
  | cons hab _ ih =>
    cases h' with
    | cons hbc h' => exact .cons (hcomp hab hbc) (ih h')

/-- What stands between the entries of each pair makes a list between the two. -/
theorem exists_between_of_forall₂ (h : List.Forall₂ T as cs)
    (hbetween : ∀ a ∈ as, ∀ c, T a c → ∃ b, R a b ∧ S b c) :
    ∃ bs, List.Forall₂ R as bs ∧ List.Forall₂ S bs cs := by
  induction h with
  | nil => exact ⟨[], .nil, .nil⟩
  | cons hac _ ih =>
    obtain ⟨hfirst, hrest⟩ := List.forall_mem_cons.mp hbetween
    obtain ⟨b, hab, hbc⟩ := hfirst _ hac
    obtain ⟨bs, hbs, hbs'⟩ := ih hrest
    exact ⟨b :: bs, .cons hab hbs, .cons hbc hbs'⟩

theorem map_eq_of_forall₂ {f : α → γ} {g : β → γ}
    (h : List.Forall₂ (fun a b => f a = g b) as bs) : as.map f = bs.map g := by
  induction h with
  | nil => rfl
  | cons hab _ ih => rw [List.map_cons, List.map_cons, hab, ih]

theorem forall₂_of_length_eq (hlength : as.length = bs.length)
    (h : ∀ a ∈ as, ∀ b ∈ bs, R a b) : List.Forall₂ R as bs :=
  List.forall₂_iff_zip.mpr ⟨hlength, fun hab => h _ (List.of_mem_zip hab).1 _ (List.of_mem_zip hab).2⟩

/-- Two lists in a row are paired with two lists in a row. -/
theorem exists_append_of_forall₂ {as' : List α} (h : List.Forall₂ R (as ++ as') bs) :
    ∃ front back, bs = front ++ back ∧ List.Forall₂ R as front ∧ List.Forall₂ R as' back := by
  refine ⟨_, _, (List.take_append_drop as.length bs).symm, ?_, ?_⟩
  · simpa using List.forall₂_take as.length h
  · simpa using List.forall₂_drop as.length h

end TypeBridge
