import TypeBridge.Text.Filled
import Mathlib.Data.List.Basic
/-!
# TypeBridge — texts in pieces

A text that is put together from pieces with a separator between them can be
taken apart again where the separator's first character is in none of the
pieces: the pieces end where that character first comes. So two such texts are
equal when their pieces are.

A separator may also open a text. `led` puts an empty piece in front then, so
an opened text is made of pieces like any other.
-/

namespace TypeBridge

namespace Text

variable {c : Char} {sep x y u v : String} {xs ys : List String}

/-- A list is cut where an element first comes. -/
theorem append_cons_inj {α : Type} {a : α} {xs ys us vs : List α} (hxs : a ∉ xs) (hys : a ∉ ys) :
    xs ++ a :: us = ys ++ a :: vs ↔ xs = ys ∧ us = vs := by
  constructor
  · intro h
    rcases List.append_eq_append_iff.mp h with
      ⟨_ | ⟨b, more⟩, rfl, hrest⟩ | ⟨_ | ⟨b, more⟩, rfl, hrest⟩
    · exact ⟨by simp, (List.cons.inj hrest).2⟩
    · -- the longer front would have the element
      obtain ⟨rfl, -⟩ := List.cons.inj hrest
      exact absurd (by simp) hys
    · exact ⟨by simp, (List.cons.inj hrest).2.symm⟩
    · obtain ⟨rfl, -⟩ := List.cons.inj hrest
      exact absurd (by simp) hxs
  · rintro ⟨rfl, rfl⟩
    rfl

/-- A list is cut where an element last comes. -/
theorem append_cons_inj_of_last {α : Type} {a : α} {xs ys us vs : List α} (hus : a ∉ us)
    (hvs : a ∉ vs) : xs ++ a :: us = ys ++ a :: vs ↔ xs = ys ∧ us = vs := by
  have hreverse : us.reverse ++ a :: xs.reverse = vs.reverse ++ a :: ys.reverse ↔
      us.reverse = vs.reverse ∧ xs.reverse = ys.reverse :=
    append_cons_inj (by simpa using hus) (by simpa using hvs)
  rw [← List.reverse_inj]
  simpa [and_comm] using hreverse

/-- **A text is cut where its separator first comes.** -/
theorem append_sep_inj (hsep : sep.toList.head? = some c) (hx : c ∉ x.toList) (hy : c ∉ y.toList) :
    x ++ sep ++ u = y ++ sep ++ v ↔ x = y ∧ u = v := by
  obtain ⟨more, hmore⟩ := List.head?_eq_some_iff.mp hsep
  simp only [← String.toList_inj, String.toList_append, hmore, List.append_assoc, List.cons_append]
  rw [append_cons_inj hx hy, List.append_right_inj]

/-- One piece is not more of them. -/
theorem ne_append_sep (hsep : sep.toList.head? = some c) (hx : c ∉ x.toList) :
    x ≠ y ++ sep ++ u := by
  rintro rfl
  obtain ⟨more, hmore⟩ := List.head?_eq_some_iff.mp hsep
  simp [hmore] at hx

/-- **Pieces are recovered** from the text they make. The induction takes one
piece off either text. -/
theorem intercalate_inj (hsep : sep.toList.head? = some c) (hxs : ∀ x ∈ xs, c ∉ x.toList)
    (hys : ∀ y ∈ ys, c ∉ y.toList) (hxs' : xs ≠ []) (hys' : ys ≠ []) :
    sep.intercalate xs = sep.intercalate ys ↔ xs = ys := by
  refine ⟨fun h => ?_, congrArg _⟩
  induction xs generalizing ys with
  | nil => exact absurd rfl hxs'
  | cons x xs ih =>
    obtain ⟨y, ys, rfl⟩ := List.exists_cons_of_ne_nil hys'
    rw [List.forall_mem_cons] at hxs hys
    rcases xs with _ | ⟨x', xs⟩ <;> rcases ys with _ | ⟨y', ys⟩
    · simpa using h
    · rw [String.intercalate_singleton, String.intercalate_cons_cons] at h
      exact absurd h (ne_append_sep hsep hxs.1)
    · rw [String.intercalate_singleton, String.intercalate_cons_cons] at h
      exact absurd h.symm (ne_append_sep hsep hys.1)
    · rw [String.intercalate_cons_cons, String.intercalate_cons_cons,
        append_sep_inj hsep hxs.1 hys.1] at h
      rw [h.1, ih hxs.2 hys.2 (List.cons_ne_nil _ _) (List.cons_ne_nil _ _) h.2]

/-- Only no piece at all makes no text, unless a piece is empty. -/
theorem intercalate_eq_empty_iff (hxs : ∀ x ∈ xs, x ≠ "") : sep.intercalate xs = "" ↔ xs = [] := by
  rcases xs with _ | ⟨x, _ | ⟨x', xs⟩⟩
  · simp
  · simpa using hxs x
  · rw [String.intercalate_cons_cons]
    simp [String.append_eq_empty_iff, hxs x]

/-! ## Characters

What holds of the characters of all pieces holds of those of the text. -/

section

variable {P : Char → Prop}

theorem forall_mem_append : (∀ c ∈ (x ++ y).toList, P c) ↔
    (∀ c ∈ x.toList, P c) ∧ ∀ c ∈ y.toList, P c := by
  rw [String.toList_append, List.forall_mem_append]

theorem forall_mem_join (h : ∀ x ∈ xs, ∀ c ∈ x.toList, P c) :
    ∀ c ∈ (String.join xs).toList, P c := by
  induction xs with
  | nil => nofun
  | cons x xs ih =>
    rw [List.forall_mem_cons] at h
    rw [String.join_cons, forall_mem_append]
    exact ⟨h.1, ih h.2⟩

theorem forall_mem_intercalate (hsep : ∀ c ∈ sep.toList, P c)
    (h : ∀ x ∈ xs, ∀ c ∈ x.toList, P c) : ∀ c ∈ (sep.intercalate xs).toList, P c := by
  induction xs with
  | nil => nofun
  | cons x xs ih =>
    rw [List.forall_mem_cons] at h
    rcases xs with _ | ⟨x', xs⟩
    · rw [String.intercalate_singleton]
      exact h.1
    · rw [String.intercalate_cons_cons, forall_mem_append, forall_mem_append]
      exact ⟨⟨h.1, hsep⟩, ih h.2⟩

theorem forall_mem_blanks (hblank : P ' ') (count : Nat) : ∀ c ∈ (blanks count).toList, P c := by
  intro c hc
  rw [blanks, String.toList_ofList] at hc
  exact List.eq_of_mem_replicate hc ▸ hblank

end

/-- What is neither in the separator nor in a piece is not in the text. -/
theorem notMem_intercalate (hsep : c ∉ sep.toList) (hxs : ∀ x ∈ xs, c ∉ x.toList) :
    c ∉ (sep.intercalate xs).toList := fun hmem =>
  forall_mem_intercalate (P := (· ≠ c)) (fun _ hd => ne_of_mem_of_not_mem hd hsep)
    (fun x hx _ hd => ne_of_mem_of_not_mem hd (hxs x hx)) c hmem rfl

/-! ## Opened texts -/

/-- Pieces with an empty one in front, if a separator opens the text. -/
def led (opened : Bool) (xs : List String) : List String :=
  if opened then "" :: xs else xs

theorem led_ne_nil {opened : Bool} (h : xs ≠ []) : led opened xs ≠ [] := by
  cases opened
  · exact h
  · exact List.cons_ne_nil _ _

/-- What holds of the pieces and of nothing holds of all pieces of an opened
text. -/
theorem forall_led {P : String → Prop} {opened : Bool} (hempty : P "") (h : ∀ x ∈ xs, P x) :
    ∀ x ∈ led opened xs, P x := by
  cases opened
  · exact h
  · exact List.forall_mem_cons.mpr ⟨hempty, h⟩

theorem forall_mem_led {opened : Bool} (h : ∀ x ∈ xs, c ∉ x.toList) :
    ∀ x ∈ led opened xs, c ∉ x.toList :=
  forall_led (by simp) h

theorem led_inj {opened : Bool} : led opened xs = led opened ys ↔ xs = ys := by
  cases opened <;> simp [led]

/-- Nothing is not opened, so it is told from something. -/
theorem led_ne_nil_inj {opened : Bool} :
    led (opened && xs ≠ []) xs = led (opened && ys ≠ []) ys ↔ xs = ys := by
  rcases xs with _ | ⟨x, xs⟩ <;> rcases ys with _ | ⟨y, ys⟩ <;> cases opened <;> simp [led]

theorem led_append {opened : Bool} : led opened xs ++ ys = led opened (xs ++ ys) := by
  cases opened <;> rfl

/-- The separator opens the text. -/
theorem intercalate_led (h : xs ≠ []) :
    sep.intercalate (led true xs) = sep ++ sep.intercalate xs := by
  rw [led, if_pos rfl, String.intercalate_cons_of_ne_nil h, String.empty_append]

/-- A first piece can be taken off, with what is behind it opened. -/
theorem intercalate_cons_eq (x : String) (xs : List String) :
    sep.intercalate (x :: xs) = x ++ sep.intercalate (led true xs) := by
  have h : sep.intercalate ((x ++ "") :: xs) = x ++ sep.intercalate ("" :: xs) :=
    String.intercalate_cons_append
  rwa [String.append_empty] at h

end Text

end TypeBridge
