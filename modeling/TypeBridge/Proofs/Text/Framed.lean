import TypeBridge.Proofs.Text.Halves
import TypeBridge.Proofs.Text.Separated
/-!
# TypeBridge — a text within code

Generated code is ASCII, and free of brackets and backslashes, but for the base
namespace, which may be any text without dots and colons. So wherever code shows
a type, it shows the base in a frame of such code, and what is odd about the
whole is odd about the base alone.
-/

namespace TypeBridge

namespace Text

open Surrogate

variable {text front back inner : String} {c : Char}

/-! ## Code -/

/-- A character of ASCII that means nothing to markup. -/
def isCodeChar (c : Char) : Bool :=
  c.toNat < 0x80 && c ≠ '[' && c ≠ ']' && c ≠ '\\'

def IsCode (text : String) : Prop :=
  ∀ c ∈ text.toList, isCodeChar c

instance : DecidablePred IsCode :=
  fun text => decidable_of_iff (text.toList.all isCodeChar = true) List.all_eq_true

theorem half?_of_isCodeChar (h : isCodeChar c) : half? c = none := by
  have hlt : c.toNat < 0x80 := by
    simp only [isCodeChar, Bool.and_eq_true, decide_eq_true_eq] at h
    exact h.1.1.1
  exact if_neg (by omega)

theorem IsCode.notMem (h : IsCode text) (hc : isCodeChar c = false) : c ∉ text.toList := by
  intro hmem
  rw [h c hmem] at hc
  cases hc

theorem IsCode.notMem_mark (h : IsCode text) : mark ∉ text.toList :=
  h.notMem (by decide)

theorem isCode_append : IsCode (front ++ back) ↔ IsCode front ∧ IsCode back :=
  forall_mem_append

theorem IsCode.hasHalf_eq (h : IsCode text) : hasHalf text = false :=
  hasHalf_eq_false_of_notMem h.notMem_mark

/-! ## Frames -/

/-- A text shows another one in a frame of code. -/
def Frames (inner text : String) : Prop :=
  ∃ front back, IsCode front ∧ IsCode back ∧ text = front ++ inner ++ back

theorem Frames.of_isCode (h : IsCode text) : Frames "" text :=
  ⟨text, "", h, nofun, by simp⟩

theorem Frames.behind (h : Frames inner text) (hfront : IsCode front) :
    Frames inner (front ++ text) := by
  obtain ⟨front', back, hfront', hback, rfl⟩ := h
  exact ⟨front ++ front', back, isCode_append.mpr ⟨hfront, hfront'⟩, hback,
    by simp only [String.append_assoc]⟩

theorem Frames.before (h : Frames inner text) (hback : IsCode back) :
    Frames inner (text ++ back) := by
  obtain ⟨front, back', hfront, hback', rfl⟩ := h
  exact ⟨front, back' ++ back, hfront, isCode_append.mpr ⟨hback', hback⟩,
    by simp only [String.append_assoc]⟩

/-- A frame has the characters of code and of what is framed. -/
theorem Frames.forall_mem {P : Char → Prop} (h : Frames inner text)
    (hcode : ∀ c, isCodeChar c → P c) (hinner : ∀ c ∈ inner.toList, P c) :
    ∀ c ∈ text.toList, P c := by
  obtain ⟨front, back, hfront, hback, rfl⟩ := h
  rw [forall_mem_append, forall_mem_append]
  exact ⟨⟨fun c hc => hcode c (hfront c hc), hinner⟩, fun c hc => hcode c (hback c hc)⟩

theorem Frames.notMem (h : Frames inner text) (hinner : c ∉ inner.toList)
    (hc : isCodeChar c = false) : c ∉ text.toList := by
  intro hmem
  refine h.forall_mem (P := (· ≠ c)) ?_ (fun d hd => ne_of_mem_of_not_mem hd hinner) c hmem rfl
  rintro d hd rfl
  rw [hd] at hc
  cases hc

/-- **A frame has no lone half**: there is one if what is framed has one. -/
theorem Frames.hasHalf_eq (h : Frames inner text) : hasHalf text = hasHalf inner := by
  obtain ⟨front, back, hfront, hback, rfl⟩ := h
  have hseam : ∀ d ∈ back.toList.head?, half? d = none := fun d hd =>
    half?_of_isCodeChar (hback d (List.mem_of_mem_head? hd))
  have hseam' : mark ∉ front.toList.getLast? := fun hmark =>
    hfront.notMem_mark (List.mem_of_mem_getLast? hmark)
  rw [hasHalf_append (.inr hseam), hasHalf_append (.inl hseam'), hfront.hasHalf_eq,
    hback.hasHalf_eq, Bool.false_or, Bool.or_false]

end Text

end TypeBridge
