import TypeBridge.Json.Indented
import TypeBridge.Proofs.Text.Halves
import TypeBridge.Proofs.Text.Separated
/-!
# TypeBridge — JSON is written in ASCII

Whatever a string holds, lone halves included, is written as escapes of ASCII
characters. So the text of texts in arrays and objects is ASCII, and there is
nothing in it that could not be written to a file.
-/

namespace TypeBridge

namespace Json

open Text

variable {s t : String} {texts : List String} {level : Nat} {items : List Json}
variable {members : List (String × Json)}

def IsAscii (text : String) : Prop :=
  ∀ c ∈ text.toList, c.toNat < 0x80

instance : DecidablePred IsAscii :=
  fun text => decidable_of_iff (text.toList.all (·.toNat < 0x80) = true) (by simp [IsAscii])

theorem isAscii_append : IsAscii (s ++ t) ↔ IsAscii s ∧ IsAscii t :=
  forall_mem_append

/-- Nothing in ASCII is part of a lone half. -/
theorem IsAscii.hasHalf_eq (h : IsAscii s) : hasHalf s = false := by
  refine hasHalf_eq_false_of_notMem fun hmark => ?_
  exact absurd (h _ hmark) (by decide)

/-! ## Strings -/

theorem toNat_lt_of_mem_toDigits {n : Nat} {c : Char} (h : c ∈ Nat.toDigits 16 n) :
    c.toNat < 0x80 := by
  have hdigit : ∀ d < 16, (Nat.digitChar d).toNat < 0x80 := by decide
  induction n using Nat.strongRecOn with
  | ind n ih =>
    rw [Nat.toDigits_eq_if (by decide)] at h
    split_ifs at h with hlt
    · exact List.mem_singleton.mp h ▸ hdigit n hlt
    · rcases List.mem_append.mp h with h | h
      · exact ih (n / 16) (by omega) h
      · exact List.mem_singleton.mp h ▸ hdigit _ (Nat.mod_lt _ (by decide))

theorem isAscii_unitEscape (unit : Nat) : IsAscii (unitEscape unit) := by
  rw [unitEscape, isAscii_append]
  refine ⟨by decide, fun c hc => ?_⟩
  rw [hexDigits, String.toList_ofList] at hc
  rcases List.mem_append.mp hc with hc | hc
  · rw [List.eq_of_mem_replicate hc]
    decide
  · exact toNat_lt_of_mem_toDigits hc

theorem isAscii_escapeChar (c : Char) : IsAscii (escapeChar c) := by
  unfold escapeChar
  split
  case h_8 =>
    dsimp only
    split_ifs with hshown
    · intro d hd
      obtain rfl : d = c := by simpa using hd
      omega
    · exact isAscii_unitEscape _
    · exact isAscii_append.mpr ⟨isAscii_unitEscape _, isAscii_unitEscape _⟩
  all_goals decide

/-- **A quoted string is ASCII.** -/
theorem isAscii_quote (s : String) : IsAscii (quote s) := by
  rw [quote, isAscii_append, isAscii_append]
  refine ⟨⟨by decide, forall_mem_join fun t ht => ?_⟩, by decide⟩
  obtain ⟨p, -, rfl⟩ := List.mem_map.mp ht
  cases p with
  | char c => exact isAscii_escapeChar c
  | half unit => exact isAscii_unitEscape unit

/-! ## Values -/

theorem isAscii_null (level : Nat) : IsAscii (null.indented level) := by
  rw [indented]
  decide

theorem isAscii_bool (value : Bool) (level : Nat) : IsAscii ((bool value).indented level) := by
  rw [indented]
  cases value <;> decide

theorem isAscii_string (s : String) (level : Nat) : IsAscii ((string s).indented level) := by
  rw [indented]
  exact isAscii_quote s

theorem isAscii_newLine (level : Nat) : IsAscii (newLine level) := by
  rw [newLine, isAscii_append]
  exact ⟨by decide, forall_mem_blanks (by decide) _⟩

theorem isAscii_bracketed {opening closing : String} (hopening : IsAscii opening)
    (hclosing : IsAscii closing) (h : ∀ part ∈ texts, IsAscii part) :
    IsAscii (bracketed opening closing level texts) := by
  have hcomma : IsAscii ("," ++ newLine (level + 1)) :=
    isAscii_append.mpr ⟨by decide, isAscii_newLine _⟩
  rw [bracketed]
  split_ifs
  · exact isAscii_append.mpr ⟨hopening, hclosing⟩
  · simp only [isAscii_append]
    exact ⟨⟨⟨⟨hopening, isAscii_newLine _⟩, forall_mem_intercalate hcomma h⟩, isAscii_newLine _⟩,
      hclosing⟩

theorem isAscii_array (h : ∀ item ∈ items, ∀ level, IsAscii (item.indented level)) :
    IsAscii ((array items).indented level) := by
  rw [indented]
  refine isAscii_bracketed (by decide) (by decide) ?_
  induction items with
  | nil => nofun
  | cons item items ih =>
    rw [List.forall_mem_cons] at h
    exact List.forall_mem_cons.mpr ⟨h.1 _, ih h.2⟩

theorem isAscii_object (h : ∀ member ∈ members, ∀ level, IsAscii (member.2.indented level)) :
    IsAscii ((object members).indented level) := by
  rw [indented]
  refine isAscii_bracketed (by decide) (by decide) ?_
  induction members with
  | nil => nofun
  | cons member members ih =>
    obtain ⟨key, value⟩ := member
    rw [List.forall_mem_cons] at h
    refine List.forall_mem_cons.mpr ⟨?_, ih h.2⟩
    exact isAscii_append.mpr ⟨isAscii_append.mpr ⟨isAscii_quote key, by decide⟩, h.1 _⟩

end Json

end TypeBridge
