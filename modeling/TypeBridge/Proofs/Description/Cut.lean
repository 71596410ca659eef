import TypeBridge.Description.Source
import Mathlib.Data.List.TakeWhile
/-!
# TypeBridge — cutting a text into tokens

`Cuts` says, without any reading, that a text is made of given tokens. Blanks
and comments may stand in front of each token and behind the last, a name
takes in the whole run of characters that can belong to it, and a mark needs
nothing after it, so one text may be cut in several ways.

Below it stand the two functions that look at characters. `skipBlanks` passes
over as much of a gap as there is, and `stripName?` takes the one name that a
text can start with.
-/

namespace TypeBridge

namespace Description

/-! ## What a text is made of -/

/-- A name: a letter to start with, and characters it goes on with. -/
def IsName : List Char → Prop
  | [] => False
  | c :: more => isNameStart c = true ∧ ∀ d ∈ more, isNameChar d = true

instance : DecidablePred IsName
  | [] => inferInstanceAs (Decidable False)
  | c :: more => decidable_of_iff (isNameStart c = true ∧ more.all isNameChar = true)
      (and_congr_right fun _ => List.all_eq_true)

/-- No name goes on into a text. -/
def EndsName (rest : List Char) : Prop :=
  ∀ c ∈ rest.head?, isNameChar c = false

/-- Blanks and comments lead from one text to another. A comment runs to the
end of its line or of the text. -/
inductive Gap : List Char → List Char → Prop
  | none {text : List Char} : Gap text text
  | blank {c : Char} {text rest : List Char} : isBlank c = true → Gap text rest →
      Gap (c :: text) rest
  | comment {body after rest : List Char} : '\n' ∉ body → (∀ c ∈ after.head?, c = '\n') →
      Gap after rest → Gap ('#' :: body ++ after) rest

/-- A text starts with a token and goes on with the rest. A name goes as far as
it can. -/
def Token.Starts (text rest : List Char) : Token → Prop
  | .mark m => text = m.spelling.toList ++ rest
  | .name n => IsName n.toList ∧ text = n.toList ++ rest ∧ EndsName rest

/-- A text is cut into tokens. -/
inductive Cuts : List Char → List Token → Prop
  | done {text : List Char} : Gap text [] → Cuts text []
  | token {text start rest : List Char} {t : Token} {ts : List Token} : Gap text start →
      t.Starts start rest → Cuts rest ts → Cuts text (t :: ts)

variable {text rest more : List Char} {c : Char} {m m' : Mark} {n : String} {t : Token}

/-! ## Characters -/

theorem isNameChar_of_isNameStart (h : isNameStart c = true) : isNameChar c = true := by
  simp only [isNameStart, isNameChar, Bool.or_eq_true, Char.isAlphanum] at h ⊢
  exact h.imp_left Or.inl

theorem isNameChar_of_mem {name : List Char} (h : IsName name) (hc : c ∈ name) :
    isNameChar c = true := by
  cases name with
  | nil => cases h
  | cons d more =>
    rcases List.mem_cons.mp hc with rfl | hc
    · exact isNameChar_of_isNameStart h.1
    · exact h.2 c hc

/-- The word of a static field may be a name as well. -/
theorem isName_static : IsName Mark.staticWord.spelling.toList := by
  decide

/-- No character of a name is skipped. -/
theorem not_isBlank_of_isNameChar (h : isNameChar c = true) : isBlank c = false ∧ c ≠ '#' := by
  have hne : ∀ d : Char, isNameChar d = false → c ≠ d := fun d hd hcd => by
    rw [hcd, hd] at h
    cases h
  refine ⟨?_, hne '#' (by decide)⟩
  simp only [isBlank, Bool.or_eq_false_iff, decide_eq_false_iff_not]
  exact ⟨⟨⟨⟨hne _ (by decide), hne _ (by decide)⟩, hne _ (by decide)⟩, hne _ (by decide)⟩,
    hne _ (by decide)⟩

/-! ## Gaps -/

/-- No gap goes on into a text. -/
def IsSolid (text : List Char) : Prop :=
  ∀ c ∈ text.head?, isBlank c = false ∧ c ≠ '#'

/-- A text that starts with a character of a name is solid. -/
theorem isSolid_cons (h : isNameChar c = true) : IsSolid (c :: text) := by
  intro d hd
  obtain rfl := Option.mem_some_iff.mp hd
  exact not_isBlank_of_isNameChar h

theorem skipBlanks_of_isSolid (h : IsSolid text) : skipBlanks false text = text := by
  cases text with
  | nil => rfl
  | cons c text =>
    obtain ⟨hblank, hhash⟩ := h c rfl
    simp [skipBlanks, hblank, hhash]

/-- What the skipping leaves is solid. -/
theorem isSolid_skipBlanks (inComment : Bool) (text : List Char) :
    IsSolid (skipBlanks inComment text) := by
  fun_induction skipBlanks inComment text with
  | case1 => simp [IsSolid]
  | case2 _ _ ih => exact ih
  | case3 _ _ _ ih => exact ih
  | case4 _ _ _ _ _ _ ih => exact ih
  | case5 _ c rest _ hhash hblank =>
    rintro d hd
    obtain rfl : c = d := by simpa using hd
    exact ⟨by simpa using hblank, hhash⟩

/-- A comment is skipped up to where it ends. -/
theorem skipBlanks_comment {body after : List Char} (hbody : '\n' ∉ body)
    (hafter : ∀ c ∈ after.head?, c = '\n') :
    skipBlanks true (body ++ after) = skipBlanks false after := by
  induction body with
  | nil =>
    cases after with
    | nil => rfl
    | cons c after =>
      obtain rfl : c = '\n' := hafter c rfl
      simp [skipBlanks, isBlank]
  | cons d body ih =>
    obtain ⟨hd, hbody⟩ : d ≠ '\n' ∧ '\n' ∉ body := by
      simpa [eq_comm] using hbody
    have hgoes : (d != '\n') = true := by simpa using hd
    simp only [List.cons_append, skipBlanks, if_true, hgoes]
    exact ih hbody

/-- **A gap makes no difference to what is left** after all blanks. -/
theorem Gap.skipBlanks_eq (h : Gap text rest) : skipBlanks false text = skipBlanks false rest := by
  induction h with
  | none => rfl
  | @blank c text rest hc _ ih =>
    have hhash : c ≠ '#' := by
      rintro rfl
      cases hc
    simpa [skipBlanks, hhash, hc] using ih
  | @comment body after rest hbody hafter _ ih =>
    rw [List.cons_append, skipBlanks]
    simpa [skipBlanks_comment hbody hafter] using ih

/-- **What is skipped is a gap**, also from inside a comment, whatever of that
is already read. -/
theorem gap_skipBlanks (text : List Char) : Gap text (skipBlanks false text) ∧
    ∀ body, '\n' ∉ body → Gap ('#' :: body ++ text) (skipBlanks true text) := by
  induction text with
  | nil => exact ⟨.none, fun body hbody => .comment hbody (by simp) .none⟩
  | cons c rest ih =>
    obtain ⟨hgap, hcomment⟩ := ih
    refine ⟨?_, fun body hbody => ?_⟩
    · by_cases hhash : c = '#'
      · subst hhash
        exact hcomment [] (by simp)
      · by_cases hblank : isBlank c = true
        · simpa [skipBlanks, hhash, hblank] using Gap.blank hblank hgap
        · simpa [skipBlanks, hhash, hblank] using Gap.none
    · by_cases hend : c = '\n'
      · subst hend
        exact .comment hbody (by simp) (.blank (by decide) hgap)
      · -- the comment takes in one more character
        have hbody' : '\n' ∉ body ++ [c] := by simpa [eq_comm] using ⟨hbody, hend⟩
        have hgoes : (c != '\n') = true := by simpa using hend
        simpa [skipBlanks, hgoes] using hcomment (body ++ [c]) hbody'

/-- **The gap that is skipped** is the one that leads to a solid text. -/
theorem skipBlanks_eq_iff : skipBlanks false text = rest ↔ Gap text rest ∧ IsSolid rest := by
  constructor
  · rintro rfl
    exact ⟨(gap_skipBlanks text).1, isSolid_skipBlanks false text⟩
  · rintro ⟨hgap, hrest⟩
    exact hgap.skipBlanks_eq.trans (skipBlanks_of_isSolid hrest)

/-! ## Tokens -/

/-- A text that starts with a name starts with a letter. -/
theorem exists_cons_of_starts_name (h : (Token.name n).Starts text rest) :
    ∃ c more, text = c :: more ∧ isNameStart c = true := by
  obtain ⟨hname, rfl, -⟩ := h
  rcases hn : n.toList with _ | ⟨c, more⟩ <;> rw [hn] at hname
  · cases hname
  · exact ⟨c, more ++ rest, rfl, hname.1⟩

/-- A token starts where blanks end. -/
theorem isSolid_of_starts (h : t.Starts text rest) : IsSolid text := by
  cases t with
  | mark m =>
    obtain rfl : text = m.spelling.toList ++ rest := h
    cases m <;> (rintro c hc; obtain rfl := Option.mem_some_iff.mp hc; decide)
  | name n =>
    obtain ⟨c, more, rfl, hc⟩ := exists_cons_of_starts_name h
    exact isSolid_cons (isNameChar_of_isNameStart hc)

/-- A token takes something of the text. -/
theorem ne_nil_of_starts (h : t.Starts text rest) : text ≠ [] := by
  cases t with
  | mark m =>
    rw [show text = m.spelling.toList ++ rest from h]
    cases m <;> simp [Mark.spelling]
  | name n =>
    obtain ⟨c, more, rfl, -⟩ := exists_cons_of_starts_name h
    simp

/-- **A name is stripped whole**, and from every text that starts with one. -/
theorem stripName?_eq_some_iff :
    stripName? text = some (n, rest) ↔ (Token.name n).Starts text rest := by
  constructor
  · intro h
    cases text with
    | nil => cases h
    | cons c text =>
      simp only [stripName?, Option.ite_none_right_eq_some] at h
      obtain ⟨hc, h⟩ := h
      obtain ⟨rfl, rfl⟩ := Prod.mk.inj (Option.some.inj h)
      rw [Token.Starts, String.toList_ofList]
      refine ⟨⟨hc, fun d hd => ?_⟩, ?_, fun d hd => ?_⟩
      · exact List.mem_takeWhile_imp hd
      · rw [List.cons_append, List.takeWhile_append_dropWhile]
      · have := List.head?_dropWhile_not isNameChar text
        rw [Option.mem_def.mp hd] at this
        simpa using this
  · rintro ⟨hname, rfl, hrest⟩
    rcases hn : n.toList with _ | ⟨c, more⟩ <;> rw [hn] at hname
    · cases hname
    · have hstop : rest.takeWhile isNameChar = [] ∧ rest.dropWhile isNameChar = rest := by
        cases rest with
        | nil => simp
        | cons d rest => simp [hrest d rfl]
      rw [List.cons_append, stripName?, if_pos hname.1,
        List.takeWhile_append_of_pos hname.2, List.dropWhile_append_of_pos hname.2, hstop.1,
        hstop.2, List.append_nil, ← hn, String.ofList_toList]

/-- A mark is stripped from the texts that start with it. -/
theorem strip?_eq_some_iff : m.strip? text = some rest ↔ (Token.mark m).Starts text rest := by
  refine ⟨fun h => (Mark.append_of_strip? h).symm, fun h => ?_⟩
  obtain rfl : text = m.spelling.toList ++ rest := h
  rw [Mark.strip?]
  induction m.spelling.toList with
  | nil => rfl
  | cons c letters ih =>
    change (if c == c then letters.isPrefixOf? (letters ++ rest) else none) = some rest
    rw [if_pos (beq_self_eq_true c), ih]

/-- No mark starts another. -/
theorem mark_eq_of_isPrefix : m.spelling.toList <+: m'.spelling.toList → m = m' := by
  cases m <;> cases m' <;> decide

/-- **A text starts with one mark** at most. -/
theorem mark_unique (h : m.strip? text = some rest) (h' : m'.strip? text = some more) :
    m = m' := by
  have hm : m.spelling.toList <+: text := ⟨rest, (strip?_eq_some_iff.mp h).symm⟩
  have hm' : m'.spelling.toList <+: text := ⟨more, (strip?_eq_some_iff.mp h').symm⟩
  rcases List.prefix_or_prefix_of_prefix hm hm' with hpre | hpre
  · exact mark_eq_of_isPrefix hpre
  · exact (mark_eq_of_isPrefix hpre).symm

end Description

end TypeBridge
