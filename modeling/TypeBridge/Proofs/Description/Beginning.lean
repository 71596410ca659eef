import TypeBridge.Proofs.Description.Cut
/-!
# TypeBridge — the beginning of a text

`CutsTo` cuts a text as `Cuts` does, but only up to some rest of it. Where the
rest begins depends on the tokens alone, but for the blanks in front of it: a
token starts where the blanks end, and it takes one piece of the text. That
place is `behind` the tokens, and a text is cut into two lots of tokens when it
is cut there (`CutsTo.split`).
-/

namespace TypeBridge

namespace Description

/-- The beginning of a text is cut into tokens, and a rest is left. -/
inductive CutsTo : List Char → List Token → List Char → Prop
  | done {text rest : List Char} : Gap text rest → CutsTo text [] rest
  | token {text start mid rest : List Char} {t : Token} {ts : List Token} : Gap text start →
      t.Starts start mid → CutsTo mid ts rest → CutsTo text (t :: ts) rest

variable {text start mid rest more : List Char} {t : Token} {ts us : List Token}

/-! ## Gaps -/

theorem Gap.trans (h : Gap text mid) (h' : Gap mid rest) : Gap text rest := by
  induction h with
  | none => exact h'
  | blank hc _ ih => exact .blank hc (ih h')
  | comment hbody hafter _ ih => exact .comment hbody hafter (ih h')

theorem Gap.isSuffix (h : Gap text rest) : rest <:+ text := by
  induction h with
  | none => exact List.suffix_rfl
  | blank _ _ ih => exact ih.trans (List.suffix_cons _ _)
  | comment _ _ _ ih => exact ih.trans (List.suffix_append _ _)

theorem gap_skipBlanks_false (text : List Char) : Gap text (skipBlanks false text) :=
  (gap_skipBlanks text).1

/-- A gap can be gone on with to where all blanks end. -/
theorem Gap.skipBlanks (h : Gap text rest) : Gap rest (skipBlanks false text) := by
  rw [h.skipBlanks_eq]
  exact gap_skipBlanks_false rest

/-! ## Tokens -/

/-- A token takes one piece of a text. -/
theorem Token.Starts.unique (h : t.Starts text rest) (h' : t.Starts text more) : rest = more := by
  cases t with
  | mark m => exact List.append_cancel_left (h.symm.trans h')
  | name n => exact List.append_cancel_left (h.2.1.symm.trans h'.2.1)

/-- A text starts with one token of a kind. -/
theorem Token.Starts.eq_of_terminal {t' : Token} (h : t.Starts text rest)
    (h' : t'.Starts text more) (hterminal : t.terminal = t'.terminal) : t = t' := by
  cases t with
  | mark m =>
    cases t' with
    | mark m' => exact congrArg Token.mark (Terminal.mark.inj hterminal)
    | name n' => cases hterminal
  | name n =>
    cases t' with
    | mark m' => cases hterminal
    | name n' =>
      have hname := (stripName?_eq_some_iff.mpr h).symm.trans (stripName?_eq_some_iff.mpr h')
      exact congrArg Token.name (Prod.mk.inj (Option.some.inj hname)).1

theorem Token.Starts.isSuffix (h : t.Starts text rest) : rest <:+ text := by
  cases t with
  | mark m => exact ⟨_, h.symm⟩
  | name n => exact ⟨_, h.2.1.symm⟩

theorem Token.Starts.length_lt (h : t.Starts text rest) : rest.length < text.length := by
  cases t with
  | mark m => exact Mark.strip?_length_lt (strip?_eq_some_iff.mpr h)
  | name n => exact stripName?_length_lt (stripName?_eq_some_iff.mpr h)

/-! ## Cuts -/

theorem cutsTo_nil_iff : CutsTo text [] rest ↔ Gap text rest := by
  constructor
  · rintro ⟨h⟩
    exact h
  · exact .done

/-- The first token starts where the blanks end. -/
theorem cutsTo_cons_iff : CutsTo text (t :: ts) rest ↔
    ∃ mid, t.Starts (skipBlanks false text) mid ∧ CutsTo mid ts rest := by
  constructor
  · rintro (_ | ⟨hgap, hstarts, hrest⟩)
    rw [skipBlanks_eq_iff.mpr ⟨hgap, isSolid_of_starts hstarts⟩]
    exact ⟨_, hstarts, hrest⟩
  · rintro ⟨mid, hstarts, hrest⟩
    exact .token (gap_skipBlanks_false text) hstarts hrest

/-- **A text is cut as a whole** when nothing is left of it. -/
theorem cutsTo_nil_right_iff : CutsTo text ts [] ↔ Cuts text ts := by
  constructor
  · intro h
    generalize hrest : ([] : List Char) = rest at h
    induction h with
    | done hgap => exact .done (hrest ▸ hgap)
    | token hgap hstarts _ ih => exact .token hgap hstarts (ih hrest)
  · intro h
    induction h with
    | done hgap => exact .done hgap
    | token hgap hstarts _ ih => exact .token hgap hstarts ih

theorem CutsTo.isSuffix (h : CutsTo text ts rest) : rest <:+ text := by
  induction h with
  | done hgap => exact hgap.isSuffix
  | token hgap hstarts _ ih => exact (ih.trans hstarts.isSuffix).trans hgap.isSuffix

theorem CutsTo.of_gap (hgap : Gap text mid) (h : CutsTo mid ts rest) : CutsTo text ts rest := by
  cases h with
  | done hgap' => exact .done (hgap.trans hgap')
  | token hgap' hstarts hrest => exact .token (hgap.trans hgap') hstarts hrest

theorem CutsTo.append (h : CutsTo text ts mid) (h' : CutsTo mid us rest) :
    CutsTo text (ts ++ us) rest := by
  induction h with
  | done hgap => exact h'.of_gap hgap
  | token hgap hstarts _ ih => exact .token hgap hstarts (ih h')

/-! ## The place behind some tokens -/

/-- The text behind tokens that it starts with, and behind any blanks there. -/
def behind (text : List Char) : List Token → List Char
  | [] => skipBlanks false text
  | t :: ts => behind ((skipBlanks false text).drop t.spelling.toList.length) ts

theorem isSolid_behind (text : List Char) (ts : List Token) : IsSolid (behind text ts) := by
  induction ts generalizing text with
  | nil => exact isSolid_skipBlanks false text
  | cons t ts ih => exact ih _

theorem Token.Starts.eq_append (h : t.Starts text rest) : text = t.spelling.toList ++ rest := by
  cases t with
  | mark m => exact h
  | name n => exact h.2.1

theorem behind_cons (h : t.Starts (skipBlanks false text) rest) :
    behind text (t :: ts) = behind rest ts := by
  rw [behind, h.eq_append, List.drop_left]

/-- **The tokens say where the rest begins**, but for blanks. -/
theorem CutsTo.behind_eq (h : CutsTo text ts rest) : behind text ts = skipBlanks false rest := by
  induction ts generalizing text with
  | nil => exact (cutsTo_nil_iff.mp h).skipBlanks_eq
  | cons t ts ih =>
    obtain ⟨mid, hstarts, hrest⟩ := cutsTo_cons_iff.mp h
    rw [behind_cons hstarts, ih hrest]

theorem CutsTo.behind_eq_self (h : CutsTo text ts rest) (hrest : IsSolid rest) :
    behind text ts = rest := by
  rw [h.behind_eq, skipBlanks_of_isSolid hrest]

theorem CutsTo.skipBlanks_eq (h : CutsTo text ts rest) (h' : CutsTo text ts more) :
    skipBlanks false rest = skipBlanks false more := by
  rw [← h.behind_eq, h'.behind_eq]

/-- Blanks in front can be passed over. -/
theorem CutsTo.skip (h : CutsTo text ts rest) (hrest : IsSolid rest) :
    CutsTo (skipBlanks false text) ts rest := by
  cases ts with
  | nil =>
    obtain rfl := skipBlanks_eq_iff.mpr ⟨cutsTo_nil_iff.mp h, hrest⟩
    exact .done .none
  | cons t ts =>
    obtain ⟨mid, hstarts, hmid⟩ := cutsTo_cons_iff.mp h
    exact .token .none hstarts hmid

/-- **A cut is made in two**, at the place behind the first tokens. -/
theorem CutsTo.split (h : CutsTo text (ts ++ us) rest) (hrest : IsSolid rest) :
    CutsTo text ts (behind text ts) ∧ CutsTo (behind text ts) us rest := by
  induction ts generalizing text with
  | nil => exact ⟨.done (gap_skipBlanks_false text), h.skip hrest⟩
  | cons t ts ih =>
    obtain ⟨mid, hstarts, hmid⟩ := cutsTo_cons_iff.mp h
    obtain ⟨hfirst, hsecond⟩ := ih hmid
    rw [behind_cons hstarts]
    exact ⟨cutsTo_cons_iff.mpr ⟨mid, hstarts, hfirst⟩, hsecond⟩

end Description

end TypeBridge
