import TypeBridge.Proofs.Description.Preference
/-!
# TypeBridge — outlines as text

An outline is written with each token on a line of its own. A line break ends
every name and is no part of a token, so the text is cut into the tokens it was
written from, and it is read to the preferred outline (`read_written`).
-/

namespace TypeBridge

namespace Description

/-- The outline as text, one token a line. -/
def Outline.written (o : Outline) : String :=
  "\n".intercalate (o.tokens.map Token.spelling)

/-- A token that can be read: a mark, or a name that is one. -/
def Token.Readable : Token → Prop
  | mark _ => True
  | name n => IsName n.toList

instance : DecidablePred Token.Readable
  | .mark _ => inferInstanceAs (Decidable True)
  | .name n => inferInstanceAs (Decidable (IsName n.toList))

/-- Every name in an outline is one that can be read. -/
def Outline.Named (o : Outline) : Prop :=
  ∀ t ∈ o.tokens, t.Readable

instance (o : Outline) : Decidable o.Named :=
  inferInstanceAs (Decidable (∀ t ∈ o.tokens, t.Readable))

variable {text : List Char} {ts : List Token} {t : Token} {c : Char} {o : Outline}

theorem Cuts.blank (hc : isBlank c = true) (h : Cuts text ts) : Cuts (c :: text) ts := by
  cases h with
  | done hgap => exact .done (.blank hc hgap)
  | token hgap hstarts hrest => exact .token (.blank hc hgap) hstarts hrest

/-- A token takes what it is spelled with, in front of whatever ends a name. -/
theorem starts_spelling {rest : List Char} (ht : t.Readable) (hrest : EndsName rest) :
    t.Starts (t.spelling.toList ++ rest) rest := by
  cases t with
  | mark => rfl
  | name n => exact ⟨ht, rfl, hrest⟩

/-- **Lines are cut** into the tokens on them. -/
theorem cuts_lines (hts : ∀ t ∈ ts, t.Readable) :
    Cuts ("\n".intercalate (ts.map Token.spelling)).toList ts := by
  induction ts with
  | nil => exact .done .none
  | cons t ts ih =>
    obtain ⟨ht, hts⟩ := List.forall_mem_cons.mp hts
    have ih := ih hts
    cases ts with
    | nil =>
      have hstarts : t.Starts (t.spelling.toList ++ []) [] :=
        starts_spelling ht (by simp [EndsName])
      exact .token .none (by simpa using hstarts) (.done .none)
    | cons next ts =>
      rw [List.map_cons, List.map_cons, String.intercalate_cons_cons, ← List.map_cons,
        String.toList_append, String.toList_append, List.append_assoc]
      have hbreak : EndsName ("\n".toList ++
          ("\n".intercalate ((next :: ts).map Token.spelling)).toList) := by
        intro c hc
        obtain rfl := Option.mem_some_iff.mp hc
        decide
      exact .token .none (starts_spelling ht hbreak) (.blank (by decide) ih)

/-- **An outline is read back** as the preferred one. -/
theorem read_written (h : o.Named) : Reading.read {} o.written.toList = .ok o.preferred :=
  read_of_cuts_tokens (cuts_lines h)

end Description

end TypeBridge
