import TypeBridge.Proofs.Description.Written
/-!
# TypeBridge — the names in what is read

A name takes in its full run of letters, digits and underscores, and there is
no other way for a word to get into an outline. So the outline that is read from
any text is `Named`, and each of its declared types has a name and stands in
namespaces that have one.

That keeps every separator out of them: no dot, colon, slash or blank is a
character of a name.
-/

namespace TypeBridge

namespace Description

variable {text : List Char} {ts : List Token} {o : Outline} {decl : TypeDecl} {n : String}
variable {path : List String} {after : List Declared} {c : Char}

/-! ## Names -/

theorem ne_empty_of_isName (h : IsName n.toList) : n ≠ "" := by
  rintro rfl
  exact h

/-- Only the characters of names are found in them. -/
theorem notMem_of_isName (h : IsName n.toList) (hc : isNameChar c = false) : c ∉ n.toList := by
  intro hmem
  have hname := isNameChar_of_mem h hmem
  rw [hc] at hname
  cases hname

theorem notMem_of_names {names : List String} (h : ∀ s ∈ names, IsName s.toList)
    (hc : isNameChar c = false) : ∀ s ∈ names, c ∉ s.toList :=
  fun s hs => notMem_of_isName (h s hs) hc

theorem forall_mem_concat {names : List String} (h : ∀ s ∈ names, IsName s.toList)
    (hn : IsName n.toList) : ∀ s ∈ names ++ [n], IsName s.toList :=
  List.forall_mem_append.mpr ⟨h, List.forall_mem_singleton.mpr hn⟩

/-! ## What a text is cut into -/

theorem readable_of_cuts (h : Cuts text ts) : ∀ t ∈ ts, t.Readable := by
  induction h with
  | done => exact nofun
  | @token _ _ _ t _ _ hstarts _ ih =>
    refine List.forall_mem_cons.mpr ⟨?_, ih⟩
    cases t with
    | mark => trivial
    | name => exact hstarts.1

/-- **The outline that is read** has readable names only. -/
theorem named_of_read (h : Reading.read {} text = .ok o) : o.Named :=
  readable_of_cuts (Reading.read_eq_ok_iff.mp h).1

/-! ## Declared types -/

/-- A declared type has a name, and so has every namespace around it. -/
structure Declared.Named (d : Declared) : Prop where
  name : IsName d.decl.name.toList
  namespaces : ∀ s ∈ d.namespaces, IsName s.toList

theorem TypeDecl.isName_of_readable (h : ∀ t ∈ decl.tokens, t.Readable) :
    IsName decl.name.toList := by
  have hmem : Token.name decl.name ∈ decl.tokens := by
    rcases decl with _ | ⟨_, _ | _⟩ | _ <;> simp [TypeDecl.tokens, TypeDecl.name]
  exact h _ hmem

theorem DottedName.isName_of_readable {name : DottedName} (h : ∀ t ∈ name.tokens, t.Readable) :
    ∀ s ∈ name.segments, IsName s.toList := by
  intro s hs
  have hmem : Token.name s ∈ name.tokens := by
    simpa [DottedName.tokens, DottedName.segments] using hs
  exact h _ hmem

/-- The types inside namespaces that are names, in front of named ones. The
induction goes through the outline from its end, so it carries both. -/
theorem Outline.Named.declaredBefore (h : o.Named) (hpath : ∀ s ∈ path, IsName s.toList)
    (hafter : ∀ d ∈ after, d.Named) : ∀ d ∈ o.declaredBefore path after, d.Named := by
  induction o generalizing path after with
  | empty => exact hafter
  | type before decl ih =>
    obtain ⟨hbefore, hdecl⟩ := List.forall_mem_append.mp h
    have hfirst : Declared.Named ⟨path, decl⟩ := ⟨TypeDecl.isName_of_readable hdecl, hpath⟩
    exact ih hbefore hpath (List.forall_mem_cons.mpr ⟨hfirst, hafter⟩)
  | block before name inner ih ih' =>
    have htokens : (∀ t ∈ before.tokens, t.Readable) ∧ (∀ t ∈ name.tokens, t.Readable) ∧
        ∀ t ∈ inner.tokens, t.Readable := by
      refine ⟨fun t ht => h t ?_, fun t ht => h t ?_, fun t ht => h t ?_⟩ <;>
        simp [Outline.tokens, ht]
    obtain ⟨hbefore, hname, hinner⟩ := htokens
    have hwithin : ∀ s ∈ path ++ name.segments, IsName s.toList :=
      List.forall_mem_append.mpr ⟨hpath, DottedName.isName_of_readable hname⟩
    exact ih hbefore hpath (ih' hinner hwithin hafter)

/-- **Every declared type is named** in an outline that is. -/
theorem Outline.Named.declared (h : o.Named) : ∀ d ∈ o.declared, d.Named :=
  h.declaredBefore nofun nofun

end Description

end TypeBridge
