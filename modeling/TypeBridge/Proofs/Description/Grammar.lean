import TypeBridge.Description.Outline
import Mathlib.Data.List.Basic
/-!
# TypeBridge — the grammar of descriptions

`Derives` is the grammar as it is written down, rule by rule, over kinds of
tokens. Where a rule repeats another one, the pieces are a list that is put
together.

An outline is a derivation with the names filled in. So the token sequences
that the grammar derives are those that some outline is written as
(`derives_description_iff`), and which names they are makes no difference.
-/

namespace TypeBridge

namespace Description

/-- The rules of the grammar. -/
inductive Rule
  | description
  | item
  | block
  | structDecl
  | classDecl
  | enumDecl
  | field
  | typeRef
  | dottedName
deriving DecidableEq

/-- The terminals that a rule derives. -/
inductive Derives : Rule → List Terminal → Prop
  /-- Any number of items. -/
  | description {items : List (List Terminal)} :
      (∀ item ∈ items, Derives .item item) → Derives .description items.flatten
  | ofBlock {ts : List Terminal} : Derives .block ts → Derives .item ts
  | ofStruct {ts : List Terminal} : Derives .structDecl ts → Derives .item ts
  | ofClass {ts : List Terminal} : Derives .classDecl ts → Derives .item ts
  | ofEnum {ts : List Terminal} : Derives .enumDecl ts → Derives .item ts
  /-- The word, a dotted name, and any number of items between braces. -/
  | block {name : List Terminal} {items : List (List Terminal)} :
      Derives .dottedName name → (∀ item ∈ items, Derives .item item) →
      Derives .block ([.mark .namespaceWord] ++ name ++ [.mark .leftBrace] ++ items.flatten ++
        [.mark .rightBrace])
  /-- The word, a name, and any number of fields between braces. -/
  | structDecl {fields : List (List Terminal)} : (∀ field ∈ fields, Derives .field field) →
      Derives .structDecl ([.mark .structWord, .name] ++
        ([.mark .leftBrace] ++ fields.flatten ++ [.mark .rightBrace]))
  /-- A class may have no body. -/
  | classDecl : Derives .classDecl [.mark .classWord, .name]
  | classBody {fields : List (List Terminal)} : (∀ field ∈ fields, Derives .field field) →
      Derives .classDecl ([.mark .classWord, .name] ++
        ([.mark .leftBrace] ++ fields.flatten ++ [.mark .rightBrace]))
  | enumDecl : Derives .enumDecl [.mark .enumWord, .name]
  /-- A field may be marked as static. -/
  | field {type : List Terminal} : Derives .typeRef type →
      Derives .field ([.name, .mark .colon] ++ type)
  | staticField {type : List Terminal} : Derives .typeRef type →
      Derives .field ([.mark .staticWord] ++ [.name, .mark .colon] ++ type)
  /-- A dotted name and any number of stars. -/
  | typeRef {name : List Terminal} (stars : ℕ) : Derives .dottedName name →
      Derives .typeRef (name ++ List.replicate stars (.mark .star))
  /-- A name, and any number of dots with a name after each. -/
  | dottedName (more : ℕ) :
      Derives .dottedName ([.name] ++ (List.replicate more [.mark .dot, .name]).flatten)

variable {ts : List Token}

/-! ## What is written is derived -/

/-- A sequence of items goes on with one more. -/
theorem Derives.concat {items item : List Terminal} (h : Derives .description items)
    (hitem : Derives .item item) : Derives .description (items ++ item) := by
  cases h with
  | @description pieces hpieces =>
    have hall : ∀ piece ∈ pieces ++ [item], Derives .item piece := fun piece hpiece => by
      rcases List.mem_append.mp hpiece with hpiece | hpiece
      · exact hpieces piece hpiece
      · obtain rfl := List.mem_singleton.mp hpiece
        exact hitem
    simpa using Derives.description hall

theorem DottedName.derives (n : DottedName) :
    Derives .dottedName (n.tokens.map Token.terminal) := by
  have hpath : ∀ path : List String, [Terminal.name] ++
      (List.replicate path.length [.mark .dot, .name]).flatten =
      (path.flatMap (fun segment => [Token.name segment, .mark .dot])).map Token.terminal ++
        [.name] := by
    intro path
    induction path with
    | nil => rfl
    | cons segment path ih =>
      rw [List.flatMap_cons, List.map_append, List.append_assoc, ← ih]
      simp [List.replicate_succ, Token.terminal]
  have h := Derives.dottedName n.path.length
  rw [hpath] at h
  simpa [DottedName.tokens, Token.terminal] using h

theorem TypeRef.derives (ref : TypeRef) : Derives .typeRef (ref.tokens.map Token.terminal) := by
  simpa [TypeRef.tokens, Token.terminal] using Derives.typeRef ref.stars ref.target.derives

theorem FieldDecl.derives (field : FieldDecl) :
    Derives .field (field.tokens.map Token.terminal) := by
  cases hstatic : field.isStatic with
  | false => simpa [FieldDecl.tokens, hstatic, Token.terminal] using
      Derives.field field.type.derives
  | true => simpa [FieldDecl.tokens, hstatic, Token.terminal] using
      Derives.staticField field.type.derives

/-- Fields in a row are written one after the other. -/
theorem terminals_of_fields (fields : List FieldDecl) :
    (fields.flatMap FieldDecl.tokens).map Token.terminal =
      (fields.map fun field => field.tokens.map Token.terminal).flatten := by
  rw [List.map_flatMap, List.flatMap_def]

theorem TypeDecl.derives (decl : TypeDecl) : Derives .item (decl.tokens.map Token.terminal) := by
  have hfields : ∀ fields : List FieldDecl, ∀ field ∈
      fields.map fun field => field.tokens.map Token.terminal, Derives .field field := by
    intro fields field hfield
    obtain ⟨f, -, rfl⟩ := List.mem_map.mp hfield
    exact f.derives
  cases decl with
  | valueType name fields =>
    simpa [TypeDecl.tokens, TypeDecl.bodyTokens, Token.terminal, terminals_of_fields] using
      (Derives.structDecl (hfields fields)).ofStruct
  | referenceType name fields =>
    cases fields with
    | none => exact Derives.classDecl.ofClass
    | some fields =>
      simpa [TypeDecl.tokens, TypeDecl.bodyTokens, Token.terminal, terminals_of_fields] using
        (Derives.classBody (hfields fields)).ofClass
  | enumeration name => exact Derives.enumDecl.ofEnum

/-- **An outline is derived** as it is written. -/
theorem Outline.derives (o : Outline) : Derives .description (o.tokens.map Token.terminal) := by
  induction o with
  | empty =>
    have hnone : ∀ item ∈ ([] : List (List Terminal)), Derives .item item := by simp
    exact .description hnone
  | type before decl ih =>
    simpa [Outline.tokens] using ih.concat decl.derives
  | block before path inner ihBefore ihInner =>
    generalize hts : inner.tokens.map Token.terminal = ts at ihInner
    cases ihInner with
    | description hitems =>
      simpa [Outline.tokens, Token.terminal, hts] using
        ihBefore.concat (Derives.block path.derives hitems).ofBlock

/-! ## What is derived can be written -/

/-- Tokens that a part of an outline is written as, for each rule. -/
def Rule.Spells : Rule → List Token → Prop
  | .description, ts => ∃ o : Outline, o.tokens = ts
  | .item, ts | .block, ts => ∃ add : Outline → Outline, ∀ o, (add o).tokens = o.tokens ++ ts
  | .structDecl, ts | .classDecl, ts | .enumDecl, ts => ∃ decl : TypeDecl, decl.tokens = ts
  | .field, ts => ∃ field : FieldDecl, field.tokens = ts
  | .typeRef, ts => ∃ ref : TypeRef, ref.tokens = ts
  | .dottedName, ts => ∃ n : DottedName, n.tokens = ts

/-- Of a mark there is one token. -/
theorem eq_of_map_mark {m : Mark} (h : ts.map Token.terminal = [.mark m]) : ts = [.mark m] := by
  obtain ⟨t, rfl, ht⟩ := List.map_eq_singleton_iff.mp h
  cases t with
  | mark m' => rw [Terminal.mark.inj ht]
  | name => cases ht

theorem exists_of_map_name (h : ts.map Token.terminal = [.name]) : ∃ n, ts = [.name n] := by
  obtain ⟨t, rfl, ht⟩ := List.map_eq_singleton_iff.mp h
  cases t with
  | mark => cases ht
  | name n => exact ⟨n, rfl⟩

/-- Two tokens, of which one is a mark. -/
theorem exists_of_map_pair {a b : Terminal} (h : ts.map Token.terminal = [a, b]) :
    ∃ first second : List Token, ts = first ++ second ∧ first.map Token.terminal = [a] ∧
      second.map Token.terminal = [b] :=
  List.map_eq_append_iff.mp (show ts.map Token.terminal = [a] ++ [b] from h)

/-- Items in a row go on with an outline. -/
theorem exists_tokens_of_items {pieces : List (List Token)}
    (h : ∀ piece ∈ pieces, Rule.item.Spells piece) (o : Outline) :
    ∃ o' : Outline, o'.tokens = o.tokens ++ pieces.flatten := by
  induction pieces generalizing o with
  | nil => exact ⟨o, by simp⟩
  | cons piece pieces ih =>
    obtain ⟨add, hadd⟩ := h piece (by simp)
    obtain ⟨o', ho'⟩ := ih (fun p hp => h p (by simp [hp])) (add o)
    exact ⟨o', by rw [ho', hadd, List.flatten_cons, List.append_assoc]⟩

theorem exists_fields {pieces : List (List Token)} (h : ∀ piece ∈ pieces, Rule.field.Spells piece) :
    ∃ fields : List FieldDecl, fields.flatMap FieldDecl.tokens = pieces.flatten := by
  induction pieces with
  | nil => exact ⟨[], rfl⟩
  | cons piece pieces ih =>
    obtain ⟨field, hfield⟩ := h piece (by simp)
    obtain ⟨fields, hfields⟩ := ih fun p hp => h p (by simp [hp])
    exact ⟨field :: fields, by rw [List.flatMap_cons, hfield, hfields, List.flatten_cons]⟩

/-- Pieces that are derived are spelled, where each derived piece is. -/
theorem spells_of_pieces {rule : Rule} {pieces : List (List Terminal)}
    (h : ∀ piece ∈ pieces, ∀ ts : List Token, ts.map Token.terminal = piece → rule.Spells ts)
    (hts : ts.map Token.terminal = pieces.flatten) :
    ∃ spelled : List (List Token), ts = spelled.flatten ∧
      ∀ piece ∈ spelled, rule.Spells piece := by
  induction pieces generalizing ts with
  | nil => exact ⟨[], by simpa using hts, by simp⟩
  | cons piece pieces ih =>
    obtain ⟨first, rest, rfl, hfirst, hrest⟩ := List.map_eq_append_iff.mp hts
    obtain ⟨spelled, rfl, hspelled⟩ := ih (fun p hp => h p (by simp [hp])) hrest
    refine ⟨first :: spelled, rfl, fun p hp => ?_⟩
    rcases List.mem_cons.mp hp with rfl | hp
    · exact h piece (by simp) p hfirst
    · exact hspelled p hp

theorem exists_dottedName (more : ℕ) (n : DottedName) {ts : List Token}
    (hts : ts.map Token.terminal = (List.replicate more [.mark .dot, .name]).flatten) :
    ∃ n' : DottedName, n'.tokens = n.tokens ++ ts := by
  induction more generalizing n ts with
  | zero => exact ⟨n, by simpa using hts⟩
  | succ more ih =>
    rw [List.replicate_succ, List.flatten_cons] at hts
    obtain ⟨dotted, rest, rfl, hdotted, hrest⟩ := List.map_eq_append_iff.mp hts
    obtain ⟨dot, name, rfl, hdot, hname⟩ := exists_of_map_pair hdotted
    obtain rfl := eq_of_map_mark hdot
    obtain ⟨segment, rfl⟩ := exists_of_map_name hname
    obtain ⟨n', hn'⟩ := ih (n.extend segment) hrest
    exact ⟨n', by simpa [DottedName.extend, DottedName.tokens] using hn'⟩

/-- A body is spelled by fields. -/
theorem exists_body {fields : List (List Terminal)}
    (h : ∀ field ∈ fields, ∀ ts : List Token, ts.map Token.terminal = field → Rule.field.Spells ts)
    (hts : ts.map Token.terminal = [.mark .leftBrace] ++ fields.flatten ++ [.mark .rightBrace]) :
    ∃ decls : List FieldDecl, TypeDecl.bodyTokens decls = ts := by
  obtain ⟨front, close, rfl, hfront, hclose⟩ := List.map_eq_append_iff.mp hts
  obtain ⟨brace, inside, rfl, hbrace, hinside⟩ := List.map_eq_append_iff.mp hfront
  obtain ⟨spelled, rfl, hspelled⟩ := spells_of_pieces h hinside
  obtain ⟨decls, hdecls⟩ := exists_fields hspelled
  obtain rfl := eq_of_map_mark hbrace
  obtain rfl := eq_of_map_mark hclose
  exact ⟨decls, by rw [TypeDecl.bodyTokens, hdecls]⟩

/-- The word of a declaration and its name. -/
theorem exists_heading {m : Mark} {rest : List Terminal}
    (hts : ts.map Token.terminal = [.mark m, .name] ++ rest) :
    ∃ name more, ts = [.mark m, .name name] ++ more ∧ more.map Token.terminal = rest := by
  obtain ⟨heading, more, rfl, hheading, hmore⟩ := List.map_eq_append_iff.mp hts
  obtain ⟨word, names, rfl, hword, hnames⟩ := exists_of_map_pair hheading
  obtain rfl := eq_of_map_mark hword
  obtain ⟨name, rfl⟩ := exists_of_map_name hnames
  exact ⟨name, more, rfl, hmore⟩

/-- The name of a field, the colon and the type. -/
theorem exists_fieldRest {type : List Terminal}
    (h : ∀ ts : List Token, ts.map Token.terminal = type → Rule.typeRef.Spells ts)
    (hts : ts.map Token.terminal = [.name, .mark .colon] ++ type) :
    ∃ name ref, ts = [.name name, .mark .colon] ++ TypeRef.tokens ref := by
  obtain ⟨heading, more, rfl, hheading, hmore⟩ := List.map_eq_append_iff.mp hts
  obtain ⟨names, colon, rfl, hname, hcolon⟩ := exists_of_map_pair hheading
  obtain ⟨name, rfl⟩ := exists_of_map_name hname
  obtain rfl := eq_of_map_mark hcolon
  obtain ⟨ref, rfl⟩ := h more hmore
  exact ⟨name, ref, rfl⟩

/-- **What a rule derives is spelled** by a part of an outline, whatever the
names are. -/
theorem Derives.spells {rule : Rule} {terminals : List Terminal} (h : Derives rule terminals) :
    ∀ ts : List Token, ts.map Token.terminal = terminals → rule.Spells ts := by
  induction h with
  | description _ ih =>
    intro ts hts
    obtain ⟨spelled, rfl, hspelled⟩ := spells_of_pieces ih hts
    obtain ⟨o, ho⟩ := exists_tokens_of_items hspelled .empty
    exact ⟨o, ho⟩
  | ofBlock _ ih => exact ih
  | ofStruct _ ih | ofClass _ ih | ofEnum _ ih =>
    intro ts hts
    obtain ⟨decl, rfl⟩ := ih ts hts
    exact ⟨fun o => o.type decl, fun _ => rfl⟩
  | @block name items _ _ ihName ihItems =>
    intro ts hts
    obtain ⟨front, close, rfl, hfront, hclose⟩ := List.map_eq_append_iff.mp hts
    obtain ⟨front, inside, rfl, hfront, hinside⟩ := List.map_eq_append_iff.mp hfront
    obtain ⟨front, brace, rfl, hfront, hbrace⟩ := List.map_eq_append_iff.mp hfront
    obtain ⟨word, path, rfl, hword, hpath⟩ := List.map_eq_append_iff.mp hfront
    obtain rfl := eq_of_map_mark hword
    obtain rfl := eq_of_map_mark hbrace
    obtain rfl := eq_of_map_mark hclose
    obtain ⟨n, rfl⟩ := ihName path hpath
    obtain ⟨spelled, rfl, hspelled⟩ := spells_of_pieces ihItems hinside
    obtain ⟨inner, hinner⟩ := exists_tokens_of_items hspelled .empty
    refine ⟨fun o => o.block n inner, fun o => ?_⟩
    simp [Outline.tokens, hinner]
  | structDecl _ ih =>
    intro ts hts
    obtain ⟨name, body, rfl, hbody⟩ := exists_heading hts
    obtain ⟨fields, rfl⟩ := exists_body ih hbody
    exact ⟨.valueType name fields, rfl⟩
  | classDecl =>
    intro ts hts
    have hts : ts.map Token.terminal = [.mark .classWord, .name] ++ [] := hts
    obtain ⟨name, more, rfl, hmore⟩ := exists_heading hts
    obtain rfl := List.map_eq_nil_iff.mp hmore
    exact ⟨.referenceType name none, rfl⟩
  | classBody _ ih =>
    intro ts hts
    obtain ⟨name, body, rfl, hbody⟩ := exists_heading hts
    obtain ⟨fields, rfl⟩ := exists_body ih hbody
    exact ⟨.referenceType name (some fields), rfl⟩
  | enumDecl =>
    intro ts hts
    have hts : ts.map Token.terminal = [.mark .enumWord, .name] ++ [] := hts
    obtain ⟨name, more, rfl, hmore⟩ := exists_heading hts
    obtain rfl := List.map_eq_nil_iff.mp hmore
    exact ⟨.enumeration name, rfl⟩
  | field _ ih =>
    intro ts hts
    obtain ⟨name, ref, rfl⟩ := exists_fieldRest ih hts
    exact ⟨⟨false, name, ref⟩, rfl⟩
  | staticField _ ih =>
    intro ts hts
    rw [List.append_assoc] at hts
    obtain ⟨word, rest, rfl, hword, hrest⟩ := List.map_eq_append_iff.mp hts
    obtain rfl := eq_of_map_mark hword
    obtain ⟨name, ref, rfl⟩ := exists_fieldRest ih hrest
    exact ⟨⟨true, name, ref⟩, rfl⟩
  | typeRef stars _ ih =>
    intro ts hts
    obtain ⟨name, marks, rfl, hname, hmarks⟩ := List.map_eq_append_iff.mp hts
    obtain ⟨n, rfl⟩ := ih name hname
    refine ⟨⟨n, stars⟩, ?_⟩
    obtain ⟨hlen, hall⟩ := List.eq_replicate_iff.mp hmarks
    have hstar : ∀ t ∈ marks, t = .mark .star := fun t ht =>
      List.singleton_inj.mp (eq_of_map_mark (congrArg (List.cons · [])
        (hall _ (List.mem_map_of_mem ht))))
    rw [TypeRef.tokens, List.eq_replicate_iff.mpr ⟨by simpa using hlen, hstar⟩]
  | dottedName more =>
    intro ts hts
    obtain ⟨first, rest, rfl, hfirst, hrest⟩ := List.map_eq_append_iff.mp hts
    obtain ⟨name, rfl⟩ := exists_of_map_name hfirst
    obtain ⟨n, hn⟩ := exists_dottedName more { name } hrest
    exact ⟨n, hn⟩

/-- **The grammar derives what outlines are written as**, and nothing else. -/
theorem derives_description_iff :
    Derives .description (ts.map Token.terminal) ↔ ∃ o : Outline, o.tokens = ts := by
  constructor
  · intro h
    exact h.spells ts rfl
  · rintro ⟨o, rfl⟩
    exact o.derives

end Description

end TypeBridge
