import TypeBridge.Catalogue
import TypeBridge.Proofs.Resolution.Link
import TypeBridge.Proofs.Classification.Struct
/-!
# TypeBridge — where an outline stands in the table

An outline is written down as its types, and behind them, field after field,
the mention and the pointers of each field's type. So the types of two fields
stand at different places, and each is a chain from its last pointer down to
its mention: what linking asks for.
-/

namespace TypeBridge

open Managed Description

namespace Managed.Universe

variable {u : Universe} {facts more : List Fact} {fact : Fact} {next lo mid hi : ℕ}
variable {fields fields' : List Field}

/-- Facts stand side by side in a table, from a place on. -/
def HoldsFrom (u : Universe) (next : ℕ) (facts : List Fact) : Prop :=
  ∀ i, ∀ h : i < facts.length, next + i < u.size ∧ u.fact (next + i) = facts[i]

theorem HoldsFrom.append_left (h : u.HoldsFrom next (facts ++ more)) : u.HoldsFrom next facts := by
  intro i hi
  have := h i (by simp; omega)
  rwa [List.getElem_append_left hi] at this

theorem HoldsFrom.append_right (h : u.HoldsFrom next (facts ++ more)) :
    u.HoldsFrom (next + facts.length) more := by
  intro i hi
  have := h (facts.length + i) (by simp; omega)
  rw [List.getElem_append_right (by omega), ← Nat.add_assoc] at this
  simpa using this

theorem HoldsFrom.head (h : u.HoldsFrom next (fact :: facts)) :
    next < u.size ∧ u.fact next = fact :=
  h 0 (by simp)

/-- Fields that are still to be linked, with their types between two places. -/
structure PendingWithin (u : Universe) (lo hi : ℕ) (fields : List Field) : Prop where
  pending : u.Pending fields
  within : ∀ field ∈ fields, ∀ p : ℕ, u.Passes field.type p → lo ≤ p ∧ p < hi

theorem PendingWithin.append (h : u.PendingWithin lo mid fields)
    (h' : u.PendingWithin mid hi fields') (hlo : lo ≤ mid) (hhi : mid ≤ hi) :
    u.PendingWithin lo hi (fields ++ fields') where
  pending := by
    refine ⟨fun field hfield => ?_, List.pairwise_append.mpr ⟨h.pending.apart, h'.pending.apart, ?_⟩⟩
    · rcases List.mem_append.mp hfield with hfield | hfield
      · exact h.pending.mentions field hfield
      · exact h'.pending.mentions field hfield
    · intro f hf g hg p hp hp'
      have := h.within f hf p hp
      have := h'.within g hg p hp'
      omega
  within field hfield p hp := by
    rcases List.mem_append.mp hfield with hfield | hfield
    · have := h.within field hfield p hp
      omega
    · have := h'.within field hfield p hp
      omega

end Managed.Universe

namespace Description

variable {u : Universe} {next : ℕ} {ref : TypeRef} {enumBase : Option String}

/-- A written field is in the table: under its name and its flag, and with a
pointer for every star in front of the mention, called like the type that is
mentioned. -/
structure FieldDecl.IsAt (u : Universe) (decl : FieldDecl) (field : Field) : Prop where
  name_eq : field.name = decl.name
  isStatic_eq : field.isStatic = decl.isStatic
  type : ∃ pointers mention, u.Leads field.type pointers mention ∧
    pointers.length = decl.type.stars ∧
    u.fact mention = .mention decl.type.target.path decl.type.target.name
  pointer_eq : ∀ p, u.Passes field.type p → (u.fact p).kind = .pointer →
    ∃ next, u.fact p = .pointer decl.type.target.name next

/-- A pointer is written down in front of what it points at. -/
theorem pointer_of_facts (h : u.HoldsFrom next (ref.facts next)) {i : ℕ} (hi : i < ref.stars) :
    u.fact (next + (i + 1)) = .pointer ref.target.name (next + i) := by
  rw [(h (i + 1) (by simp [TypeRef.facts]; omega)).2]
  simp [TypeRef.facts]

/-- **A type that is written down is a chain** from its last pointer to its
mention. -/
theorem leads_facts (h : u.HoldsFrom next (ref.facts next)) {stars : ℕ} (hstars : stars ≤ ref.stars) :
    ∃ pointers, u.Leads (next + stars) pointers next ∧ pointers.length = stars ∧
      ∀ p : ℕ, p ∈ pointers → next < p ∧ p ≤ next + stars := by
  induction stars with
  | zero => exact ⟨[], .here next, rfl, by simp⟩
  | succ stars ih =>
    obtain ⟨pointers, hleads, hlength, hwithin⟩ := ih (by omega)
    have htarget : (u.fact (next + (stars + 1))).target? = some (next + stars) := by
      rw [pointer_of_facts h hstars]
      rfl
    refine ⟨_, .pointer htarget hleads, by simp [hlength], fun p hp => ?_⟩
    rcases List.mem_cons.mp hp with rfl | hp
    · omega
    · have := hwithin p hp
      omega

/-- **A field that is written down** is still to be linked. -/
theorem isAt_of_facts {decl : FieldDecl} (h : u.HoldsFrom next (decl.type.facts next))
    {field : Field} (hfield : field = ⟨decl.name, next + decl.type.stars, decl.isStatic⟩) :
    decl.IsAt u field ∧ u.PendingWithin next (next + decl.type.stars + 1) [field] := by
  subst hfield
  obtain ⟨hsize, hmention⟩ := Universe.HoldsFrom.head h
  obtain ⟨pointers, hleads, hlength, hwithin⟩ := leads_facts h (Nat.le_refl _)
  have hkind : (u.fact next).kind = .mention := by rw [hmention]; rfl
  have hpasses : ∀ p : ℕ, u.Passes (next + decl.type.stars) p →
      p = next ∨ next < p ∧ p ≤ next + decl.type.stars := fun p hp =>
    ((hleads.passes_iff (Universe.target?_of_mention hkind)).mp hp).symm.imp_right (hwithin p)
  refine ⟨⟨rfl, rfl, ⟨pointers, next, hleads, hlength, hmention⟩, fun p hp hpointer => ?_⟩,
    ⟨?_, ?_⟩, ?_⟩
  · rcases hpasses p hp with rfl | ⟨hlt, hle⟩
    · rw [hkind] at hpointer
      cases hpointer
    · obtain ⟨i, rfl⟩ := Nat.exists_eq_add_of_lt hlt
      exact ⟨_, pointer_of_facts h (by omega)⟩
  · simpa using ⟨pointers, next, hleads, hkind, hsize⟩
  · exact List.pairwise_singleton _ _
  · intro field hfield p hp
    obtain rfl := List.mem_singleton.mp hfield
    rcases hpasses p hp with rfl | ⟨hlt, hle⟩ <;> omega

theorem length_facts (ref : TypeRef) (next : FactId) :
    (ref.facts next).length = ref.stars + 1 := by
  simp [TypeRef.facts]

/-- **The fields of a type** are written down one after the other. -/
theorem isAt_of_fieldFacts (decls : List FieldDecl) {next : ℕ}
    (h : u.HoldsFrom next (fieldFacts next decls).2) :
    List.Forall₂ (FieldDecl.IsAt u) decls (fieldFacts next decls).1 ∧
      u.PendingWithin next (next + (fieldFacts next decls).2.length)
        (fieldFacts next decls).1 := by
  induction decls generalizing next with
  | nil => exact ⟨.nil, ⟨⟨nofun, .nil⟩, nofun⟩⟩
  | cons decl decls ih =>
    rw [fieldFacts] at h ⊢
    have hrest := h.append_right
    rw [length_facts, ← Nat.add_assoc] at hrest
    obtain ⟨hfields, hpending⟩ := ih hrest
    obtain ⟨hfield, hpending'⟩ := isAt_of_facts h.append_left rfl
    refine ⟨.cons hfield hfields, ?_⟩
    have := hpending'.append hpending (by omega) (by omega)
    simpa [length_facts, Nat.add_assoc] using this

/-- A declared type is in the table: as its fact, with fields that are. -/
def Declared.IsFact (u : Universe) (enumBase : Option String) (d : Declared) (fact : Fact) : Prop :=
  fact = d.fact enumBase fact.fields ∧ List.Forall₂ (FieldDecl.IsAt u) d.decl.fields fact.fields

theorem fields_fact (d : Declared) (fields : List Field) :
    (d.fact enumBase fields).fields = fields := by
  unfold Declared.fact
  split <;> rfl

/-- **The types of an outline** are written down one after the other. -/
theorem isFact_of_declaredFacts (ds : List Declared) {next : ℕ}
    (h : u.HoldsFrom next (declaredFacts enumBase next ds).2) :
    List.Forall₂ (Declared.IsFact u enumBase) ds (declaredFacts enumBase next ds).1 ∧
      u.PendingWithin next (next + (declaredFacts enumBase next ds).2.length)
        ((declaredFacts enumBase next ds).1.flatMap (·.fields)) := by
  induction ds generalizing next with
  | nil => exact ⟨.nil, ⟨⟨nofun, .nil⟩, nofun⟩⟩
  | cons d ds ih =>
    rw [declaredFacts] at h ⊢
    obtain ⟨hfields, hpending⟩ := isAt_of_fieldFacts d.decl.fields h.append_left
    obtain ⟨hds, hpending'⟩ := ih h.append_right
    refine ⟨.cons ⟨?_, ?_⟩ hds, ?_⟩
    · rw [fields_fact]
    · rwa [fields_fact]
    · rw [List.flatMap_cons, fields_fact, List.length_append, ← Nat.add_assoc]
      exact hpending.append hpending' (by omega) (by omega)

theorem length_declaredFacts (ds : List Declared) (next : FactId) :
    (declaredFacts enumBase next ds).1.length = ds.length := by
  induction ds generalizing next with
  | nil => rfl
  | cons d ds ih =>
    rw [declaredFacts]
    simp [ih]

/-- What is written down for a field's type: a mention or a pointer. -/
def IsTypePart (fact : Fact) : Prop :=
  (∃ path name, fact = .mention path name) ∨ ∃ name next, fact = .pointer name next

theorem isTypePart_of_mem_facts {fact : Fact} (h : fact ∈ ref.facts next) : IsTypePart fact := by
  rcases List.mem_cons.mp h with rfl | h
  · exact .inl ⟨_, _, rfl⟩
  · obtain ⟨i, -, rfl⟩ := List.mem_map.mp h
    exact .inr ⟨_, _, rfl⟩

theorem isTypePart_of_mem_fieldFacts {fact : Fact} {decls : List FieldDecl} {next : FactId}
    (h : fact ∈ (fieldFacts next decls).2) : IsTypePart fact := by
  induction decls generalizing next with
  | nil => cases h
  | cons decl decls ih =>
    rw [fieldFacts] at h
    rcases List.mem_append.mp h with h | h
    · exact isTypePart_of_mem_facts h
    · exact ih h

theorem isTypePart_of_mem_declaredFacts {fact : Fact} {ds : List Declared} {next : FactId}
    (h : fact ∈ (declaredFacts enumBase next ds).2) : IsTypePart fact := by
  induction ds generalizing next with
  | nil => cases h
  | cons d ds ih =>
    rw [declaredFacts] at h
    rcases List.mem_append.mp h with h | h
    · exact isTypePart_of_mem_fieldFacts h
    · exact ih h

/-- The name that a declared type is found by. -/
def Declared.qualifiedName (d : Declared) : String :=
  ".".intercalate (d.namespaces ++ [d.decl.name])

theorem Declared.kind_fact (d : Declared) (fields : List Field) :
    (d.fact enumBase fields).kind = .named := by
  unfold Declared.fact
  split <;> rfl

theorem Declared.name_fact (d : Declared) (fields : List Field) :
    (d.fact enumBase fields).name = d.decl.name := by
  unfold Declared.fact
  split <;> rfl

theorem Declared.pointee_fact (d : Declared) (fields : List Field) :
    (d.fact enumBase fields).pointee = none := by
  unfold Declared.fact
  split <;> rfl

/-- A declared type is a value type or a reference type, and not both. -/
theorem Declared.isValueType_fact (d : Declared) (fields : List Field) :
    (d.fact enumBase fields).isValueType = !(d.fact enumBase fields).isReferenceType := by
  unfold Declared.fact
  split <;> rfl

theorem Declared.IsFact.kind_eq {d : Declared} {fact : Fact} (h : d.IsFact u enumBase fact) :
    fact.kind = .named := by
  rw [h.1, Declared.kind_fact]

theorem Declared.fact_with_fields (d : Declared) (enumBase : Option String)
    (fields fields' : List Field) :
    { d.fact enumBase fields with fields := fields' } = d.fact enumBase fields' := by
  unfold Declared.fact
  split <;> rfl

theorem Declared.namespaces_fact (d : Declared) (enumBase : Option String) (fields : List Field) :
    (d.fact enumBase fields).namespaces = d.namespaces := by
  unfold Declared.fact
  split <;> rfl

theorem Declared.dottedName_fact (d : Declared) (enumBase : Option String) (fields : List Field) :
    (d.fact enumBase fields).dottedName = d.qualifiedName := by
  unfold Declared.fact
  split <;> rfl

end Description

namespace Catalogue

variable {enumBase : Option String} {o : Outline}

theorem holdsFrom_ofOutline (enumBase : Option String) (o : Outline) :
    (ofOutline enumBase o).HoldsFrom 0
      ((declaredFacts enumBase o.declared.length o.declared).1 ++
        (declaredFacts enumBase o.declared.length o.declared).2) := by
  intro i hi
  have hsize : i < (ofOutline enumBase o).facts.size := by simpa [ofOutline] using hi
  rw [Nat.zero_add, Universe.fact_eq_getD, Array.getElem?_eq_getElem hsize]
  exact ⟨hsize, by simp [ofOutline]⟩

/-- **The types of an outline come first** in its table. -/
theorem facts_ofOutline (enumBase : Option String) (o : Outline) :
    (declaredFacts enumBase o.declared.length o.declared).1 =
      (ofOutline enumBase o).declared.map (ofOutline enumBase o).fact := by
  have hdeclared : (ofOutline enumBase o).declared = List.range o.declared.length := rfl
  refine List.ext_getElem (by simp [length_declaredFacts, hdeclared]) fun i hi hi' => ?_
  have hfact := ((holdsFrom_ofOutline enumBase o).append_left i hi).2
  rw [Nat.zero_add] at hfact
  simp only [hdeclared, List.getElem_map, List.getElem_range]
  exact hfact.symm

/-- **An outline is written down** as facts that are still to be linked. -/
theorem isFact_ofOutline (enumBase : Option String) (o : Outline) :
    List.Forall₂ (fun d id => d.IsFact (ofOutline enumBase o).toUniverse enumBase
      ((ofOutline enumBase o).fact id)) o.declared (ofOutline enumBase o).declared ∧
    (ofOutline enumBase o).Pending
      ((ofOutline enumBase o).fieldsOf (ofOutline enumBase o).declared) := by
  have htypes := (holdsFrom_ofOutline enumBase o).append_right
  rw [Nat.zero_add, length_declaredFacts] at htypes
  obtain ⟨hfacts, hpending⟩ := isFact_of_declaredFacts o.declared htypes
  rw [facts_ofOutline] at hfacts hpending
  refine ⟨List.forall₂_map_right_iff.mp hfacts, ?_⟩
  have := hpending.pending
  rwa [List.flatMap_map] at this

/-- **Behind the declared types** only mentions and pointers are written down. -/
theorem isTypePart_ofOutline {p : FactId} (h : p ∉ (ofOutline enumBase o).declared) :
    IsTypePart ((ofOutline enumBase o).fact p) := by
  have hlength : o.declared.length ≤ p := by
    simpa [ofOutline] using h
  obtain ⟨i, rfl⟩ := Nat.exists_eq_add_of_le hlength
  have htypes := (holdsFrom_ofOutline enumBase o).append_right
  rw [Nat.zero_add, length_declaredFacts] at htypes
  by_cases hi : i < (declaredFacts enumBase o.declared.length o.declared).2.length
  · rw [(htypes i hi).2]
    exact isTypePart_of_mem_declaredFacts (List.getElem_mem hi)
  · have hsize : (ofOutline enumBase o).facts.size ≤ o.declared.length + i := by
      simp only [ofOutline, List.size_toArray, List.length_append, length_declaredFacts]
      omega
    rw [Universe.fact_eq_getD, Array.getElem?_eq_none hsize]
    exact .inl ⟨[], "", rfl⟩

end Catalogue

end TypeBridge
