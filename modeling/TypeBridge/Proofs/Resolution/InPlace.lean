import TypeBridge.Proofs.Resolution.Field
import TypeBridge.Proofs.Resolution.Revision
/-!
# TypeBridge — linking in one table

`Universe.link` gives a linked table or an error. Here the linking goes on in
one table instead, which an error leaves as far as it has come: each field is
put back as soon as it is linked. It comes to the same
(`result_linkInPlace`), since no field that is put back changes what another
field's type means.
-/

namespace TypeBridge

namespace Managed

namespace Universe

/-- A table as linking leaves it, and whether it is linked. -/
structure Attempt where
  table : Universe
  outcome : Except LinkError Unit

/-- The table, if it is linked. -/
def Attempt.result (attempt : Attempt) : Except LinkError Universe :=
  attempt.outcome.map fun _ => attempt.table

/-- Links some fields of a type behind those that are linked, each put in its
place at once. -/
def fieldsInPlace (dir : Directory) (owner : FactId) (linked : List Field) (u : Universe) :
    List Field → Attempt
  | [] => ⟨u, .ok ()⟩
  | field :: rest =>
    match u.resolve dir owner u.size field.type with
    | .error error => ⟨u, .error error⟩
    | .ok (v, type) =>
      let fields := linked ++ { field with type } :: rest
      fieldsInPlace dir owner (linked ++ [{ field with type }]) (v.modify owner ({ · with fields }))
        rest

/-- Links some types, one after the other. -/
def typesInPlace (dir : Directory) (u : Universe) : List FactId → Attempt
  | [] => ⟨u, .ok ()⟩
  | id :: rest =>
    match fieldsInPlace dir id [] u (u.fact id).fields with
    | ⟨v, .ok ()⟩ => typesInPlace dir v rest
    | stopped => stopped

/-- Links declared types, after their names are checked. -/
def linkInPlace (u : Universe) (declared : List FactId) : Attempt :=
  match u.directory declared with
  | .error error => ⟨u, .error error⟩
  | .ok dir => typesInPlace dir u declared

variable {u v : Universe} {dir : Directory} {owner id target : FactId} {news : List Field}
variable {ids : List FactId}

/-! ## A table only grows -/

theorem size_le_of_lookUp (h : u.lookUp dir owner id = .ok (v, target)) : u.size ≤ v.size := by
  rcases lookUp_cases u dir owner id with ⟨s, -, hok⟩ | ⟨_, _, -, -, hok⟩ | ⟨herror, -⟩
  · obtain ⟨rfl, -⟩ := Prod.mk.inj (Except.ok.inj (hok.symm.trans h))
    simp
  · obtain ⟨rfl, -⟩ := Prod.mk.inj (Except.ok.inj (hok.symm.trans h))
    exact Nat.le_refl _
  · rw [herror] at h
    cases h

theorem size_le_of_resolve {steps : ℕ} (h : u.resolve dir owner steps id = .ok (v, target)) :
    u.size ≤ v.size := by
  induction steps generalizing id v target with
  | zero => exact size_le_of_lookUp h
  | succ steps ih =>
    cases htarget : (u.fact id).target? with
    | none =>
      rw [resolve_of_end htarget] at h
      exact size_le_of_lookUp h
    | some next =>
      rw [resolve_of_pointer htarget] at h
      rcases hnext : u.resolve dir owner steps next with error | ⟨w, found⟩ <;> rw [hnext] at h
      · cases h
      · obtain ⟨rfl, -⟩ := Prod.mk.inj (Except.ok.inj h)
        simpa using ih hnext

theorem size_le_of_linkFields {fields : List Field}
    (h : u.linkFields dir owner fields = .ok (v, news)) : u.size ≤ v.size := by
  induction fields generalizing u news with
  | nil =>
    obtain ⟨rfl, -⟩ := Prod.mk.inj (Except.ok.inj h)
    exact Nat.le_refl _
  | cons field rest ih =>
    rw [linkFields] at h
    rcases hresolve : u.resolve dir owner u.size field.type with error | ⟨w, type⟩
    · rw [hresolve] at h
      cases h
    · rcases hrest : w.linkFields dir owner rest with error | ⟨w', more⟩
      · simp [hresolve, hrest, bind, Except.bind] at h
      · obtain ⟨rfl, -⟩ : w' = v ∧ _ := by
          simpa [hresolve, hrest, bind, Except.bind, pure, Except.pure] using h
        exact Nat.le_trans (size_le_of_resolve hresolve) (ih hrest)

/-! ## Fields make no difference -/

section

variable {fields : List Field}

/-- Fields that are put in place take the place of whatever was there. -/
theorem revise_modify_fields (u : Universe) (owner : FactId) (fields fields' : List Field) :
    (u.revise (.fields owner fields)).modify owner ({ · with fields := fields' }) =
      u.revise (.fields owner fields') := by
  refine eq_of_fact_eq (by simp) fun p hp => ?_
  have hsize : p < u.size := by simpa using hp
  rw [fact_revise hsize]
  by_cases howner : p = owner
  · subst howner
    have hsize' : p < (u.revise (.fields p fields)).size := by simpa using hsize
    rw [fact_modify_self hsize', fact_revise hsize]
    simp [Revision.fields]
  · rw [fact_modify_of_ne howner, fact_revise hsize]
    simp [Revision.fields, howner]

theorem revise_fields_self (u : Universe) (owner : FactId) :
    u.revise (.fields owner (u.fact owner).fields) = u := by
  refine eq_of_fact_eq (by simp) fun p hp => ?_
  rw [fact_revise (by simpa using hp)]
  dsimp only [Revision.fields]
  split_ifs with h
  · rw [h]
  · rfl

theorem modify_fields (u : Universe) (owner : FactId) (fields : List Field) :
    u.modify owner ({ · with fields }) = u.revise (.fields owner fields) := by
  rw [← revise_modify_fields u owner (u.fact owner).fields, revise_fields_self]

theorem name_revise_fields (u : Universe) (owner : FactId) (fields : List Field) (p : FactId) :
    ((u.revise (.fields owner fields)).fact p).namespaces = (u.fact p).namespaces ∧
      ((u.revise (.fields owner fields)).fact p).name = (u.fact p).name := by
  rcases Nat.lt_or_ge p u.size with h | h
  · rw [fact_revise h]
    dsimp only [Revision.fields]
    split_ifs <;> exact ⟨rfl, rfl⟩
  · rw [fact_revise_of_le h]
    exact ⟨rfl, rfl⟩

/-- What a mention means has nothing to do with fields. -/
theorem lookUp_revise_fields (howner : owner < u.size) (id : FactId) :
    (u.revise (.fields owner fields)).lookUp dir owner id =
      (u.lookUp dir owner id).map fun (v, found) => (v.revise (.fields owner fields), found) := by
  have hname := name_revise_fields u owner fields
  have hpush : ∀ s, (u.push (.ofSpecial s)).revise (.fields owner fields) =
      (u.revise (.fields owner fields)).push (.ofSpecial s) := fun s => by
    rw [revise_push]
    dsimp only [Revision.fields]
    rw [if_neg (Nat.ne_of_gt howner)]
  have hqualified :
      (u.revise (.fields owner fields)).qualifiedName owner = u.qualifiedName owner := by
    simp only [qualifiedName, pointerChain_revise, Fact.dottedName, hname]
  simp only [lookUp, Fact.candidates, Fact.dottedName, hname, hqualified, size_revise, ← hpush]
  split
  · rfl
  · split <;> rfl

theorem resolve_revise_fields (howner : owner < u.size) (steps : ℕ) (id : FactId) :
    (u.revise (.fields owner fields)).resolve dir owner steps id =
      (u.resolve dir owner steps id).map fun (v, found) =>
        (v.revise (.fields owner fields), found) := by
  induction steps generalizing id with
  | zero => exact lookUp_revise_fields howner id
  | succ steps ih =>
    cases htarget : (u.fact id).target? with
    | none =>
      rw [resolve_of_end htarget, resolve_of_end (by rw [target?_revise, htarget])]
      exact lookUp_revise_fields howner id
    | some next =>
      rw [resolve_of_pointer htarget, resolve_of_pointer (by rw [target?_revise, htarget]), ih]
      rcases u.resolve dir owner steps next with error | ⟨v, found⟩
      · rfl
      · simp only [Except.map]
        rw [revise_modify fun fact => Revision.with_pointee _ id fact _]

end

variable (dir) in
/-- **Fields are linked in their place** to what they are linked to. -/
theorem result_fieldsInPlace (howner : owner < u.size) (linked fields : List Field) :
    (fieldsInPlace dir owner linked (u.revise (.fields owner (linked ++ fields))) fields).result =
      (u.linkFields dir owner fields).map fun (v, news) =>
        v.revise (.fields owner (linked ++ news)) := by
  induction fields generalizing u linked with
  | nil => rfl
  | cons field rest ih =>
    rw [fieldsInPlace, linkFields, size_revise, resolve_revise_fields howner]
    rcases hresolve : u.resolve dir owner u.size field.type with error | ⟨v, type⟩
    · rfl
    · have ih := ih (Nat.lt_of_lt_of_le howner (size_le_of_resolve hresolve))
        (linked ++ [{ field with type }])
      simp only [Except.map, revise_modify_fields]
      rw [List.append_assoc, List.singleton_append] at ih
      rw [ih]
      rcases hrest : v.linkFields dir owner rest with error | ⟨w, news⟩
      · simp [hrest, bind, Except.bind, Except.map]
      · simp [hrest, bind, Except.bind, Except.map, pure, Except.pure]

theorem result_typesInPlace (hids : ∀ id ∈ ids, id < u.size) :
    (typesInPlace dir u ids).result = ids.foldlM (linkType dir) u := by
  induction ids generalizing u with
  | nil => rfl
  | cons id ids ih =>
    have hfields := result_fieldsInPlace dir (hids id (by simp)) [] (u.fact id).fields
    rw [List.nil_append, revise_fields_self] at hfields
    rw [typesInPlace, List.foldlM_cons, linkType]
    rcases hlink : u.linkFields dir id (u.fact id).fields with error | ⟨v, news⟩ <;>
      rcases hattempt : fieldsInPlace dir id [] u (u.fact id).fields with ⟨w, error' | ⟨⟩⟩ <;>
      simp only [hlink, hattempt, Attempt.result, Except.map, reduceCtorEq, Except.error.injEq,
        Except.ok.injEq] at hfields
    · rw [hfields]
      rfl
    · rw [List.nil_append] at hfields
      subst hfields
      have hids' : ∀ other ∈ ids, other < (v.revise (.fields id news)).size := by
        intro other hother
        have hsize := size_le_of_linkFields hlink
        simpa using Nat.lt_of_lt_of_le (hids other (by simp [hother])) hsize
      simp only [bind, Except.bind, pure, Except.pure, modify_fields]
      exact ih hids'

/-- **Linking in one table** comes to what linking does. -/
theorem result_linkInPlace {declared : List FactId}
    (hnamed : ∀ id ∈ declared, (u.fact id).kind = .named) :
    (u.linkInPlace declared).result = u.link declared := by
  rw [linkInPlace, link]
  cases u.directory declared with
  | error error => rfl
  | ok dir => exact result_typesInPlace fun id hid => lt_size_of_kind (by simp [hnamed id hid])

end Universe

end Managed

end TypeBridge
