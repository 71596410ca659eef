import TypeBridge.Proofs.Resolution.Chain
/-!
# TypeBridge — tables with other facts at the same places

A `Revision` changes the facts of a table one by one, and leaves their kinds and
pointees alone. So the chains of pointers run as before, and it does not matter
whether a chain is turned to a new end before the facts are changed or after.

Linking is compared with itself that way: on a table whose fields are filled in
one at a time, and on one whose types are in other namespaces.
-/

namespace TypeBridge

namespace Managed

/-- A type inside further namespaces. -/
def Fact.inside (path : List String) (fact : Fact) : Fact :=
  { fact with namespaces := path ++ fact.namespaces }

@[simp] theorem Fact.namespaces_inside (path : List String) (fact : Fact) :
    (fact.inside path).namespaces = path ++ fact.namespaces := rfl

@[simp] theorem Fact.fields_inside (path : List String) (fact : Fact) :
    (fact.inside path).fields = fact.fields := rfl

/-- A change of the facts of a table that chains of pointers do not notice. -/
structure Revision where
  change : FactId → Fact → Fact
  kind_eq : ∀ p fact, (change p fact).kind = fact.kind
  with_pointee : ∀ p fact pointee,
    change p { fact with pointee } = { change p fact with pointee }

namespace Revision

variable (r : Revision)

theorem pointee_eq (p : FactId) (fact : Fact) : (r.change p fact).pointee = fact.pointee := by
  have h := r.with_pointee p fact fact.pointee
  rw [show ({ fact with pointee := fact.pointee } : Fact) = fact from rfl] at h
  rw [h]

theorem target?_change (p : FactId) (fact : Fact) :
    (r.change p fact).target? = fact.target? := by
  rw [Fact.target?, Fact.target?, r.kind_eq, r.pointee_eq]

/-- Other fields for one type. -/
def fields (owner : FactId) (fields : List Field) : Revision where
  change p fact := if p = owner then { fact with fields } else fact
  kind_eq p fact := by split <;> rfl
  with_pointee p fact pointee := by split <;> rfl

/-- Some types in namespaces inside a path. -/
def moved (path : List String) (ids : List FactId) : Revision where
  change p fact := if p ∈ ids then fact.inside path else fact
  kind_eq p fact := by split <;> rfl
  with_pointee p fact pointee := by split <;> rfl

end Revision

namespace Universe

variable {u : Universe} {r : Revision} {id last p : FactId} {pointers : List FactId} {new : Fact}
variable {change : Fact → Fact}

/-- The table with every fact changed. -/
def revise (u : Universe) (r : Revision) : Universe :=
  ⟨u.facts.mapIdx r.change⟩

@[simp] theorem size_revise : (u.revise r).size = u.size :=
  Array.size_mapIdx

theorem fact_revise (h : p < u.size) : (u.revise r).fact p = r.change p (u.fact p) := by
  have h : p < u.facts.size := h
  rw [fact_eq_getD, fact_eq_getD, revise, Array.getElem?_mapIdx, Array.getElem?_eq_getElem h]
  rfl

theorem fact_revise_of_le (h : u.size ≤ p) : (u.revise r).fact p = u.fact p := by
  have h : u.facts.size ≤ p := h
  rw [fact_eq_getD, fact_eq_getD, revise, Array.getElem?_mapIdx, Array.getElem?_eq_none h]
  rfl

theorem target?_revise (p : FactId) : ((u.revise r).fact p).target? = (u.fact p).target? := by
  rcases Nat.lt_or_ge p u.size with h | h
  · rw [fact_revise h, r.target?_change]
  · rw [fact_revise_of_le h]

theorem leads_revise_iff : (u.revise r).Leads id pointers last ↔ u.Leads id pointers last :=
  ⟨fun h => h.congr fun p _ => (target?_revise p).symm,
    fun h => h.congr fun p _ => target?_revise p⟩

theorem followPointers_revise (steps : ℕ) (id : FactId) :
    (u.revise r).followPointers steps id = u.followPointers steps id := by
  induction steps generalizing id with
  | zero => rfl
  | succ steps ih => rw [followPointers, followPointers, target?_revise]; simp only [ih]

@[simp] theorem pointerChain_revise (id : FactId) :
    (u.revise r).pointerChain id = u.pointerChain id := by
  rw [pointerChain, pointerChain, size_revise, followPointers_revise]

/-! ## Changes of the table -/

theorem revise_push : (u.push new).revise r = (u.revise r).push (r.change u.size new) := by
  rw [revise, push, Array.mapIdx_push]
  rfl

/-- A change at one place may as well come after. -/
theorem revise_modify (h : ∀ fact, r.change p (change fact) = change (r.change p fact)) :
    (u.modify p change).revise r = (u.revise r).modify p change := by
  refine eq_of_fact_eq (by simp) fun q hq => ?_
  rw [fact_revise (by simpa using hq)]
  have hsize : q < u.size := by simpa using hq
  by_cases hp : q = p
  · subst hp
    have hsize' : q < (u.revise r).size := by simpa using hsize
    rw [fact_modify_self hsize, fact_modify_self hsize', fact_revise hsize, h]
  · rw [fact_modify_of_ne hp, fact_modify_of_ne hp, fact_revise hsize]

/-- And so may a new end of a chain. -/
theorem revise_repoint (u : Universe) (r : Revision) (pointers : List FactId) (last : FactId) :
    (u.repoint pointers last).revise r = (u.revise r).repoint pointers last := by
  induction pointers with
  | nil => rfl
  | cons id pointers ih =>
    rw [repoint, repoint, revise_modify fun fact => r.with_pointee id fact _, ih]

end Universe

end Managed

end TypeBridge
