import TypeBridge.Managed.Resolution
import Mathlib.Data.List.Perm.Subperm
/-!
# TypeBridge — chains of pointers in a changing table

The type of a field is a chain of pointers with something else at its end.
`Leads` follows such a chain place by place, and `Passes` names the places on
the way.

Linking changes the table while it goes. `Keeps` says which places a change
leaves alone, and a chain whose places are left alone stays where it is.
`repoint` is the change that linking makes to one chain: a new end.
-/

namespace TypeBridge

namespace Managed

theorem Fact.target?_eq_some_iff {fact : Fact} {next : FactId} :
    fact.target? = some next ↔ fact.kind = .pointer ∧ fact.pointee = some next := by
  simp [target?]

theorem Fact.target?_eq_none {fact : Fact} (h : fact.kind ≠ .pointer) : fact.target? = none := by
  simp [target?, h]

namespace Universe

variable {u v w : Universe} {id next last p q : FactId} {pointers : List FactId}
variable {new : Fact} {change : Fact → Fact} {s t : FactId → Prop}

/-! ## The table -/

theorem fact_eq_getD (u : Universe) (p : FactId) :
    u.fact p = u.facts[p]?.getD (.mention [] "") :=
  Array.getD_eq_getD_getElem? ..

/-- Tables are told by what is at their places. -/
theorem eq_of_fact_eq (hsize : u.size = v.size) (h : ∀ p < u.size, u.fact p = v.fact p) : u = v := by
  obtain ⟨facts⟩ := u
  obtain ⟨facts'⟩ := v
  refine congrArg mk (Array.ext hsize fun p hp hp' => ?_)
  have hfact := h p hp
  rwa [fact_eq_getD, fact_eq_getD, Array.getElem?_eq_getElem hp, Array.getElem?_eq_getElem hp'] at hfact

/-- Only a place inside the table holds anything but a mention. -/
theorem lt_size_of_kind (h : (u.fact p).kind ≠ .mention) : p < u.size := by
  by_contra hp
  rw [fact_eq_getD, Array.getElem?_eq_none (Nat.le_of_not_lt hp)] at h
  exact h rfl

@[simp] theorem size_push : (u.push new).size = u.size + 1 :=
  Array.size_push _

theorem fact_push (h : p < u.size) : (u.push new).fact p = u.fact p := by
  have h : p ≠ u.facts.size := Nat.ne_of_lt h
  rw [fact_eq_getD, fact_eq_getD, push, Array.getElem?_push, if_neg h]

@[simp] theorem fact_push_size : (u.push new).fact u.size = new := by
  rw [fact_eq_getD, push, size, Array.getElem?_push_size]
  rfl

@[simp] theorem size_modify : (u.modify p change).size = u.size :=
  Array.size_modify

theorem fact_modify_self (h : p < u.size) :
    (u.modify p change).fact p = change (u.fact p) := by
  have h : p < u.facts.size := h
  rw [fact_eq_getD, fact_eq_getD, modify, Array.getElem?_modify, if_pos rfl,
    Array.getElem?_eq_getElem h]
  rfl

theorem fact_modify_of_ne (h : q ≠ p) : (u.modify p change).fact q = u.fact q := by
  rw [fact_eq_getD, fact_eq_getD, modify, Array.getElem?_modify, if_neg h.symm]

/-! ## Chains -/

/-- A chain of pointers leads from a place to another. -/
inductive Leads (u : Universe) : FactId → List FactId → FactId → Prop
  | here (id : FactId) : Leads u id [] id
  | pointer {id next last : FactId} {pointers : List FactId} : (u.fact id).target? = some next →
      Leads u next pointers last → Leads u id (id :: pointers) last

/-- A place is on the way from another. -/
def Passes (u : Universe) (id p : FactId) : Prop :=
  ∃ pointers, u.Leads id pointers p

theorem Passes.refl (u : Universe) (id : FactId) : u.Passes id id :=
  ⟨[], .here id⟩

theorem Passes.pointer (h : (u.fact id).target? = some next) (h' : u.Passes next p) :
    u.Passes id p := by
  obtain ⟨pointers, hleads⟩ := h'
  exact ⟨id :: pointers, .pointer h hleads⟩

namespace Leads

theorem target?_ne_none (h : u.Leads id pointers last) (hp : p ∈ pointers) :
    (u.fact p).target? ≠ none := by
  induction h with
  | here => cases hp
  | pointer htarget _ ih =>
    rcases List.mem_cons.mp hp with rfl | hp
    · simp [htarget]
    · exact ih hp

/-- What stands in front of the end are pointers. -/
theorem kind_eq_pointer (h : u.Leads id pointers last) (hp : p ∈ pointers) :
    (u.fact p).kind = .pointer := by
  by_contra hkind
  exact h.target?_ne_none hp (Fact.target?_eq_none hkind)

theorem lt_size (h : u.Leads id pointers last) (hp : p ∈ pointers) : p < u.size :=
  lt_size_of_kind (by simp [h.kind_eq_pointer hp])

theorem passes_of_mem (h : u.Leads id pointers last) (hp : p ∈ pointers) : u.Passes id p := by
  induction h with
  | here => cases hp
  | pointer htarget _ ih =>
    rcases List.mem_cons.mp hp with rfl | hp
    · exact .refl u _
    · exact .pointer htarget (ih hp)

/-- A chain that ends passes its pointers and its end, and nothing else. -/
theorem passes_iff (h : u.Leads id pointers last) (hlast : (u.fact last).target? = none) :
    u.Passes id p ↔ p ∈ pointers ∨ p = last := by
  induction h with
  | here last =>
    constructor
    · rintro ⟨_, _ | ⟨htarget, _⟩⟩
      · exact .inr rfl
      · rw [hlast] at htarget
        cases htarget
    · rintro (hp | rfl)
      · cases hp
      · exact .refl u _
  | @pointer id next last pointers htarget _ ih =>
    rw [List.mem_cons, or_assoc, ← ih hlast]
    constructor
    · rintro ⟨_, _ | ⟨htarget', hleads⟩⟩
      · exact .inl rfl
      · obtain rfl := Option.some.inj (htarget.symm.trans htarget')
        exact .inr ⟨_, hleads⟩
    · rintro (rfl | hp)
      · exact .refl u _
      · exact .pointer htarget hp

/-- A place has one chain that ends. -/
theorem unique {others : List FactId} {last' : FactId} (h : u.Leads id pointers last)
    (hlast : (u.fact last).target? = none) (h' : u.Leads id others last')
    (hlast' : (u.fact last').target? = none) : pointers = others ∧ last = last' := by
  induction h generalizing others with
  | here =>
    rcases h' with _ | ⟨htarget, -⟩
    · exact ⟨rfl, rfl⟩
    · rw [hlast] at htarget
      cases htarget
  | pointer htarget _ ih =>
    rcases h' with _ | ⟨htarget', hleads'⟩
    · rw [hlast'] at htarget
      cases htarget
    · obtain rfl := Option.some.inj (htarget.symm.trans htarget')
      obtain ⟨rfl, rfl⟩ := ih hlast hleads'
      exact ⟨rfl, rfl⟩

/-- A chain from a pointer on. -/
theorem drop (h : u.Leads id pointers last) (hp : p ∈ pointers) :
    ∃ before after, pointers = before ++ p :: after ∧ u.Leads p (p :: after) last := by
  induction h with
  | here => cases hp
  | @pointer id _ _ pointers htarget hleads ih =>
    rcases List.mem_cons.mp hp with rfl | hp
    · exact ⟨[], pointers, rfl, .pointer htarget hleads⟩
    · obtain ⟨before, after, rfl, hdrop⟩ := ih hp
      exact ⟨id :: before, after, rfl, hdrop⟩

/-- A chain that ends comes to no pointer twice. -/
theorem nodup (h : u.Leads id pointers last) (hlast : (u.fact last).target? = none) :
    pointers.Nodup := by
  induction h with
  | here => exact List.nodup_nil
  | @pointer id next last pointers htarget hleads ih =>
    refine List.nodup_cons.mpr ⟨fun hmem => ?_, ih hlast⟩
    -- the chain would be a part of itself
    obtain ⟨before, after, hsplit, hdrop⟩ := hleads.drop hmem
    obtain ⟨heq, -⟩ := (Leads.pointer htarget hleads).unique hlast hdrop hlast
    have hlength := congrArg List.length ((List.cons.inj heq).2.symm.trans hsplit)
    simp only [List.length_append, List.length_cons] at hlength
    omega

theorem length_le_size (h : u.Leads id pointers last) (hlast : (u.fact last).target? = none) :
    pointers.length ≤ u.size := by
  have hsub : pointers ⊆ List.range u.size := fun p hp => List.mem_range.mpr (h.lt_size hp)
  simpa using ((h.nodup hlast).subperm hsub).length_le

/-- Where the pointers point to the same places, the chain is the same. -/
theorem congr (h : u.Leads id pointers last)
    (hsame : ∀ p ∈ pointers, (v.fact p).target? = (u.fact p).target?) :
    v.Leads id pointers last := by
  induction h with
  | here id => exact .here id
  | pointer htarget _ ih =>
    rw [List.forall_mem_cons] at hsame
    exact .pointer (hsame.1.trans htarget) (ih hsame.2)

/-- So it is when they do on the way through the other table. -/
theorem congr_of_passes (h : v.Leads id pointers last)
    (hsame : ∀ p, u.Passes id p → (v.fact p).target? = (u.fact p).target?) :
    u.Leads id pointers last := by
  induction h with
  | here id => exact .here id
  | pointer htarget _ ih =>
    have htarget := (hsame _ (.refl u _)).symm.trans htarget
    exact .pointer htarget (ih fun p hp => hsame p (.pointer htarget hp))

end Leads

/-! ## Names -/

/-- What is no pointer is at the end of its own chain. -/
theorem pointerChain_of_kind_ne (h : (u.fact id).kind ≠ .pointer) : u.pointerChain id = (id, 0) := by
  have htarget : (u.fact id).target? = none := Fact.target?_eq_none h
  unfold pointerChain
  cases u.size with
  | zero => rfl
  | succ steps => rw [followPointers, htarget]

/-- A declared type stands under its own name. -/
theorem qualifiedName_of_kind (h : (u.fact id).kind = .named) :
    u.qualifiedName id = (u.fact id).dottedName := by
  rw [qualifiedName, pointerChain_of_kind_ne (by simp [h])]
  simp

/-! ## What stays -/

/-- A table has grown and changed, but only at some of its places. -/
structure Keeps (u v : Universe) (touched : FactId → Prop) : Prop where
  size_le : u.size ≤ v.size
  fact_eq : ∀ p < u.size, ¬ touched p → v.fact p = u.fact p

namespace Keeps

theorem refl (u : Universe) (s : FactId → Prop) : u.Keeps u s :=
  ⟨Nat.le_refl _, fun _ _ _ => rfl⟩

theorem mono (h : u.Keeps v s) (hst : ∀ p, s p → t p) : u.Keeps v t :=
  ⟨h.size_le, fun p hp ht => h.fact_eq p hp fun hs => ht (hst p hs)⟩

theorem trans (h : u.Keeps v s) (h' : v.Keeps w t) : u.Keeps w fun p => s p ∨ t p where
  size_le := Nat.le_trans h.size_le h'.size_le
  fact_eq p hp hst := by
    obtain ⟨hs, ht⟩ := not_or.mp hst
    rw [h'.fact_eq p (Nat.lt_of_lt_of_le hp h.size_le) ht, h.fact_eq p hp hs]

theorem push (u : Universe) (new : Fact) (s : FactId → Prop) : u.Keeps (u.push new) s :=
  ⟨by simp, fun _ hp _ => fact_push hp⟩

theorem modify (u : Universe) (p : FactId) (change : Fact → Fact) :
    u.Keeps (u.modify p change) (· = p) :=
  ⟨by simp, fun _ _ hq => fact_modify_of_ne hq⟩

end Keeps

/-! ## A new end -/

/-- The chain with another end. -/
def repoint (u : Universe) : List FactId → FactId → Universe
  | [], _ => u
  | id :: pointers, last =>
    (u.repoint pointers last).modify id
      ({ · with pointee := some (pointers.headD last) })

@[simp] theorem size_repoint (u : Universe) (pointers : List FactId) (last : FactId) :
    (u.repoint pointers last).size = u.size := by
  induction pointers with
  | nil => rfl
  | cons id pointers ih => rw [repoint, size_modify, ih]

theorem keeps_repoint (u : Universe) (pointers : List FactId) (last : FactId) :
    u.Keeps (u.repoint pointers last) (· ∈ pointers) := by
  induction pointers with
  | nil => exact .refl u _
  | cons id pointers ih =>
    exact (ih.trans (.modify _ id _)).mono fun p hp => List.mem_cons.mpr hp.symm

/-- A pointer that is turned stays what it is otherwise. -/
theorem fact_repoint (pointers : List FactId) (last : FactId) (hp : p < u.size) :
    ∃ pointee, (u.repoint pointers last).fact p = { u.fact p with pointee } := by
  induction pointers with
  | nil => exact ⟨(u.fact p).pointee, rfl⟩
  | cons id pointers ih =>
    obtain ⟨pointee, hpointee⟩ := ih
    by_cases hid : p = id
    · subst hid
      exact ⟨_, by rw [repoint, fact_modify_self (by simpa using hp), hpointee]⟩
    · exact ⟨pointee, by rw [repoint, fact_modify_of_ne hid, hpointee]⟩

/-- **The pointers lead to the new end.** -/
theorem leads_repoint (hnodup : pointers.Nodup)
    (hkind : ∀ p ∈ pointers, (u.fact p).kind = .pointer) :
    (u.repoint pointers last).Leads (pointers.headD last) pointers last := by
  induction pointers with
  | nil => exact .here last
  | cons id pointers ih =>
    obtain ⟨hid, hnodup⟩ := List.nodup_cons.mp hnodup
    obtain ⟨hpointer, hkind⟩ := List.forall_mem_cons.mp hkind
    have hsize : id < u.size := lt_size_of_kind (by simp [hpointer])
    have htarget : ((u.repoint (id :: pointers) last).fact id).target? =
        some (pointers.headD last) := by
      obtain ⟨pointee, hfact⟩ := fact_repoint pointers last hsize
      rw [repoint, fact_modify_self (by simpa using hsize), Fact.target?_eq_some_iff, hfact]
      exact ⟨hpointer, rfl⟩
    refine .pointer htarget ((ih hnodup hkind).congr fun p hp => ?_)
    have hne : p ≠ id := fun heq => hid (heq ▸ hp)
    rw [repoint, fact_modify_of_ne hne]

end Universe

end Managed

end TypeBridge
