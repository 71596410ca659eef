import TypeBridge.Proofs.Layout.Composition
/-!
# TypeBridge — what a fault shows

A layout without a verdict is reported with types that show why. A cycle names
a ring of structs, each of which holds the next, with the first one repeated at
the end; a nesting that is too deep names the two ends of a chain of structs
inside each other, from the type asked about to the first one beyond the limit.

Both are read off the trail behind the walk: no struct comes twice on it, and
each of its steps is a field.
-/

namespace TypeBridge

namespace Managed

namespace Graph

variable {ν : Type} {g : Graph ν} {n m : ν} {chain path members : List ν} {room : ℕ}
variable {ledger : Ledger ν}

/-- The steps of a trail are steps into parts. -/
theorem Trail.isChain_holds (h : g.Trail ledger chain n) : (chain ++ [n]).IsChain g.Holds :=
  h.steps.imp fun _ _ => StepPast.holds

/-- Whatever holds a next one is a struct. -/
theorem standing_of_mem_isChain (h : (path ++ [m]).IsChain g.Holds) :
    ∀ k ∈ path, g.standing k = .struct := by
  intro k hk
  obtain ⟨front, back, rfl⟩ := List.append_of_mem hk
  rw [List.append_assoc, List.cons_append] at h
  obtain ⟨next, rest, hrest⟩ := List.exists_cons_of_ne_nil (List.concat_ne_nil m back)
  have hback := h.right_of_append
  rw [hrest, List.isChain_cons_cons] at hback
  exact hback.1.1

/-- **A cycle is a ring**: it closes on its first struct, comes by no other
twice, and is reached from the type asked about. -/
theorem Explains.ring (h : g.Explains room [] n (ledger, .error (.cycle members))) :
    ∃ c below, members = c :: below ++ [c] ∧ (c :: below).Nodup ∧ g.Reaches n c ∧
      (c :: below ++ [c]).IsChain g.Holds := by
  cases h with
  | @cycle _ above below c _ htrail hpath =>
    have hsteps := htrail.isChain_holds
    refine ⟨c, below, rfl, (List.nodup_append.mp htrail.nodup).2.1, ?_, ?_⟩
    · -- the trail begins with the type asked about, and the ring is its end
      obtain ⟨rest, hrest⟩ := hpath
      rw [List.nil_append, List.singleton_append] at hrest
      rw [← hrest] at hsteps
      exact reaches_of_mem_isChain hsteps (by rw [hrest]; simp)
    · rw [List.append_assoc] at hsteps
      exact hsteps.right_of_append

/-- **Too deep is a nesting** that takes up all the room, with one struct more
at its end. -/
theorem Explains.nesting {a : ν} (h : g.Explains room [] n (ledger, .error (.tooDeep a m))) :
    ∃ path, path.length = room ∧ (path ++ [m]).head? = some n ∧ a = n ∧ (path ++ [m]).Nodup ∧
      (path ++ [m]).IsChain g.Holds ∧ ∀ k ∈ path ++ [m], g.standing k = .struct := by
  have ha : a = n := h.firstWay.1
  cases h with
  | @tooDeep _ path _ _ htrail hm hlen hpath hstruct hfree =>
    have hsteps := htrail.isChain_holds
    obtain ⟨rest, hrest⟩ := hpath
    refine ⟨path, by simpa using hlen, by simp [← hrest], ha, ?_, hsteps,
      (isNesting_concat hsteps (standing_of_mem_isChain hsteps) hstruct).2⟩
    exact List.nodup_append.mpr ⟨htrail.nodup, List.nodup_singleton m, fun k hk l hl hkl =>
      hm (List.mem_singleton.mp hl ▸ hkl ▸ hk)⟩

end Graph

namespace Universe

variable {u : Universe} {enumBase : Option String} {path : List FactId} {m : FactId}

/-- A fault that is reported by names is a fault with the same names. -/
theorem exists_fault_of_mapError {outcome : Except (LayoutFault FactId) Bool}
    {fault : LayoutFault String}
    (h : outcome.mapError (LayoutFault.map u.qualifiedName) = .error fault) :
    ∃ places, outcome = .error places ∧ places.map u.qualifiedName = fault := by
  rcases outcome with places | verdict
  · exact ⟨places, rfl, Except.error.inj h⟩
  · cases h

/-- **What a fault shows.** A cycle is told by the names of a ring of distinct
structs, each with the next as the type of an instance field, that the type
asked about leads to. Too deep is told by the ends of a chain of distinct
structs that starts at the type asked about, has as many as the limit allows,
and goes on to one more. -/
theorem fault_shows_structs (u : Universe) (settings : Settings) (n : FactId) :
    (∀ names, ((u.layoutGraph settings.enumBase).hasSharedLayout n).mapError
        (LayoutFault.map u.qualifiedName) = .error (.cycle names) →
      ∃ c below, names = (c :: below ++ [c]).map u.qualifiedName ∧ (c :: below).Nodup ∧
        (∀ m ∈ c :: below, (u.fact m).IsStruct settings.enumBase) ∧
        u.Reaches settings.enumBase n c ∧
        (c :: below ++ [c]).IsChain (u.Holds settings.enumBase)) ∧
    ∀ outermost innermost, ((u.layoutGraph settings.enumBase).hasSharedLayout n).mapError
        (LayoutFault.map u.qualifiedName) = .error (.tooDeep outermost innermost) →
      ∃ path m, path.length = nestingLimit ∧ path.head? = some n ∧ (path ++ [m]).Nodup ∧
        (∀ k ∈ path ++ [m], (u.fact k).IsStruct settings.enumBase) ∧
        (path ++ [m]).IsChain (u.Holds settings.enumBase) ∧
        outermost = u.qualifiedName n ∧ innermost = u.qualifiedName m := by
  have hex := (u.layoutGraph settings.enumBase).survey_explains n
  rw [← holds_layoutGraph, ← reaches_layoutGraph]
  simp only [← Fact.standing_eq_struct_iff]
  unfold Graph.hasSharedLayout
  generalize (u.layoutGraph settings.enumBase).survey n = answer at hex ⊢
  rcases answer with ⟨ledger, outcome⟩
  refine ⟨fun names hnames => ?_, fun outermost innermost hends => ?_⟩
  · obtain ⟨_ | _, rfl, hfault⟩ := exists_fault_of_mapError hnames
    · obtain ⟨c, below, rfl, hnodup, hreach, hchain⟩ := hex.ring
      obtain rfl := LayoutFault.cycle.inj hfault
      exact ⟨c, below, rfl, hnodup, Graph.standing_of_mem_isChain hchain, hreach, hchain⟩
    · cases hfault
  · obtain ⟨_ | ⟨a, m⟩, rfl, hfault⟩ := exists_fault_of_mapError hends
    · cases hfault
    · obtain ⟨path, hlen, hhead, rfl, hnodup, hchain, hstruct⟩ := hex.nesting
      obtain ⟨rfl, rfl⟩ := LayoutFault.tooDeep.inj hfault
      refine ⟨path, m, hlen, ?_, hnodup, hstruct, hchain, rfl, rfl⟩
      -- the limit leaves room for the type asked about itself
      cases path with
      | nil => cases hlen
      | cons first path => simpa using hhead

/-- A struct outside a ring of one. -/
def holderOfLoop : Universe where
  facts := #[
    { kind := .named
      name := "Holder"
      isValueType := true
      namespaces := ["Ring"]
      fields := [{ name := "inner", type := 1 }] },
    { kind := .named
      name := "Loop"
      isValueType := true
      namespaces := ["Ring"]
      fields := [{ name := "label", type := 2 }, { name := "again", type := 1 }] },
    .ofSpecial .int32]

/-- The ring is told without the struct outside it, and the ladder's highest
rung leads to one struct too many. -/
theorem holderOfLoop_and_ladder_show_structs :
    (∃ c below, ["Ring.Loop", "Ring.Loop"] = (c :: below ++ [c]).map holderOfLoop.qualifiedName ∧
      holderOfLoop.Reaches (some "System.Enum") 0 c) ∧
    ∃ path m, path.length = nestingLimit ∧ path.head? = some nestingLimit ∧
      (path ++ [m]).IsChain ((ladder nestingLimit).Holds (some "System.Enum")) := by
  refine ⟨?_, ?_⟩
  · obtain ⟨c, below, hnames, -, -, hreach, -⟩ :=
      (fault_shows_structs holderOfLoop {} 0).1 ["Ring.Loop", "Ring.Loop"] (by decide)
    exact ⟨c, below, hnames, hreach⟩
  · obtain ⟨m, hm⟩ := Graph.hasSharedLayout_tooDeep_iff.mpr overflows_highest_rung
    obtain ⟨path, k, hlen, hhead, -, -, hchain, -⟩ :=
      (fault_shows_structs (ladder nestingLimit) {} nestingLimit).2 _ _
        (congrArg (Except.mapError (LayoutFault.map (ladder nestingLimit).qualifiedName)) hm)
    exact ⟨path, k, hlen, hhead, hchain⟩

end Universe

end Managed

end TypeBridge
