import TypeBridge.Proofs.Layout.Outcome
import TypeBridge.Settings
/-!
# TypeBridge — from a struct to its fields

A struct with the same layout on both sides has fields of such types, and yet
the question about a field alone may be given up. The limit counts structs on
the way on which the walk first meets one: what an earlier field has led to is
not counted again when a later field leads to it on a longer way. Asked alone,
the later field is on the longer way.

That is the only reason. Each field type of a shared struct is shared, and it
gets its yes unless it overflows, which takes an earlier field.
-/

namespace TypeBridge

namespace Managed

namespace Graph

variable {ν : Type} [DecidableEq ν] {g : Graph ν} {n m p : ν} {path : List ν}

/-- **What a yes leaves open.** A part of a type with a yes can overflow only
on the way to a struct that an earlier part reaches. -/
theorem exists_before_reaches {before after : List ν} (hyes : g.hasSharedLayout n = .ok true)
    (hn : g.standing n = .struct) (hparts : g.parts n = before ++ p :: after)
    (hway : g.FirstWay p m path) (hlong : nestingLimit ≤ path.length) :
    ∃ q ∈ before, g.Reaches q m := by
  obtain ⟨hshared, hdeep⟩ := hasSharedLayout_eq_true_iff.mp hyes
  by_contra! hnone
  -- otherwise the way from the part would be one from the type, and longer
  have hstep : g.StepPast (fun q => g.Shared q ∧ ¬ g.Reaches q m) n p := by
    refine ⟨hn, before, after, hparts, fun q hq => ⟨?_, hnone q hq⟩⟩
    exact hshared.of_holds ⟨hn, by simp [hparts, hq]⟩
  exact hdeep ⟨m, n :: path, hway.cons hshared hstep, by rw [List.length_cons]; omega⟩

end Graph

namespace Universe

/-- **A field of a struct with a yes has a yes as well, or overflows.** Then
the question is given up, and for a struct that an earlier field reaches. -/
theorem hasSharedLayout_of_field (u : Universe) (settings : Settings) (n p : FactId)
    (hyes : (u.layoutGraph settings.enumBase).hasSharedLayout n = .ok true)
    (hfield : u.Holds settings.enumBase n p) :
    ((u.layoutGraph settings.enumBase).hasSharedLayout p = .ok true ↔
      ¬ (u.layoutGraph settings.enumBase).Overflows p) ∧
    ((∃ m, (u.layoutGraph settings.enumBase).hasSharedLayout p = .error (.tooDeep p m)) ↔
      (u.layoutGraph settings.enumBase).Overflows p) ∧
    ∀ before after, (u.fact n).instanceFields.map (·.type) = before ++ p :: after →
      ∀ m path, (u.layoutGraph settings.enumBase).FirstWay p m path → nestingLimit ≤ path.length →
        ∃ q ∈ before, u.Reaches settings.enumBase q m := by
  rw [← holds_layoutGraph] at hfield
  have hp : (u.layoutGraph settings.enumBase).Shared p :=
    (Graph.hasSharedLayout_eq_true_iff.mp hyes).1.of_holds hfield
  refine ⟨?_, Graph.hasSharedLayout_tooDeep_iff, fun before after hparts m path hway hlong => ?_⟩
  · rw [Graph.hasSharedLayout_eq_true_iff]
    exact and_iff_right hp
  · rw [← reaches_layoutGraph]
    exact Graph.exists_before_reaches hyes hfield.1 hparts hway hlong

/-! ## A ladder

Each struct of the ladder has the one below it as its only field. The struct
on top leads to the middle of the ladder before it leads to the highest rung,
so the lower half is met early and counts from the middle. -/

variable {height k m : ℕ} {path : List FactId}

/-- A struct with fields of some types. -/
def structOf (name : String) (types : List FactId) : Fact where
  kind := .named
  name := name
  isValueType := true
  fields := types.map fun t => { name := "s" ++ toString t, type := t }

/-- The types of the fields of each struct of the ladder. -/
def below (height : ℕ) : ℕ → List FactId
  | 0 => []
  | k + 1 => if k = height then [height / 2, height] else [k]

/-- A ladder of some height, with its top. -/
def ladder (height : ℕ) : Universe where
  facts := Array.ofFn fun k : Fin (height + 2) => structOf ("S" ++ toString k.val) (below height k)

/-- The structs of a ladder. No base type marks an enum among them. -/
abbrev ladderGraph (height : ℕ) : Graph FactId :=
  (ladder height).layoutGraph (some "System.Enum")

theorem fact_ladder (hk : k ≤ height + 1) :
    (ladder height).fact k = structOf ("S" ++ toString k) (below height k) := by
  have hk' : k < height + 2 := by omega
  simp [Universe.fact, ladder, hk']

theorem standing_ladder (hk : k ≤ height + 1) : (ladderGraph height).standing k = .struct := by
  simp only [ladderGraph, layoutGraph, fact_ladder hk]
  rfl

theorem parts_ladder (hk : k ≤ height + 1) : (ladderGraph height).parts k = below height k := by
  simp only [ladderGraph, layoutGraph, fact_ladder hk]
  simp [structOf, Fact.instanceFields, List.filter_map, Function.comp_def]

theorem parts_top : (ladderGraph height).parts (height + 1) = [height / 2, height] := by
  rw [parts_ladder le_rfl, below, if_pos rfl]

theorem parts_rung (hk : k + 1 ≤ height) : (ladderGraph height).parts (k + 1) = [k] := by
  rw [parts_ladder (by omega), below, if_neg (by omega)]

theorem holds_rung (hk : k + 1 ≤ height) : (ladderGraph height).Holds (k + 1) k :=
  ⟨standing_ladder (by omega), by simp [parts_rung hk]⟩

theorem shared_rung (hk : k ≤ height) : (ladderGraph height).Shared k := by
  induction k with
  | zero => exact .struct (standing_ladder (by omega)) (by simp [parts_ladder, below])
  | succ k ih =>
    refine .struct (standing_ladder (by omega)) fun p hp => ?_
    rw [parts_rung hk, List.mem_singleton] at hp
    exact hp ▸ ih (by omega)

theorem shared_top : (ladderGraph height).Shared (height + 1) := by
  refine .struct (standing_ladder le_rfl) fun p hp => shared_rung ?_
  rw [parts_top] at hp
  rcases List.mem_pair.mp hp with rfl | rfl
  · exact Nat.div_le_self height 2
  · exact le_rfl

/-- Each rung reaches those below it. -/
theorem reaches_rung (hk : k ≤ height) (hm : m ≤ k) : (ladderGraph height).Reaches k m := by
  induction k with
  | zero =>
    obtain rfl : m = 0 := by omega
    exact .refl
  | succ k ih =>
    rcases Nat.lt_or_ge k m with hkm | hkm
    · obtain rfl : m = k + 1 := by omega
      exact .refl
    · exact .head (holds_rung hk) (ih (by omega) hkm)

/-- The first way down to the lowest rung takes every rung on it. -/
theorem exists_firstWay_rung (hk : k ≤ height) :
    ∃ path, (ladderGraph height).FirstWay k 0 path ∧ path.length = k + 1 := by
  induction k with
  | zero => exact ⟨[0], ⟨rfl, rfl, standing_ladder (by omega), by simp, by simp⟩, rfl⟩
  | succ k ih =>
    obtain ⟨path, hway, hlen⟩ := ih (by omega)
    refine ⟨(k + 1) :: path, hway.cons (shared_rung hk) ?_, by simp [hlen]⟩
    exact ⟨standing_ladder (by omega), [], [], parts_rung hk, by simp⟩

/-- No way down from a rung is longer than the rungs it passes. -/
theorem length_firstWay_rung (hk : k ≤ height) (h : (ladderGraph height).FirstWay k m path) :
    path.length + m ≤ k + 1 := by
  induction k generalizing path with
  | zero =>
    rcases h.cases with ⟨rfl, rfl⟩ | ⟨p, rest, -, hstep, -⟩
    · simp
    · have hp := hstep.holds.2
      simp [parts_ladder, below] at hp
  | succ k ih =>
    rcases h.cases with ⟨rfl, rfl⟩ | ⟨p, rest, rfl, hstep, hrest⟩
    · simp; omega
    · have hp := hstep.holds.2
      rw [parts_rung hk, List.mem_singleton] at hp
      subst hp
      have := ih (by omega) hrest
      rw [List.length_cons]
      omega

/-- From the top the lower half is met through the middle, and the upper half
is met before its end is. -/
theorem length_firstWay_top (h : (ladderGraph height).FirstWay (height + 1) m path) :
    path.length ≤ height / 2 + 2 := by
  rcases h.cases with ⟨rfl, rfl⟩ | ⟨p, rest, rfl, ⟨-, before, after, hparts, hbefore⟩, hrest⟩
  · simp
  · rw [parts_top] at hparts
    rw [List.length_cons]
    -- the top goes to the middle, or past the middle to the highest rung
    cases before with
    | nil =>
      obtain ⟨rfl, -⟩ : height / 2 = p ∧ _ := by simpa using hparts
      have := length_firstWay_rung (by omega) hrest
      omega
    | cons q before =>
      obtain ⟨rfl, hp⟩ : height / 2 = q ∧ [height] = before ++ p :: after := by simpa using hparts
      obtain rfl : height = p := by
        have hmem : p ∈ [height] := by simp [hp]
        exact (List.mem_singleton.mp hmem).symm
      -- the rungs from the middle down were met before
      have hmiddle : ¬ (ladderGraph height).Reaches (height / 2) m :=
        (hbefore (height / 2) (by simp)).2
      have hm : height / 2 < m := by
        by_contra hm
        exact hmiddle (reaches_rung (Nat.div_le_self height 2) (by omega))
      have := length_firstWay_rung le_rfl hrest
      omega

/-! ### The ladder of the limit -/

/-- **The top has a yes**: each of its structs is first met in time. -/
theorem hasSharedLayout_top :
    (ladderGraph nestingLimit).hasSharedLayout (nestingLimit + 1) = .ok true := by
  refine Graph.hasSharedLayout_eq_true_iff.mpr ⟨shared_top, ?_⟩
  rintro ⟨m, path, hway, hlong⟩
  have hshort : path.length ≤ nestingLimit / 2 + 2 := length_firstWay_top hway
  have hlimit : nestingLimit = 200 := rfl
  omega

/-- The highest rung has one struct too many below it. -/
theorem overflows_highest_rung : (ladderGraph nestingLimit).Overflows nestingLimit := by
  obtain ⟨path, hway, hlen⟩ := exists_firstWay_rung (le_refl nestingLimit)
  exact ⟨0, path, hway, by omega⟩

theorem holds_highest_rung :
    (ladder nestingLimit).Holds (some "System.Enum") (nestingLimit + 1) nestingLimit := by
  rw [← holds_layoutGraph]
  exact ⟨standing_ladder le_rfl, by simp [parts_top]⟩

/-- So the question about a field is given up, where its struct has a yes. -/
theorem ladder_gives_up :
    (ladderGraph nestingLimit).hasSharedLayout (nestingLimit + 1) = .ok true ∧
      ∃ m, (ladderGraph nestingLimit).hasSharedLayout nestingLimit =
        .error (.tooDeep nestingLimit m) :=
  ⟨hasSharedLayout_top, (hasSharedLayout_of_field (ladder nestingLimit) {} (nestingLimit + 1)
    nestingLimit hasSharedLayout_top holds_highest_rung).2.1.mpr overflows_highest_rung⟩

/-- A yes for a struct is not one for its fields. -/
theorem not_hasSharedLayout_of_field : ¬ ∀ (u : Universe) (settings : Settings) (n p : FactId),
    (u.layoutGraph settings.enumBase).hasSharedLayout n = .ok true →
      u.Holds settings.enumBase n p →
        (u.layoutGraph settings.enumBase).hasSharedLayout p = .ok true := by
  intro h
  have hyes := h (ladder nestingLimit) {} (nestingLimit + 1) nestingLimit hasSharedLayout_top
    holds_highest_rung
  exact (Graph.hasSharedLayout_eq_true_iff.mp hyes).2 overflows_highest_rung

end Universe

end Managed

end TypeBridge
