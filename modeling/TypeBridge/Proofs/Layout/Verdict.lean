import TypeBridge.Proofs.Layout.Reach
/-!
# TypeBridge — layouts without a walk

`Graph.Shared` and `Graph.Refused` say which verdict a type deserves. A type
is shared when everything it depends on is, all the way down, so nothing it
reaches contains itself. It is refused when a type of the managed side alone
stands behind parts that are shared up to there.

The two exclude each other, and neither holds of a struct whose first part
that is not shared leads back to it: the order of the parts decides whether a
struct that contains itself is refused or has no verdict at all.
-/

namespace TypeBridge

namespace Managed

namespace Graph

variable {ν : Type} {g : Graph ν} {a b m n p : ν}

/-- Both sides lay out the type alike, and all that it is made of. -/
inductive Shared (g : Graph ν) : ν → Prop
  | settled {n : ν} : g.standing n = .settled true → Shared g n
  | struct {n : ν} : g.standing n = .struct → (∀ p ∈ g.parts n, Shared g p) → Shared g n

/-- A step from a struct to a part of it, with a property of the parts that
stand before that one. -/
def StepPast (g : Graph ν) (P : ν → Prop) (a b : ν) : Prop :=
  g.standing a = .struct ∧
    ∃ before after, g.parts a = before ++ b :: after ∧ ∀ q ∈ before, P q

/-- A type of the managed side alone is met before anything else that is not
shared. -/
inductive Refused (g : Graph ν) : ν → Prop
  | settled {n : ν} : g.standing n = .settled false → Refused g n
  | part {n p : ν} : g.StepPast g.Shared n p → Refused g p → Refused g n

/-! ## Steps past parts -/

theorem StepPast.holds {P : ν → Prop} (h : g.StepPast P a b) : g.Holds a b := by
  obtain ⟨hstruct, before, after, hparts, -⟩ := h
  exact ⟨hstruct, by simp [hparts]⟩

theorem StepPast.imp {P Q : ν → Prop} (hPQ : ∀ q, P q → Q q) (h : g.StepPast P a b) :
    g.StepPast Q a b := by
  obtain ⟨hstruct, before, after, hparts, hbefore⟩ := h
  exact ⟨hstruct, before, after, hparts, fun q hq => hPQ q (hbefore q hq)⟩

/-- Steps past parts are steps, whatever those parts are. -/
theorem reaches_of_steps {P : ν → Prop} (h : Relation.ReflTransGen (g.StepPast P) a b) :
    g.Reaches a b :=
  Relation.ReflTransGen.mono (fun _ _ hab => hab.holds) _ _ h

/-- And a circle of them is a type that contains itself. -/
theorem containsItself_of_circle {P : ν → Prop} (h : Relation.TransGen (g.StepPast P) n n) :
    g.ContainsItself n :=
  Relation.TransGen.mono (fun _ _ hab => hab.holds) _ _ h

/-- **There is one first part without the property**, so two steps to such
parts are the same step. -/
theorem StepPast.unique {P : ν → Prop} (hb : g.StepPast P a b) (hm : g.StepPast P a m)
    (hPb : ¬ P b) (hPm : ¬ P m) : b = m := by
  obtain ⟨-, before, after, hparts, hbefore⟩ := hb
  obtain ⟨-, before', after', hparts', hbefore'⟩ := hm
  rw [hparts] at hparts'
  -- of the two lists of parts in front, one goes on past the other or they agree
  rcases List.append_eq_append_iff.mp hparts' with ⟨gap, rfl, hgap⟩ | ⟨gap, rfl, hgap⟩
  · cases gap with
    | nil => simpa using congrArg List.head? hgap
    | cons c gap =>
      obtain ⟨rfl, -⟩ : b = c ∧ _ := by simpa using hgap
      exact absurd (hbefore' b (by simp)) hPb
  · cases gap with
    | nil => simpa using congrArg List.head? hgap.symm
    | cons c gap =>
      obtain ⟨rfl, -⟩ : m = c ∧ _ := by simpa using hgap
      exact absurd (hbefore m (by simp)) hPm

/-! ## Shared layouts -/

theorem Shared.standing_ne (h : g.Shared n) : g.standing n ≠ .settled false := by
  cases h with
  | settled hn => simp [hn]
  | struct hn _ => simp [hn]

theorem Shared.of_holds (h : g.Shared a) (hab : g.Holds a b) : g.Shared b := by
  cases h with
  | settled ha =>
    rw [hab.1] at ha
    cases ha
  | struct _ hparts => exact hparts b hab.2

/-- A shared layout is shared all the way down. -/
theorem Shared.of_reaches (h : g.Shared a) (hab : g.Reaches a b) : g.Shared b := by
  induction hab with
  | refl => exact h
  | tail _ hstep ih => exact ih.of_holds hstep

/-- **A shared layout is founded**: nothing that contains itself is shared. -/
theorem Shared.not_containsItself (h : g.Shared n) : ¬ g.ContainsItself n := by
  induction h with
  | settled hn =>
    intro hself
    rw [hself.standing] at hn
    cases hn
  | struct _ _ ih =>
    intro hself
    obtain ⟨p, hnp, hpn⟩ := Relation.TransGen.head'_iff.mp hself
    -- the part on the way round contains itself as well
    exact ih p hnp.2 (Relation.TransGen.tail' hpn hnp)

/-- A struct that is not shared has a first part that is not. -/
theorem exists_stepPast_of_not_shared (hn : g.standing n = .struct) (h : ¬ g.Shared n) :
    ∃ p, g.StepPast g.Shared n p ∧ ¬ g.Shared p := by
  -- by induction on the parts that are still to be looked at
  have key : ∀ before rest, g.parts n = before ++ rest → (∀ q ∈ before, g.Shared q) →
      ∃ p, g.StepPast g.Shared n p ∧ ¬ g.Shared p := by
    intro before rest
    induction rest generalizing before with
    | nil =>
      intro hparts hbefore
      rw [List.append_nil] at hparts
      exact absurd (.struct hn (hparts ▸ hbefore)) h
    | cons p rest ih =>
      intro hparts hbefore
      by_cases hp : g.Shared p
      · refine ih (before ++ [p]) (by simp [hparts]) fun q hq => ?_
        rcases List.mem_append.mp hq with hq | hq
        · exact hbefore q hq
        · exact List.mem_singleton.mp hq ▸ hp
      · exact ⟨p, ⟨hn, before, rest, hparts, hbefore⟩, hp⟩
  exact key [] (g.parts n) rfl (by simp)

/-! ## Refused layouts -/

/-- A refused layout reaches the type it is refused for. -/
theorem Refused.exists_reaches (h : g.Refused n) :
    ∃ m, g.Reaches n m ∧ g.standing m = .settled false := by
  induction h with
  | settled hn => exact ⟨_, .refl, hn⟩
  | part hstep _ ih =>
    obtain ⟨m, hreach, hm⟩ := ih
    exact ⟨m, .head hstep.holds hreach, hm⟩

/-- No layout is both shared and refused. -/
theorem Refused.not_shared (h : g.Refused n) : ¬ g.Shared n := by
  obtain ⟨m, hreach, hm⟩ := h.exists_reaches
  exact fun hn => (hn.of_reaches hreach).standing_ne hm

/-- The first part that is not shared hands its refusal up, and so takes part
in any refusal. -/
theorem Refused.of_stepPast (h : g.Refused a) (hab : g.StepPast g.Shared a b)
    (hb : ¬ g.Shared b) : g.Refused b := by
  cases h with
  | settled ha =>
    rw [hab.1] at ha
    cases ha
  | part hap hp => exact hap.unique hab hp.not_shared hb ▸ hp

/-- **A refusal is founded too**: going on to the first part that is not
shared, it never comes back. -/
theorem Refused.not_transGen (h : g.Refused n) :
    ¬ Relation.TransGen (g.StepPast g.Shared) n n := by
  induction h with
  | settled hn =>
    intro hround
    obtain ⟨p, hp, -⟩ := Relation.TransGen.head'_iff.mp hround
    rw [hp.1] at hn
    cases hn
  | @part n p hnp hp ih =>
    intro hround
    obtain ⟨q, hnq, hqn⟩ := Relation.TransGen.head'_iff.mp hround
    -- the way round starts with the part that the refusal is for
    have hq : ¬ g.Shared q := fun hq =>
      hq.not_containsItself (containsItself_of_circle (Relation.TransGen.tail' hqn hnq))
    obtain rfl := hnp.unique hnq hp.not_shared hq
    exact ih (Relation.TransGen.tail' hqn hnp)

/-- **A way round leaves no verdict.** A type from which the first parts that
are not shared lead onto a circle is neither shared nor refused. -/
theorem not_shared_not_refused_of_circle (hnm : Relation.ReflTransGen (g.StepPast g.Shared) n m)
    (hround : Relation.TransGen (g.StepPast g.Shared) m m) : ¬ g.Shared n ∧ ¬ g.Refused n := by
  have hm : ¬ g.Shared m := fun hm => hm.not_containsItself (containsItself_of_circle hround)
  refine ⟨fun hn => hm (hn.of_reaches (reaches_of_steps hnm)), ?_⟩
  induction hnm using Relation.ReflTransGen.head_induction_on with
  | refl => exact fun hm => hm.not_transGen hround
  | @head a b hab hbm ih =>
    intro ha
    have hb : ¬ g.Shared b := fun hb => hm (hb.of_reaches (reaches_of_steps hbm))
    exact ih (ha.of_stepPast hab hb)

/-! ## Where nothing contains itself -/

/-- A nesting with a further struct at its end is a nesting. -/
theorem isNesting_concat {path : List ν} (hchain : (path ++ [m]).IsChain g.Holds)
    (hpath : ∀ k ∈ path, g.standing k = .struct) (hm : g.standing m = .struct) :
    g.IsNesting (path ++ [m]) := by
  refine ⟨hchain, fun k hk => ?_⟩
  rcases List.mem_append.mp hk with hk | hk
  · exact hpath k hk
  · obtain rfl := List.mem_singleton.mp hk
    exact hm

/-- What stands at the end of a nesting is shared or refused, where nothing
contains itself and the nestings are bounded. The recursion ends since each
struct uses up some of the bound. -/
theorem shared_or_refused_of_nesting {limit : ℕ} (hself : ∀ m, g.Reaches n m → ¬ g.ContainsItself m)
    (hbound : ∀ path, g.IsNesting path → path.Nodup → path.head? = some n → path.length ≤ limit)
    (path : List ν) (m : ν) (hhead : (path ++ [m]).head? = some n)
    (hchain : (path ++ [m]).IsChain g.Holds) (hpath : ∀ k ∈ path, g.standing k = .struct) :
    g.Shared m ∨ g.Refused m := by
  cases hm : g.standing m with
  | settled v =>
    cases v with
    | true => exact .inl (.settled hm)
    | false => exact .inr (.settled hm)
  | struct =>
    have hreach : ∀ k ∈ path ++ [m], g.Reaches n k := fun k hk => by
      obtain ⟨rest, hrest⟩ := List.head?_eq_some_iff.mp hhead
      rw [hrest] at hchain hk
      exact reaches_of_mem_isChain hchain hk
    have hnest := isNesting_concat hchain hpath hm
    -- no type comes twice on the way here, so the bound leaves room for a step
    have hroom : path.length < limit := by
      have := hbound _ hnest (nodup_of_isChain_holds hchain fun k hk => hself k (hreach k hk)) hhead
      rw [List.length_append, List.length_singleton] at this
      omega
    by_cases hshared : g.Shared m
    · exact .inl hshared
    · obtain ⟨p, hstep, hp⟩ := exists_stepPast_of_not_shared hm hshared
      refine .inr (.part hstep ((shared_or_refused_of_nesting hself hbound (path ++ [m]) p ?_ ?_
        hnest.2).resolve_left hp))
      · rw [List.head?_append, hhead, Option.some_or]
      · exact hchain.append (List.isChain_singleton p) (by simpa using hstep.holds)
termination_by limit - path.length
decreasing_by
  rw [List.length_append, List.length_singleton]
  omega

/-- **Bounded nestings without a circle leave no type undecided.** -/
theorem shared_or_refused_of_bounded {limit : ℕ} (hself : ∀ m, g.Reaches n m → ¬ g.ContainsItself m)
    (hbound : ∀ path, g.IsNesting path → path.Nodup → path.head? = some n → path.length ≤ limit) :
    g.Shared n ∨ g.Refused n :=
  shared_or_refused_of_nesting hself hbound [] n (by simp) (List.isChain_singleton n) (by simp)

end Graph

end Managed

end TypeBridge
