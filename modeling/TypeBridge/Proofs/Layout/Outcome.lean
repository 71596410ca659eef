import TypeBridge.Proofs.Layout.Walk
/-!
# TypeBridge — which outcome, exactly

The walk has four outcomes, and each is decided by the graph alone. The walk
overflows when some struct is first met too far inside: `FirstWay` is the way
to it that takes at each struct the first part from which it is reached.
Without such a struct the verdict is yes on the shared types, no on the
refused ones, and a cycle on those that are neither.

The depth at which a struct counts is that of its first way. A struct that
was met in time is not counted again, however far inside it comes up later.
-/

namespace TypeBridge

namespace Managed

namespace Graph

variable {ν : Type} {g : Graph ν} {a b n m p : ν} {chain path : List ν} {room : ℕ}
variable {ledger ledger' : Ledger ν}

/-! ## What an explained outcome excludes -/

/-- Each type on a walk leads to the last one. -/
theorem reflTransGen_getLast {R : ν → ν → Prop} (front : List ν) {back : List ν}
    (h : (front ++ a :: back).IsChain R) (hlast : (front ++ a :: back).getLast? = some b) :
    Relation.ReflTransGen R a b := by
  rw [List.getLast?_append_of_ne_nil _ (List.cons_ne_nil _ _)] at hlast
  exact List.relationReflTransGen_of_exists_isChain_cons _ h.right_of_append
    (List.getLast_eq_iff_getLast?_eq_some _ |>.mpr hlast)

/-- And in at least one step to what comes after it. -/
theorem transGen_getLast {R : ν → ν → Prop} {front back : List ν}
    (h : (front ++ a :: back ++ [b]).IsChain R) : Relation.TransGen R a b := by
  rw [List.append_assoc, List.cons_append] at h
  obtain ⟨c, rest, hrest⟩ := List.exists_cons_of_ne_nil (List.concat_ne_nil b back)
  have hlast : (c :: rest).getLast? = some b := by simp [← hrest]
  have hchain : (a :: c :: rest).IsChain R := hrest ▸ h.right_of_append
  rw [List.isChain_cons_cons] at hchain
  exact .head' hchain.1 (reflTransGen_getLast [] hchain.2 hlast)

/-- The steps of a trail are past shared parts. -/
theorem Trail.isChain_shared (h : g.Trail ledger chain n) :
    (chain ++ [n]).IsChain (g.StepPast g.Shared) :=
  h.steps.imp fun _ _ hab => hab.imp fun _ hq => hq.1

/-- **A cycle means that there is no verdict**: neither yes nor no would be
right. -/
theorem Explains.not_shared_not_refused {members : List ν}
    (h : g.Explains room chain n (ledger, .error (.cycle members))) :
    ¬ g.Shared n ∧ ¬ g.Refused n := by
  cases h with
  | @cycle _ above below m _ htrail hpath =>
    have hsteps := htrail.isChain_shared
    refine not_shared_not_refused_of_circle (m := m) ?_ (transGen_getLast hsteps)
    -- the type lies on the trail, which ends in the struct that comes twice
    obtain ⟨rest, hrest⟩ := hpath
    rw [List.append_assoc, List.singleton_append] at hrest
    exact reflTransGen_getLast chain (hrest ▸ hsteps) (by rw [hrest, List.getLast?_concat])

/-- A shared type is not refused and on no circle, so its walk says yes or
overflows. -/
theorem examine_of_shared [DecidableEq ν] (room : ℕ) (hn : g.Shared n) (hv : g.Vouched ledger)
    (htrail : g.Trail ledger chain n) :
    (g.examine room chain n ledger).2 = .ok true ∨ GivesUp (g.examine room chain n ledger).2 := by
  have hex := g.examine_explains room chain n ledger hv htrail
  rcases hanswer : g.examine room chain n ledger with ⟨ledger₁, (⟨members⟩ | ⟨a, b⟩) | (_ | _)⟩ <;>
    rw [hanswer] at hex
  · exact absurd hn hex.not_shared_not_refused.1
  · exact .inr ⟨a, b, rfl⟩
  · cases hex with
    | refused hno => exact absurd hn hno.not_shared
  · exact .inl rfl

/-! ## The first way to a struct -/

/-- The way on which the walk first meets a struct: from each struct to the
first part that reaches it, past parts that are shared. -/
structure FirstWay (g : Graph ν) (n m : ν) (path : List ν) : Prop where
  head : path.head? = some n
  last : path.getLast? = some m
  struct : g.standing m = .struct
  nodup : path.Nodup
  steps : path.IsChain (g.StepPast fun q => g.Shared q ∧ ¬ g.Reaches q m)

/-- Some struct is first met with too many structs around it. -/
def Overflows (g : Graph ν) (n : ν) : Prop :=
  ∃ m path, g.FirstWay n m path ∧ nestingLimit < path.length

/-- A first way starts where it is taken from, and goes on as one. -/
theorem FirstWay.cases (h : g.FirstWay n m path) :
    path = [n] ∧ n = m ∨ ∃ p rest, path = n :: p :: rest ∧
      g.StepPast (fun q => g.Shared q ∧ ¬ g.Reaches q m) n p ∧ g.FirstWay p m (p :: rest) := by
  obtain ⟨hhead, hlast, hstruct, hnodup, hsteps⟩ := h
  obtain ⟨rest, rfl⟩ := List.head?_eq_some_iff.mp hhead
  cases rest with
  | nil => exact .inl ⟨rfl, by simpa using hlast⟩
  | cons p rest =>
    rw [List.isChain_cons_cons] at hsteps
    rw [List.getLast?_cons_cons] at hlast
    have hnodup' : (p :: rest).Nodup := (List.nodup_cons.mp hnodup).2
    exact .inr ⟨p, rest, rfl, hsteps.1, rfl, hlast, hstruct, hnodup', hsteps.2⟩

/-- A first way from a part of a shared struct is one from the struct, when no
part before that one leads to where it ends. -/
theorem FirstWay.cons (hn : g.Shared n) (h : g.FirstWay p m path)
    (hstep : g.StepPast (fun q => g.Shared q ∧ ¬ g.Reaches q m) n p) :
    g.FirstWay n m (n :: path) := by
  obtain ⟨hhead, hlast, hstruct, hnodup, hsteps⟩ := h
  obtain ⟨rest, rfl⟩ := List.head?_eq_some_iff.mp hhead
  have hfresh : n ∉ p :: rest := fun hmem => by
    have hback := reaches_of_mem_isChain (hsteps.imp fun _ _ => StepPast.holds) hmem
    exact hn.not_containsItself (Relation.TransGen.head' hstep.holds hback)
  refine ⟨rfl, ?_, hstruct, List.nodup_cons.mpr ⟨hfresh, hnodup⟩, ?_⟩
  · rw [List.getLast?_cons_cons, hlast]
  · exact List.isChain_cons_cons.mpr ⟨hstep, hsteps⟩

theorem FirstWay.standing (h : g.FirstWay n m path) : g.standing n = .struct := by
  rcases h.cases with ⟨-, rfl⟩ | ⟨p, rest, -, hstep, -⟩
  · exact h.struct
  · exact hstep.1

theorem FirstWay.reaches (h : g.FirstWay n m path) : g.Reaches n m := by
  obtain ⟨rest, rfl⟩ := List.head?_eq_some_iff.mp h.head
  exact reaches_of_steps (reflTransGen_getLast [] h.steps h.last)

theorem FirstWay.isNesting (h : g.FirstWay n m path) : g.IsNesting path := by
  refine ⟨h.steps.imp fun _ _ => StepPast.holds, fun k hk => ?_⟩
  obtain ⟨front, back, rfl⟩ := List.append_of_mem hk
  cases back with
  | nil =>
    obtain rfl : k = m := by simpa using h.last
    exact h.struct
  | cons c back =>
    have := h.steps.right_of_append
    rw [List.isChain_cons_cons] at this
    exact this.1.1

/-- **A struct that is too deep is met on its first way**: no part that was
passed reaches it, or it would have been entered then. -/
theorem Explains.firstWay {a : ν} (h : g.Explains room [] n (ledger, .error (.tooDeep a m))) :
    a = n ∧ ∃ path, g.FirstWay n m path ∧ path.length = room + 1 := by
  cases h with
  | @tooDeep _ path _ _ htrail hm hlen hpath hstruct hfree =>
    obtain ⟨rest, hrest⟩ := hpath
    have hhead : (path ++ [m]).head? = some n := by simp [← hrest]
    refine ⟨?_, path ++ [m], ⟨hhead, by simp, hstruct, ?_, ?_⟩, by simpa using hlen⟩
    · cases path <;> simpa using hhead
    · rw [List.nodup_append]
      exact ⟨htrail.nodup, List.nodup_singleton m, fun k hk l hl hkl =>
        hm (List.mem_singleton.mp hl ▸ hkl ▸ hk)⟩
    · exact htrail.steps.imp fun _ _ hab =>
        hab.imp fun _ hq => ⟨hq.1, hq.not_reaches hstruct hfree⟩

variable [DecidableEq ν]

/-- A part that is passed on the first way says yes or overflows, and enters
nothing that reaches the struct the way leads to. -/
theorem allOf_before (room : ℕ) {before after : List ν} (hv : g.Vouched ledger)
    (htrail : g.Trail ledger chain n) (hn : g.standing n = .struct) (hfresh : n ∉ chain)
    (hparts : g.parts n = before ++ p :: after)
    (hbefore : ∀ q ∈ before, g.Shared q ∧ ¬ g.Reaches q m) (hfree : ∀ v, (m, v) ∉ ledger) :
    (∃ ledger₁, allOf (g.examine room (chain ++ [n])) before ledger = (ledger₁, .ok true) ∧
        g.Vouched ledger₁ ∧ g.Trail ledger₁ (chain ++ [n]) p ∧ ∀ v, (m, v) ∉ ledger₁) ∨
      GivesUp (allOf (g.examine room (chain ++ [n])) before ledger).2 := by
  have hask := g.examine_explains_part room htrail hn hfresh
  have hgrow := g.examine_subset room (chain ++ [n])
  rcases allOf_cases (g.examine room (chain ++ [n])) before ledger with
    ⟨ledger₁, hall⟩ | ⟨front, q, back, ledger₁, rfl, hfront, hstop, hno⟩
  · obtain ⟨hv₁, hsub, hcov⟩ := covers_of_allOf hv hask hgrow hparts hall
    refine .inl ⟨ledger₁, hall, hv₁,
      (htrail.mono hsub).part hfresh ⟨hn, before, after, hparts, hcov⟩, fun v hmem => ?_⟩
    -- a new entry for the struct would make a passed part reach it
    obtain ⟨new, hnew, hreach⟩ := allOf_grows before
      (fun q _ ledger => g.examine_grows room (chain ++ [n]) q ledger) ledger
    obtain rfl : ledger₁ = ledger ++ new := by rw [← hnew, hall]
    rcases List.mem_append.mp hmem with hmem | hmem
    · exact hfree v hmem
    · obtain ⟨q, hq, hqm⟩ := hreach _ hmem
      exact (hbefore q hq).2 hqm
  · have hparts' : g.parts n = front ++ q :: (back ++ p :: after) := by simp [hparts]
    obtain ⟨hv₁, hsub, hcov⟩ := covers_of_allOf hv hask hgrow hparts' hfront
    have hq := examine_of_shared room (hbefore q (by simp)).1 hv₁
      ((htrail.mono hsub).part hfresh ⟨hn, front, _, hparts', hcov⟩)
    exact .inr (hstop ▸ hq.resolve_left hno)

/-- **A first way that is too long is not walked to its end.** The recursion
follows the way and the room together. -/
theorem examine_of_firstWay (room : ℕ) (chain : List ν) (n : ν) (ledger : Ledger ν) (path : List ν)
    (hv : g.Vouched ledger) (htrail : g.Trail ledger chain n) (hway : g.FirstWay n m path)
    (hoff : ∀ k ∈ path, k ∉ chain) (hfree : ∀ v, (m, v) ∉ ledger) (hlong : room < path.length) :
    GivesUp (g.examine room chain n ledger).2 := by
  have hn := hway.standing
  have hfresh : n ∉ chain := hoff n (List.mem_of_mem_head? hway.head)
  -- an entry would cover the struct at the end of the way as well
  have hentry : ledger.lookup n = none := by
    cases hlookup : ledger.lookup n with
    | none => rfl
    | some v =>
      have hcov := (hv _ (mem_of_lookup_eq_some hlookup)).2
      exact absurd hway.reaches (hcov.not_reaches hway.struct hfree)
  cases room with
  | zero => exact ⟨_, _, by rw [examine_zero hn hentry hfresh]⟩
  | succ room =>
    rcases hway.cases with ⟨rfl, -⟩ | ⟨p, rest, rfl, ⟨-, before, after, hparts, hbefore⟩, hrest⟩
    · simp at hlong
    · -- the rest of the way stays off the chain, which the struct joins
      have hoff' : ∀ k ∈ p :: rest, k ∉ chain ++ [n] := fun k hk hmem => by
        rcases List.mem_append.mp hmem with hmem | hmem
        · exact hoff k (List.mem_cons_of_mem n hk) hmem
        · obtain rfl := List.mem_singleton.mp hmem
          exact (List.nodup_cons.mp hway.nodup).1 hk
      rw [examine_succ hn hentry hfresh, hparts, allOf_append]
      rcases allOf_before room hv htrail hn hfresh hparts hbefore hfree with
        ⟨ledger₁, hall, hv₁, htrail₁, hfree₁⟩ | ⟨a, b, hall⟩
      · -- way and room are both shorter by one, so the part on the way gives up
        obtain ⟨a, b, hp⟩ := examine_of_firstWay room (chain ++ [n]) p ledger₁ (p :: rest) hv₁
          htrail₁ hrest hoff' hfree₁ (by simpa using hlong)
        rcases hanswer : g.examine room (chain ++ [n]) p ledger₁ with ⟨ledger₂, answer⟩
        obtain rfl : answer = .error (.tooDeep a b) := by rw [← hp, hanswer]
        exact ⟨a, b, by simp only [hall, allOf, hanswer]⟩
      · -- or a part in front of it already has
        rcases hanswer : allOf (g.examine room (chain ++ [n])) before ledger with ⟨ledger₁, answer⟩
        obtain rfl : answer = .error (.tooDeep a b) := by rw [← hall, hanswer]
        exact ⟨a, b, rfl⟩

/-! ## The four outcomes -/

/-- An examination from the start is explained: nothing is entered yet and
nothing is around the type. -/
theorem survey_explains (g : Graph ν) (n : ν) : g.Explains nestingLimit [] n (g.survey n) :=
  g.examine_explains nestingLimit [] n [] vouched_nil trail_nil

/-- The outcome that the graph alone decides on. -/
inductive Decides (g : Graph ν) (n : ν) : Except (LayoutFault ν) Bool → Prop
  | shared : g.Shared n → ¬ g.Overflows n → Decides g n (.ok true)
  | refused : g.Refused n → ¬ g.Overflows n → Decides g n (.ok false)
  | cycle {members : List ν} : ¬ g.Shared n → ¬ g.Refused n → ¬ g.Overflows n →
      Decides g n (.error (.cycle members))
  | tooDeep {m : ν} {path : List ν} : g.FirstWay n m path → path.length = nestingLimit + 1 →
      Decides g n (.error (.tooDeep n m))

/-- What overflows has no other outcome. -/
theorem givesUp_of_overflows (h : g.Overflows n) : GivesUp (g.hasSharedLayout n) := by
  obtain ⟨m, path, hway, hlong⟩ := h
  exact examine_of_firstWay nestingLimit [] n [] path vouched_nil trail_nil hway (by simp) (by simp)
    hlong

/-- **The graph alone decides**, and each outcome is for one reason only. -/
theorem decides_hasSharedLayout (g : Graph ν) (n : ν) : g.Decides n (g.hasSharedLayout n) := by
  have hex := g.survey_explains n
  have hdeep := fun h : g.Overflows n => givesUp_of_overflows h
  unfold hasSharedLayout at hdeep ⊢
  generalize g.survey n = answer at hex hdeep
  rcases answer with ⟨ledger, (⟨members⟩ | ⟨a, m⟩) | (_ | _)⟩
  · obtain ⟨hshared, hrefused⟩ := hex.not_shared_not_refused
    exact .cycle hshared hrefused (by simpa [GivesUp] using hdeep)
  · obtain ⟨rfl, path, hway, hlen⟩ := hex.firstWay
    exact .tooDeep hway hlen
  · cases hex with
    | refused hno => exact .refused hno (by simpa [GivesUp] using hdeep)
  · cases hex with
    | shared _ hcov => exact .shared hcov.1 (by simpa [GivesUp] using hdeep)

/-- What does not overflow is shared, refused or a cycle, and so is the
outcome. -/
theorem outcome_of_not_overflows (hdeep : ¬ g.Overflows n) :
    g.Shared n ∧ g.hasSharedLayout n = .ok true ∨
      g.Refused n ∧ g.hasSharedLayout n = .ok false ∨
      ¬ g.Shared n ∧ ¬ g.Refused n ∧ ∃ members, g.hasSharedLayout n = .error (.cycle members) := by
  have hdec := g.decides_hasSharedLayout n
  generalize g.hasSharedLayout n = outcome at hdec ⊢
  cases hdec with
  | shared hn => exact .inl ⟨hn, rfl⟩
  | refused hn => exact .inr (.inl ⟨hn, rfl⟩)
  | cycle hyes hno => exact .inr (.inr ⟨hyes, hno, _, rfl⟩)
  | @tooDeep m path hway hlen => exact absurd ⟨m, path, hway, by omega⟩ hdeep

/-- Yes is for what is shared, all the way down and not too far. -/
theorem hasSharedLayout_eq_true_iff :
    g.hasSharedLayout n = .ok true ↔ g.Shared n ∧ ¬ g.Overflows n := by
  constructor
  · intro h
    have hdec := g.decides_hasSharedLayout n
    rw [h] at hdec
    cases hdec with
    | shared hn hdeep => exact ⟨hn, hdeep⟩
  · rintro ⟨hn, hdeep⟩
    rcases outcome_of_not_overflows hdeep with ⟨-, h⟩ | ⟨hno, -⟩ | ⟨hno, -⟩
    · exact h
    · exact absurd hn hno.not_shared
    · exact absurd hn hno

/-- No is for what is refused before anything is too far inside. -/
theorem hasSharedLayout_eq_false_iff :
    g.hasSharedLayout n = .ok false ↔ g.Refused n ∧ ¬ g.Overflows n := by
  constructor
  · intro h
    have hdec := g.decides_hasSharedLayout n
    rw [h] at hdec
    cases hdec with
    | refused hn hdeep => exact ⟨hn, hdeep⟩
  · rintro ⟨hn, hdeep⟩
    rcases outcome_of_not_overflows hdeep with ⟨hyes, -⟩ | ⟨-, h⟩ | ⟨-, hno, -⟩
    · exact absurd hyes hn.not_shared
    · exact h
    · exact absurd hn hno

/-- **The walk gives up exactly when it overflows**, and then it says where it
began. -/
theorem hasSharedLayout_tooDeep_iff :
    (∃ m, g.hasSharedLayout n = .error (.tooDeep n m)) ↔ g.Overflows n := by
  have hdec := g.decides_hasSharedLayout n
  constructor
  · rintro ⟨m, h⟩
    rw [h] at hdec
    cases hdec with
    | tooDeep hway hlen => exact ⟨_, _, hway, by omega⟩
  · intro hdeep
    obtain ⟨a, b, h⟩ := givesUp_of_overflows hdeep
    -- only the first struct of a first way is reported as the outermost
    rw [h] at hdec
    cases hdec
    exact ⟨b, h⟩

/-- A cycle is reported on what is neither shared nor refused. -/
theorem hasSharedLayout_cycle_iff :
    (∃ members, g.hasSharedLayout n = .error (.cycle members)) ↔
      ¬ g.Shared n ∧ ¬ g.Refused n ∧ ¬ g.Overflows n := by
  constructor
  · rintro ⟨members, h⟩
    have hdec := g.decides_hasSharedLayout n
    rw [h] at hdec
    cases hdec with
    | cycle hyes hno hdeep => exact ⟨hyes, hno, hdeep⟩
  · rintro ⟨hyes, hno, hdeep⟩
    rcases outcome_of_not_overflows hdeep with ⟨hn, -⟩ | ⟨hn, -⟩ | ⟨-, -, h⟩
    · exact absurd hn hyes
    · exact absurd hn hno
    · exact h

end Graph

end Managed

end TypeBridge
