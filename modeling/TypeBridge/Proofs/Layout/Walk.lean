import TypeBridge.Proofs.Layout.Verdict
import Mathlib.Data.List.Nodup
/-!
# TypeBridge — the walk explained

Every outcome of `Graph.examine` has its reason in the graph:
`examine_explains` is the one statement about the walk that all others are
read off. It rests on two invariants. The ledger is vouched for: an entry is
a yes, and with a type all structs it reaches are entered. The chain is a
trail: at each of its structs the parts before the next one are covered by
the ledger.

A no ends the walk of every struct on the chain, so no entry with a no is
ever read.
-/

namespace TypeBridge

namespace Managed

namespace Graph

variable {ν : Type} {g : Graph ν} {n m p : ν} {chain : List ν} {room : ℕ}
variable {ledger ledger' : Ledger ν}

/-! ## The invariants -/

/-- A ledger covers a type that is shared when all structs in it are entered. -/
def Covers (g : Graph ν) (ledger : Ledger ν) (n : ν) : Prop :=
  g.Shared n ∧ ∀ m, g.Reaches n m → g.standing m = .struct → (m, true) ∈ ledger

/-- Every entry of the ledger is a yes, and right. -/
def Vouched (g : Graph ν) (ledger : Ledger ν) : Prop :=
  ∀ e ∈ ledger, e.2 = true ∧ g.Covers ledger e.1

/-- The structs that the walk is inside of, down to the next type: none comes
twice, and what was passed on the way is covered. -/
structure Trail (g : Graph ν) (ledger : Ledger ν) (chain : List ν) (n : ν) : Prop where
  nodup : chain.Nodup
  steps : (chain ++ [n]).IsChain (g.StepPast (g.Covers ledger))

theorem Covers.mono (h : g.Covers ledger n) (hsub : ledger ⊆ ledger') : g.Covers ledger' n :=
  ⟨h.1, fun m hreach hm => hsub (h.2 m hreach hm)⟩

/-- The outcome of a walk that went too far inside. -/
def GivesUp (outcome : Except (LayoutFault ν) Bool) : Prop :=
  ∃ outermost innermost, outcome = .error (.tooDeep outermost innermost)

theorem vouched_nil : g.Vouched [] := by
  simp [Vouched]

/-- A type that is shared at sight needs no entry. -/
theorem covers_of_settled (hn : g.standing n = .settled true) : g.Covers ledger n := by
  refine ⟨.settled hn, fun m hreach hm => ?_⟩
  obtain rfl := eq_of_reaches_of_settled hn hreach
  rw [hn] at hm
  cases hm

/-- Entering a struct whose parts are covered keeps the ledger right. -/
theorem Vouched.concat (h : g.Vouched ledger) (hn : g.standing n = .struct)
    (hparts : ∀ p ∈ g.parts n, g.Covers ledger p) :
    g.Vouched (ledger ++ [(n, true)]) ∧ g.Covers (ledger ++ [(n, true)]) n := by
  have hsub : ledger ⊆ ledger ++ [(n, true)] := List.subset_append_left _ _
  have hnew : g.Covers (ledger ++ [(n, true)]) n := by
    refine ⟨.struct hn fun p hp => (hparts p hp).1, fun m hreach hm => ?_⟩
    rcases Relation.ReflTransGen.cases_head hreach with rfl | ⟨p, hp, hpm⟩
    · simp
    · exact hsub ((hparts p hp.2).2 m hpm hm)
  refine ⟨fun e he => ?_, hnew⟩
  rcases List.mem_append.mp he with he | he
  · exact ⟨(h e he).1, (h e he).2.mono hsub⟩
  · obtain rfl := List.mem_singleton.mp he
    exact ⟨rfl, hnew⟩

/-- What no entry names is reached by nothing that is covered. -/
theorem Covers.not_reaches (h : g.Covers ledger n) (hm : g.standing m = .struct)
    (hfree : ∀ v, (m, v) ∉ ledger) : ¬ g.Reaches n m :=
  fun hreach => hfree true (h.2 m hreach hm)

theorem trail_nil : g.Trail ledger [] n :=
  ⟨List.nodup_nil, List.isChain_singleton n⟩

theorem Trail.mono (h : g.Trail ledger chain n) (hsub : ledger ⊆ ledger') :
    g.Trail ledger' chain n :=
  ⟨h.nodup, h.steps.imp fun _ _ hab => hab.imp fun _ hq => hq.mono hsub⟩

/-- The trail goes on from a struct that is not on it to a part, when the
parts before that one are covered. -/
theorem Trail.part (h : g.Trail ledger chain n) (hfresh : n ∉ chain)
    (hnp : g.StepPast (g.Covers ledger) n p) : g.Trail ledger (chain ++ [n]) p := by
  refine ⟨?_, h.steps.append (List.isChain_singleton p) (by simpa using hnp)⟩
  rw [List.nodup_append]
  exact ⟨h.nodup, List.nodup_singleton n, fun a ha b hb hab =>
    hfresh (List.mem_singleton.mp hb ▸ hab ▸ ha)⟩

/-! ## Questions put in turn -/

section AllOf

variable {ask : ν → Ledger ν → Ledger ν × Except (LayoutFault ν) Bool}

theorem allOf_append (xs ys : List ν) (ledger : Ledger ν) :
    allOf ask (xs ++ ys) ledger = match allOf ask xs ledger with
      | (ledger, .ok true) => allOf ask ys ledger
      | answer => answer := by
  induction xs generalizing ledger with
  | nil => rfl
  | cons x xs ih =>
    rw [List.cons_append, allOf, allOf]
    rcases ask x ledger with ⟨ledger₁, fault | _ | _⟩
    · rfl
    · rfl
    · exact ih ledger₁

/-- **Either all say yes, or the first that does not has the last word.** -/
theorem allOf_cases (ask : ν → Ledger ν → Ledger ν × Except (LayoutFault ν) Bool)
    (nodes : List ν) (ledger : Ledger ν) :
    (∃ ledger', allOf ask nodes ledger = (ledger', .ok true)) ∨
      ∃ before p after ledger₁, nodes = before ++ p :: after ∧
        allOf ask before ledger = (ledger₁, .ok true) ∧
        allOf ask nodes ledger = ask p ledger₁ ∧ (ask p ledger₁).2 ≠ .ok true := by
  induction nodes generalizing ledger with
  | nil => exact .inl ⟨ledger, rfl⟩
  | cons x rest ih =>
    rcases hx : ask x ledger with ⟨ledger₁, answer⟩
    by_cases hyes : answer = .ok true
    · subst hyes
      have hcons : ∀ xs, allOf ask (x :: xs) ledger = allOf ask xs ledger₁ := fun xs => by
        rw [allOf, hx]
      rcases ih ledger₁ with ⟨ledger', hall⟩ | ⟨before, p, after, ledger₂, rfl, hbefore, hstop, hno⟩
      · exact .inl ⟨ledger', by rw [hcons, hall]⟩
      · exact .inr ⟨x :: before, p, after, ledger₂, rfl, by rw [hcons, hbefore],
          by rw [hcons, hstop], hno⟩
    · refine .inr ⟨[], x, rest, ledger, rfl, rfl, ?_, by rwa [hx]⟩
      rw [allOf, hx]
      rcases answer with fault | _ | _
      · rfl
      · rfl
      · exact absurd rfl hyes

/-- What each yes keeps true of the nodes so far and the ledger, all of them
keep. -/
theorem allOf_induction {I : List ν → Ledger ν → Prop} {nodes : List ν} (hnil : I [] ledger)
    (hstep : ∀ before p after ledger₁ ledger₂, nodes = before ++ p :: after → I before ledger₁ →
      ask p ledger₁ = (ledger₂, .ok true) → I (before ++ [p]) ledger₂)
    (h : allOf ask nodes ledger = (ledger', .ok true)) : I nodes ledger' := by
  -- the nodes so far are carried along, since the invariant speaks of them
  have key : ∀ rest before ledger₁, nodes = before ++ rest → I before ledger₁ →
      allOf ask rest ledger₁ = (ledger', .ok true) → I nodes ledger' := by
    intro rest
    induction rest with
    | nil =>
      intro before ledger₁ hnodes hI hrest
      obtain rfl : ledger₁ = ledger' := by simpa [allOf] using hrest
      rwa [hnodes, List.append_nil]
    | cons p rest ih =>
      intro before ledger₁ hnodes hI hrest
      rw [allOf] at hrest
      split at hrest
      · rename_i ledger₂ hp
        exact ih (before ++ [p]) ledger₂ (by simp [hnodes])
          (hstep before p rest ledger₁ ledger₂ hnodes hI hp) hrest
      · rename_i hne
        exact absurd hrest (hne ledger')
  exact key nodes [] ledger rfl hnil h

end AllOf

/-! ## The equations of the walk -/

variable [DecidableEq ν]

theorem examine_of_settled {v : Bool} (hn : g.standing n = .settled v) :
    g.examine room chain n ledger = (ledger, .ok v) := by
  rw [examine.eq_def, hn]

theorem examine_of_entry {v : Bool} (hn : g.standing n = .struct)
    (hentry : ledger.lookup n = some v) : g.examine room chain n ledger = (ledger, .ok v) := by
  rw [examine.eq_def, hn]
  simp only [hentry]

theorem examine_of_mem_chain (hn : g.standing n = .struct) (hentry : ledger.lookup n = none)
    (hmem : n ∈ chain) : g.examine room chain n ledger =
      (ledger, .error (.cycle (chain.dropWhile (· ≠ n) ++ [n]))) := by
  rw [examine.eq_def, hn]
  simp only [hentry, if_pos hmem]

theorem examine_zero (hn : g.standing n = .struct) (hentry : ledger.lookup n = none)
    (hfresh : n ∉ chain) : g.examine 0 chain n ledger =
      (ledger, .error (.tooDeep (chain.headD n) n)) := by
  rw [examine.eq_def, hn]
  simp only [hentry, if_neg hfresh]

theorem examine_succ (hn : g.standing n = .struct) (hentry : ledger.lookup n = none)
    (hfresh : n ∉ chain) : g.examine (room + 1) chain n ledger =
      match allOf (g.examine room (chain ++ [n])) (g.parts n) ledger with
      | (ledger, .ok v) => (ledger ++ [(n, v)], .ok v)
      | fault => fault := by
  rw [examine.eq_def, hn]
  rcases hall : allOf (g.examine room (chain ++ [n])) (g.parts n) ledger with ⟨ledger₁, fault | v⟩
  · simp only [hentry, if_neg hfresh, hall]
  · simp only [hentry, if_neg hfresh, hall]

/-! ## The reason of every outcome -/

/-- What an outcome means, with the ledger it leaves: a yes is covered, a no
has its refusal, and a fault shows a trail below the chain, either back to a
struct on it or to one struct more than there is room for. -/
inductive Explains (g : Graph ν) (room : ℕ) (chain : List ν) (n : ν) :
    Ledger ν × Except (LayoutFault ν) Bool → Prop
  | shared {ledger : Ledger ν} : g.Vouched ledger → g.Covers ledger n →
      Explains g room chain n (ledger, .ok true)
  | refused {ledger : Ledger ν} : g.Refused n → Explains g room chain n (ledger, .ok false)
  | cycle {ledger : Ledger ν} {above below : List ν} {m : ν} : g.Vouched ledger →
      g.Trail ledger (above ++ m :: below) m → chain ++ [n] <+: above ++ m :: below ++ [m] →
      Explains g room chain n (ledger, .error (.cycle (m :: below ++ [m])))
  | tooDeep {ledger : Ledger ν} {path : List ν} {m : ν} : g.Vouched ledger →
      g.Trail ledger path m → m ∉ path → path.length = chain.length + room →
      chain ++ [n] <+: path ++ [m] → g.standing m = .struct → (∀ v, (m, v) ∉ ledger) →
      Explains g room chain n (ledger, .error (.tooDeep (path.headD m) m))

omit [DecidableEq ν] in
/-- What is wrong with a part is wrong with the struct it is examined for. -/
theorem Explains.of_part {fault : LayoutFault ν}
    (h : g.Explains room (chain ++ [n]) p (ledger, .error fault)) :
    g.Explains (room + 1) chain n (ledger, .error fault) := by
  have hpre : ∀ {path : List ν}, chain ++ [n] ++ [p] <+: path → chain ++ [n] <+: path :=
    fun hpath => (List.prefix_append _ _).trans hpath
  cases h with
  | cycle hv htrail hpath => exact .cycle hv htrail (hpre hpath)
  | tooDeep hv htrail hm hlen hpath hs hfree =>
    refine .tooDeep hv htrail hm ?_ (hpre hpath) hs hfree
    rw [hlen, List.length_append, List.length_singleton]
    omega

/-! ## The parts of a struct -/

section Parts

variable {ask : ν → Ledger ν → Ledger ν × Except (LayoutFault ν) Bool}

omit [DecidableEq ν] in
/-- What all yeses up to a part leave behind: the ledger is still right, it
has grown, and it covers the parts that were asked. -/
theorem covers_of_allOf {nodes rest : List ν} (hv : g.Vouched ledger)
    (hask : ∀ before p after ledger₁, g.parts n = before ++ p :: after → g.Vouched ledger₁ →
      ledger ⊆ ledger₁ → (∀ q ∈ before, g.Covers ledger₁ q) →
      g.Explains room (chain ++ [n]) p (ask p ledger₁))
    (hgrow : ∀ p ledger, ledger ⊆ (ask p ledger).1) (hnodes : g.parts n = nodes ++ rest)
    (h : allOf ask nodes ledger = (ledger', .ok true)) :
    g.Vouched ledger' ∧ ledger ⊆ ledger' ∧ ∀ q ∈ nodes, g.Covers ledger' q := by
  refine allOf_induction
    (I := fun before ledger₁ =>
      g.Vouched ledger₁ ∧ ledger ⊆ ledger₁ ∧ ∀ q ∈ before, g.Covers ledger₁ q)
    ⟨hv, List.Subset.refl _, by simp⟩ ?_ h
  rintro before p after ledger₁ ledger₂ hsplit ⟨hv₁, hsub₁, hbefore⟩ hp
  have hex := hask before p (after ++ rest) ledger₁ (by simp [hnodes, hsplit]) hv₁ hsub₁ hbefore
  have hsub₂ := hgrow p ledger₁
  rw [hp] at hex hsub₂
  cases hex with
  | shared hv₂ hcov =>
    refine ⟨hv₂, List.Subset.trans hsub₁ hsub₂, fun q hq => ?_⟩
    rcases List.mem_append.mp hq with hq | hq
    · exact (hbefore q hq).mono hsub₂
    · obtain rfl := List.mem_singleton.mp hq
      exact hcov

omit [DecidableEq ν] in
/-- **One level of the walk.** Where the outcome of each part has its reason,
so has that of the struct. -/
theorem explains_of_parts (hn : g.standing n = .struct) (hv : g.Vouched ledger)
    (hask : ∀ before p after ledger₁, g.parts n = before ++ p :: after → g.Vouched ledger₁ →
      ledger ⊆ ledger₁ → (∀ q ∈ before, g.Covers ledger₁ q) →
      g.Explains room (chain ++ [n]) p (ask p ledger₁))
    (hgrow : ∀ p ledger, ledger ⊆ (ask p ledger).1) :
    g.Explains (room + 1) chain n (match allOf ask (g.parts n) ledger with
      | (ledger, .ok v) => (ledger ++ [(n, v)], .ok v)
      | fault => fault) := by
  rcases allOf_cases ask (g.parts n) ledger with
    ⟨ledger', hall⟩ | ⟨before, p, after, ledger₁, hparts, hbefore, hstop, hno⟩
  · -- all parts are covered, so the struct may be entered
    obtain ⟨hv', -, hcov⟩ := covers_of_allOf hv hask hgrow (List.append_nil _).symm hall
    obtain ⟨hv'', hn''⟩ := hv'.concat hn hcov
    rw [hall]
    exact .shared hv'' hn''
  · -- one part has the last word, behind parts that are covered
    obtain ⟨hv₁, hsub₁, hcov₁⟩ := covers_of_allOf hv hask hgrow hparts hbefore
    have hex := hask before p after ledger₁ hparts hv₁ hsub₁ hcov₁
    rw [hstop]
    rcases hanswer : ask p ledger₁ with ⟨ledger₂, fault | _ | _⟩ <;> rw [hanswer] at hex
    · exact hex.of_part
    · cases hex with
      | refused hp =>
        exact .refused (.part ⟨hn, before, after, hparts, fun q hq => (hcov₁ q hq).1⟩ hp)
    · exact absurd (congrArg Prod.snd hanswer) hno

end Parts

/-! ## Every outcome has its reason -/

omit [DecidableEq ν] in
theorem mem_of_lookup_eq_some [BEq ν] [LawfulBEq ν] {v : Bool} (h : ledger.lookup n = some v) :
    (n, v) ∈ ledger := by
  obtain ⟨front, back, rfl, -⟩ := List.lookup_eq_some_iff.mp h
  simp

omit [DecidableEq ν] in
theorem not_mem_of_lookup_eq_none [BEq ν] [LawfulBEq ν] (h : ledger.lookup n = none) (v : Bool) :
    (n, v) ∉ ledger := by
  intro hmem
  simpa using List.lookup_eq_none_iff.mp h _ hmem

omit [DecidableEq ν] in
theorem allOf_grows {ask : ν → Ledger ν → Ledger ν × Except (LayoutFault ν) Bool}
    (nodes : List ν) (hask : ∀ p ∈ nodes, ∀ ledger, ∃ new, (ask p ledger).1 = ledger ++ new ∧
      ∀ e ∈ new, g.Reaches p e.1) (ledger : Ledger ν) :
    ∃ new, (allOf ask nodes ledger).1 = ledger ++ new ∧
      ∀ e ∈ new, ∃ p ∈ nodes, g.Reaches p e.1 := by
  induction nodes generalizing ledger with
  | nil => exact ⟨[], by simp [allOf], by simp⟩
  | cons x rest ih =>
    obtain ⟨new₁, hnew₁, hreach₁⟩ := hask x (by simp) ledger
    have hfirst : ∀ e ∈ new₁, ∃ p ∈ x :: rest, g.Reaches p e.1 := fun e he =>
      ⟨x, by simp, hreach₁ e he⟩
    rw [allOf]
    rcases hx : ask x ledger with ⟨ledger₁, fault | _ | _⟩ <;> rw [hx] at hnew₁
    · exact ⟨new₁, hnew₁, hfirst⟩
    · exact ⟨new₁, hnew₁, hfirst⟩
    · obtain ⟨new₂, hnew₂, hreach₂⟩ := ih (fun p hp => hask p (by simp [hp])) ledger₁
      obtain rfl : ledger₁ = ledger ++ new₁ := hnew₁
      refine ⟨new₁ ++ new₂, by rw [← List.append_assoc]; exact hnew₂, fun e he => ?_⟩
      rcases List.mem_append.mp he with he | he
      · exact hfirst e he
      · obtain ⟨p, hp, hpe⟩ := hreach₂ e he
        exact ⟨p, by simp [hp], hpe⟩

/-- Entries are only added, and only for what the examined type reaches. -/
theorem examine_grows (room : ℕ) (chain : List ν) (n : ν) (ledger : Ledger ν) :
    ∃ new, (g.examine room chain n ledger).1 = ledger ++ new ∧ ∀ e ∈ new, g.Reaches n e.1 := by
  cases hn : g.standing n with
  | settled v => exact ⟨[], by simp [examine_of_settled hn], by simp⟩
  | struct =>
    cases hentry : ledger.lookup n with
    | some v => exact ⟨[], by simp [examine_of_entry hn hentry], by simp⟩
    | none =>
      by_cases hmem : n ∈ chain
      · exact ⟨[], by simp [examine_of_mem_chain hn hentry hmem], by simp⟩
      · cases room with
        | zero => exact ⟨[], by simp [examine_zero hn hentry hmem], by simp⟩
        | succ room =>
          obtain ⟨new, hnew, hreach⟩ := allOf_grows (g.parts n)
            (fun p _ ledger => examine_grows room (chain ++ [n]) p ledger) ledger
          have hbelow : ∀ e ∈ new, g.Reaches n e.1 := fun e he => by
            obtain ⟨p, hp, hpe⟩ := hreach e he
            exact .head ⟨hn, hp⟩ hpe
          rw [examine_succ hn hentry hmem]
          rcases hall : allOf (g.examine room (chain ++ [n])) (g.parts n) ledger with
            ⟨ledger₁, fault | v⟩ <;> rw [hall] at hnew
          · exact ⟨new, hnew, hbelow⟩
          · obtain rfl : ledger₁ = ledger ++ new := hnew
            refine ⟨new ++ [(n, v)], List.append_assoc _ _ _, fun e he => ?_⟩
            rcases List.mem_append.mp he with he | he
            · exact hbelow e he
            · obtain rfl := List.mem_singleton.mp he
              exact .refl

theorem examine_subset (room : ℕ) (chain : List ν) (n : ν) (ledger : Ledger ν) :
    ledger ⊆ (g.examine room chain n ledger).1 := by
  obtain ⟨new, hnew, -⟩ := g.examine_grows room chain n ledger
  exact hnew ▸ List.subset_append_left _ _

omit [DecidableEq ν] in
/-- What the trail ends in, if it is on the chain, is where the way round
begins. -/
theorem dropWhile_ne [DecidableEq ν] {above below : List ν} (h : n ∉ above) :
    (above ++ n :: below).dropWhile (· ≠ n) = n :: below := by
  rw [List.dropWhile_append_of_pos, List.dropWhile_cons_of_neg]
  · simp
  · intro a ha
    simpa using ne_of_mem_of_not_mem ha h

/-- **Every outcome has its reason.** From a ledger that is vouched for and a
trail to the type, the outcome is explained. The recursion is that of the
walk, and the parts are taken in the order in which it asks them. -/
theorem examine_explains (room : ℕ) (chain : List ν) (n : ν) (ledger : Ledger ν)
    (hv : g.Vouched ledger) (htrail : g.Trail ledger chain n) :
    g.Explains room chain n (g.examine room chain n ledger) := by
  cases hn : g.standing n with
  | settled v =>
    rw [examine_of_settled hn]
    cases v with
    | true => exact .shared hv (covers_of_settled hn)
    | false => exact .refused (.settled hn)
  | struct =>
    cases hentry : ledger.lookup n with
    | some v =>
      have hn' := hv _ (mem_of_lookup_eq_some hentry)
      rw [examine_of_entry hn hentry]
      -- an entry is a yes, and it covers what it names
      obtain rfl : v = true := hn'.1
      exact .shared hv hn'.2
    | none =>
      by_cases hmem : n ∈ chain
      · rw [examine_of_mem_chain hn hentry hmem]
        obtain ⟨above, below, rfl, habove⟩ := List.eq_append_cons_of_mem hmem
        -- the trail ends where it has been before
        rw [dropWhile_ne habove]
        exact .cycle hv htrail (List.prefix_refl _)
      · cases room with
        | zero =>
          rw [examine_zero hn hentry hmem]
          exact .tooDeep hv htrail hmem (by simp) (List.prefix_refl _) hn
            (not_mem_of_lookup_eq_none hentry)
        | succ room =>
          rw [examine_succ hn hentry hmem]
          refine explains_of_parts hn hv (fun before p after ledger₁ hparts hv₁ hsub hbefore => ?_)
            (g.examine_subset room (chain ++ [n]))
          -- each part is examined behind a trail of its own
          exact examine_explains room (chain ++ [n]) p ledger₁ hv₁
            ((htrail.mono hsub).part hmem ⟨hn, before, after, hparts, hbefore⟩)

/-- So has the outcome of each part of a struct on the way, once the parts
before it are covered. -/
theorem examine_explains_part (room : ℕ) (htrail : g.Trail ledger chain n)
    (hn : g.standing n = .struct) (hfresh : n ∉ chain) (before : List ν) (p : ν) (after : List ν)
    (ledger₁ : Ledger ν) (hparts : g.parts n = before ++ p :: after) (hv₁ : g.Vouched ledger₁)
    (hsub : ledger ⊆ ledger₁) (hbefore : ∀ q ∈ before, g.Covers ledger₁ q) :
    g.Explains room (chain ++ [n]) p (g.examine room (chain ++ [n]) p ledger₁) :=
  g.examine_explains room (chain ++ [n]) p ledger₁ hv₁
    ((htrail.mono hsub).part hfresh ⟨hn, before, after, hparts, hbefore⟩)

end Graph

end Managed

end TypeBridge
