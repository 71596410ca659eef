import TypeBridge.Proofs.Layout.Outcome
import TypeBridge.Settings
/-!
# TypeBridge — the ledger changes no outcome

`Graph.examineAfresh` is the walk without a ledger: it examines a struct each
time it meets one. Unless it gives up, the walk with the ledger has the same
outcome, down to the members of a cycle. The ledger only skips structs that
are shared, and a shared struct has no way back to the chain, whichever chain
it is met behind.

The converse fails in one place only: a struct that was entered early may
come up again too far inside, where the walk without a ledger gives up.
-/

namespace TypeBridge

namespace Managed

namespace Graph

variable {ν : Type} {g : Graph ν} {n : ν} {chain : List ν} {room : ℕ} {ledger : Ledger ν}

/-! ## The walk without a ledger -/

/-- Puts a question to some nodes in turn until one is answered with no or
not at all. -/
def allAfresh (ask : ν → Except (LayoutFault ν) Bool) : List ν → Except (LayoutFault ν) Bool
  | [] => .ok true
  | node :: rest =>
    match ask node with
    | .ok true => allAfresh ask rest
    | answer => answer

variable [DecidableEq ν]

/-- Decides a node inside a chain of structs, with room for a number of
further ones, and remembers nothing. -/
def examineAfresh (g : Graph ν) (room : ℕ) (chain : List ν) (node : ν) :
    Except (LayoutFault ν) Bool :=
  match g.standing node with
  | .settled verdict => .ok verdict
  | .struct =>
    if node ∈ chain then
      .error (.cycle (chain.dropWhile (· ≠ node) ++ [node]))
    else
      match room with
      | 0 => .error (.tooDeep (chain.headD node) node)
      | room + 1 => allAfresh (g.examineAfresh room (chain ++ [node])) (g.parts node)

/-- Whether a type has the same layout on both sides, by the walk without a
ledger. -/
def decideAfresh (g : Graph ν) (node : ν) : Except (LayoutFault ν) Bool :=
  g.examineAfresh nestingLimit [] node

/-! ## Its equations -/

omit [DecidableEq ν] in
theorem allAfresh_cons_yes {ask : ν → Except (LayoutFault ν) Bool} {rest : List ν}
    (h : ask n = .ok true) : allAfresh ask (n :: rest) = allAfresh ask rest := by
  rw [allAfresh, h]

omit [DecidableEq ν] in
theorem allAfresh_cons_stop {ask : ν → Except (LayoutFault ν) Bool} {rest : List ν}
    (h : ask n ≠ .ok true) : allAfresh ask (n :: rest) = ask n := by
  rw [allAfresh]
  rcases hn : ask n with fault | _ | _
  · rfl
  · rfl
  · exact absurd hn h

omit [DecidableEq ν] in
/-- The questions after a list of them count once all of the list is answered
with yes. -/
theorem allAfresh_append {ask : ν → Except (LayoutFault ν) Bool} (xs ys : List ν) :
    allAfresh ask (xs ++ ys) = match allAfresh ask xs with
      | .ok true => allAfresh ask ys
      | answer => answer := by
  induction xs with
  | nil => rfl
  | cons x xs ih =>
    by_cases hx : ask x = .ok true
    · rw [List.cons_append, allAfresh_cons_yes hx, allAfresh_cons_yes hx, ih]
    · rw [List.cons_append, allAfresh_cons_stop hx, allAfresh_cons_stop hx]
      rcases hanswer : ask x with fault | _ | _
      · rfl
      · rfl
      · exact absurd hanswer hx

theorem examineAfresh_of_settled {v : Bool} (hn : g.standing n = .settled v) :
    g.examineAfresh room chain n = .ok v := by
  rw [examineAfresh.eq_def, hn]

theorem examineAfresh_of_mem_chain (hn : g.standing n = .struct) (hmem : n ∈ chain) :
    g.examineAfresh room chain n = .error (.cycle (chain.dropWhile (· ≠ n) ++ [n])) := by
  rw [examineAfresh.eq_def, hn]
  simp only [if_pos hmem]

theorem examineAfresh_zero (hn : g.standing n = .struct) (hfresh : n ∉ chain) :
    g.examineAfresh 0 chain n = .error (.tooDeep (chain.headD n) n) := by
  rw [examineAfresh.eq_def, hn]
  simp only [if_neg hfresh]

theorem examineAfresh_succ (hn : g.standing n = .struct) (hfresh : n ∉ chain) :
    g.examineAfresh (room + 1) chain n =
      allAfresh (g.examineAfresh room (chain ++ [n])) (g.parts n) := by
  rw [examineAfresh.eq_def, hn]
  simp only [if_neg hfresh]

/-! ## A shared struct, met again -/

omit [DecidableEq ν] in
/-- Yes to each is yes to all, as long as none gives up. -/
theorem allAfresh_of_forall {ask : ν → Except (LayoutFault ν) Bool} (nodes : List ν)
    (hask : ∀ p ∈ nodes, ¬ GivesUp (ask p) → ask p = .ok true)
    (hdeep : ¬ GivesUp (allAfresh ask nodes)) : allAfresh ask nodes = .ok true := by
  induction nodes with
  | nil => rfl
  | cons p rest ih =>
    have hp : ask p = .ok true := by
      by_contra hno
      rw [allAfresh_cons_stop hno] at hdeep
      exact hno (hask p (by simp) hdeep)
    rw [allAfresh_cons_yes hp] at hdeep ⊢
    exact ih (fun q hq => hask q (by simp [hq])) hdeep

/-- **A shared struct is shared behind any chain**: examined again it finds no
way back and no other verdict. The induction is on why it is shared. -/
theorem examineAfresh_of_shared (hn : g.Shared n) (hchain : (chain ++ [n]).IsChain g.Holds)
    (hdeep : ¬ GivesUp (g.examineAfresh room chain n)) :
    g.examineAfresh room chain n = .ok true := by
  induction hn generalizing room chain with
  | settled hn => exact examineAfresh_of_settled hn
  | @struct n hn hparts ih =>
    -- on the chain, the struct would contain itself
    have hfresh : n ∉ chain := fun hmem => by
      obtain ⟨front, back, rfl⟩ := List.append_of_mem hmem
      exact (Shared.struct hn hparts).not_containsItself (transGen_getLast hchain)
    cases room with
    | zero => exact absurd ⟨_, _, examineAfresh_zero hn hfresh⟩ hdeep
    | succ room =>
      rw [examineAfresh_succ hn hfresh] at hdeep ⊢
      refine allAfresh_of_forall (g.parts n) (fun p hp hpdeep => ih p hp ?_ hpdeep) hdeep
      exact hchain.append (List.isChain_singleton p) (by simp [Holds, hn, hp])

/-! ## The two walks side by side -/

/-- The parts of a struct have one outcome in both walks, where each part has.
Those that said yes are covered, so they are shared and say yes afresh. -/
theorem allOf_eq_allAfresh {room : ℕ} (hv : g.Vouched ledger) (htrail : g.Trail ledger chain n)
    (hn : g.standing n = .struct) (hfresh : n ∉ chain)
    (hpart : ∀ before p after ledger₁, g.parts n = before ++ p :: after → g.Vouched ledger₁ →
      ledger ⊆ ledger₁ → (∀ q ∈ before, g.Covers ledger₁ q) →
      ¬ GivesUp (g.examineAfresh room (chain ++ [n]) p) →
      (g.examine room (chain ++ [n]) p ledger₁).2 = g.examineAfresh room (chain ++ [n]) p)
    (hdeep : ¬ GivesUp (allAfresh (g.examineAfresh room (chain ++ [n])) (g.parts n))) :
    (allOf (g.examine room (chain ++ [n])) (g.parts n) ledger).2 =
      allAfresh (g.examineAfresh room (chain ++ [n])) (g.parts n) := by
  have hask := g.examine_explains_part room htrail hn hfresh
  have hgrow := g.examine_subset room (chain ++ [n])
  have hchain := htrail.steps.imp fun _ _ hab => StepPast.holds hab
  -- a shared part says yes afresh, whatever was known when it was asked
  have hyes : ∀ q ∈ g.parts n, g.Shared q → ¬ GivesUp (g.examineAfresh room (chain ++ [n]) q) →
      g.examineAfresh room (chain ++ [n]) q = .ok true := fun q hq hshared hqdeep =>
    examineAfresh_of_shared hshared
      (hchain.append (List.isChain_singleton q) (by simp [Holds, hn, hq])) hqdeep
  rcases allOf_cases (g.examine room (chain ++ [n])) (g.parts n) ledger with
    ⟨ledger', hall⟩ | ⟨before, p, after, ledger₁, hparts, hbefore, hstop, hno⟩
  · obtain ⟨-, -, hcov⟩ := covers_of_allOf hv hask hgrow (List.append_nil _).symm hall
    rw [hall, allAfresh_of_forall (g.parts n) (fun q hq => hyes q hq (hcov q hq).1) hdeep]
  · obtain ⟨hv₁, hsub, hcov⟩ := covers_of_allOf hv hask hgrow hparts hbefore
    rw [hstop]
    rw [hparts, allAfresh_append] at hdeep ⊢
    have hfront : allAfresh (g.examineAfresh room (chain ++ [n])) before = .ok true := by
      refine allAfresh_of_forall before (fun q hq => hyes q (by simp [hparts, hq]) (hcov q hq).1) ?_
      rintro ⟨outermost, innermost, hgives⟩
      exact hdeep ⟨outermost, innermost, by rw [hgives]⟩
    simp only [hfront] at hdeep ⊢
    have hpdeep : ¬ GivesUp (g.examineAfresh room (chain ++ [n]) p) := by
      rintro ⟨outermost, innermost, hgives⟩
      rw [allAfresh_cons_stop (by simp [hgives])] at hdeep
      exact hdeep ⟨outermost, innermost, hgives⟩
    have hp := hpart before p after ledger₁ hparts hv₁ hsub hcov hpdeep
    rw [allAfresh_cons_stop (hp ▸ hno), hp]

/-- **The walks agree** from any ledger that is vouched for, behind any trail:
what the ledger knows is what examining again would find. -/
theorem examine_eq_examineAfresh (room : ℕ) (chain : List ν) (n : ν) (ledger : Ledger ν)
    (hv : g.Vouched ledger) (htrail : g.Trail ledger chain n)
    (hdeep : ¬ GivesUp (g.examineAfresh room chain n)) :
    (g.examine room chain n ledger).2 = g.examineAfresh room chain n := by
  cases hn : g.standing n with
  | settled v => rw [examine_of_settled hn, examineAfresh_of_settled hn]
  | struct =>
    cases hentry : ledger.lookup n with
    | some v =>
      -- the entry is what examining the struct once more would find
      obtain ⟨rfl, hcov⟩ : v = true ∧ g.Covers ledger n := hv _ (mem_of_lookup_eq_some hentry)
      have hchain := htrail.steps.imp fun _ _ hab => StepPast.holds hab
      rw [examine_of_entry hn hentry, examineAfresh_of_shared hcov.1 hchain hdeep]
    | none =>
      by_cases hmem : n ∈ chain
      · rw [examine_of_mem_chain hn hentry hmem, examineAfresh_of_mem_chain hn hmem]
      · cases room with
        | zero => rw [examine_zero hn hentry hmem, examineAfresh_zero hn hmem]
        | succ room =>
          rw [examineAfresh_succ hn hmem] at hdeep ⊢
          have hparts := allOf_eq_allAfresh hv htrail hn hmem
            (fun before p after ledger₁ hsplit hv₁ hsub hcov hpdeep =>
              examine_eq_examineAfresh room (chain ++ [n]) p ledger₁ hv₁
                ((htrail.mono hsub).part hmem ⟨hn, before, after, hsplit, hcov⟩) hpdeep) hdeep
          rw [examine_succ hn hentry hmem, ← hparts]
          rcases allOf (g.examine room (chain ++ [n])) (g.parts n) ledger with ⟨ledger₁, fault | v⟩
          · rfl
          · rfl

end Graph

namespace Universe

/-- **The ledger changes no outcome.** Unless the walk without a ledger gives
up, the decision is the one it comes to, with the same members of a cycle.
Where the decision is given up, so is the walk without a ledger. -/
theorem hasSharedLayout_eq_decideAfresh (u : Universe) (settings : Settings) (n : FactId) :
    (¬ Graph.GivesUp ((u.layoutGraph settings.enumBase).decideAfresh n) →
      (u.layoutGraph settings.enumBase).hasSharedLayout n =
        (u.layoutGraph settings.enumBase).decideAfresh n) ∧
    (Graph.GivesUp ((u.layoutGraph settings.enumBase).hasSharedLayout n) →
      Graph.GivesUp ((u.layoutGraph settings.enumBase).decideAfresh n)) := by
  have hsame : ¬ Graph.GivesUp ((u.layoutGraph settings.enumBase).decideAfresh n) →
      (u.layoutGraph settings.enumBase).hasSharedLayout n =
        (u.layoutGraph settings.enumBase).decideAfresh n :=
    Graph.examine_eq_examineAfresh nestingLimit [] n [] Graph.vouched_nil Graph.trail_nil
  refine ⟨hsame, fun hgives => ?_⟩
  by_contra hdeep
  rw [hsame hdeep] at hgives
  exact hdeep hgives

end Universe

end Managed

end TypeBridge
