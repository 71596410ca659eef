import TypeBridge.Journal
import TypeBridge.Proofs.Layout.Outcome
/-!
# TypeBridge — the order of the verdicts

A verdict is told when it is reached, so what a run tells of a layout is the
ledger of the walk. A struct is entered at most once (`examine_enters`): the
walk does not examine a struct with an entry, and one that it is inside of is
not entered before the walk is out again.

The verdicts come from the inside out (`examine_recorded`). As long as they are
yeses each one stands behind those on the structs it depends on, and the first
no is passed on outwards by one struct after the other, with nothing in between.
-/

namespace TypeBridge

namespace Managed

namespace Graph

variable {ν : Type} {g : Graph ν} {n m p : ν} {chain nodes noes : List ν} {room : ℕ}
variable {ledger ledger' new more before after : Ledger ν} {v : Bool}

/-! ## Each struct once -/

/-- New entries behind a ledger, each for a struct of its own that is not on the
chain and had no entry. -/
structure Enters (g : Graph ν) (chain : List ν) (ledger new : Ledger ν) : Prop where
  nodup : (new.map Prod.fst).Nodup
  struct : ∀ e ∈ new, g.standing e.1 = .struct
  off : ∀ e ∈ new, e.1 ∉ chain
  fresh : ∀ e ∈ new, ∀ v, (e.1, v) ∉ ledger

theorem enters_nil : g.Enters chain ledger [] :=
  ⟨List.nodup_nil, by simp, by simp, by simp⟩

/-- Entries behind new entries are new as well. -/
theorem Enters.append (h : g.Enters chain ledger new)
    (h' : g.Enters chain (ledger ++ new) more) : g.Enters chain ledger (new ++ more) := by
  refine ⟨?_, fun e he => ?_, fun e he => ?_, fun e he v hmem => ?_⟩
  · rw [List.map_append, List.nodup_append]
    refine ⟨h.nodup, h'.nodup, ?_⟩
    -- a struct with an entry among the first ones is not entered again
    rintro _ ha _ hb rfl
    obtain ⟨e, he, hea⟩ := List.mem_map.mp ha
    obtain ⟨e', he', rfl⟩ := List.mem_map.mp hb
    refine h'.fresh e' he' e.2 (List.mem_append_right _ ?_)
    rwa [← hea]
  · exact (List.mem_append.mp he).elim (h.struct e) (h'.struct e)
  · exact (List.mem_append.mp he).elim (h.off e) (h'.off e)
  · rcases List.mem_append.mp he with he | he
    · exact h.fresh e he v hmem
    · exact h'.fresh e he v (List.mem_append_left _ hmem)

/-- What is entered inside a struct is new outside it. -/
theorem Enters.outside (h : g.Enters (chain ++ [n]) ledger new) : g.Enters chain ledger new :=
  ⟨h.nodup, h.struct, fun e he hmem => h.off e he (List.mem_append_left _ hmem), h.fresh⟩

/-- The struct itself is entered last, since it was on the chain before. -/
theorem Enters.concat (h : g.Enters (chain ++ [n]) ledger new) (hn : g.standing n = .struct)
    (hoff : n ∉ chain) (hfree : ∀ v, (n, v) ∉ ledger) (v : Bool) :
    g.Enters chain ledger (new ++ [(n, v)]) := by
  refine h.outside.append ⟨by simp, by simpa using hn, by simpa using hoff, ?_⟩
  rintro _ he w hmem
  obtain rfl := List.mem_singleton.mp he
  rcases List.mem_append.mp hmem with hmem | hmem
  · exact hfree w hmem
  · exact h.off _ hmem (by simp)

theorem allOf_enters {ask : ν → Ledger ν → Ledger ν × Except (LayoutFault ν) Bool}
    (hask : ∀ p ledger, ∃ new, (ask p ledger).1 = ledger ++ new ∧ g.Enters chain ledger new)
    (nodes : List ν) (ledger : Ledger ν) :
    ∃ new, (allOf ask nodes ledger).1 = ledger ++ new ∧ g.Enters chain ledger new := by
  induction nodes generalizing ledger with
  | nil => exact ⟨[], by simp [allOf], enters_nil⟩
  | cons p rest ih =>
    obtain ⟨new, hnew, henters⟩ := hask p ledger
    rw [allOf]
    rcases hp : ask p ledger with ⟨ledger₁, fault | _ | _⟩ <;> rw [hp] at hnew
    · exact ⟨new, hnew, henters⟩
    · exact ⟨new, hnew, henters⟩
    · obtain rfl : ledger₁ = ledger ++ new := hnew
      obtain ⟨more, hmore, henters'⟩ := ih (ledger ++ new)
      exact ⟨new ++ more, by rw [← List.append_assoc]; exact hmore, henters.append henters'⟩

variable [DecidableEq ν]

/-- **No struct is entered twice**, whatever the outcome is. -/
theorem examine_enters (room : ℕ) (chain : List ν) (n : ν) (ledger : Ledger ν) :
    ∃ new, (g.examine room chain n ledger).1 = ledger ++ new ∧ g.Enters chain ledger new := by
  cases hn : g.standing n with
  | settled v => exact ⟨[], by simp [examine_of_settled hn], enters_nil⟩
  | struct =>
    cases hentry : ledger.lookup n with
    | some v => exact ⟨[], by simp [examine_of_entry hn hentry], enters_nil⟩
    | none =>
      by_cases hmem : n ∈ chain
      · exact ⟨[], by simp [examine_of_mem_chain hn hentry hmem], enters_nil⟩
      · cases room with
        | zero => exact ⟨[], by simp [examine_zero hn hentry hmem], enters_nil⟩
        | succ room =>
          obtain ⟨new, hnew, henters⟩ := allOf_enters
            (fun p ledger => examine_enters room (chain ++ [n]) p ledger) (g.parts n) ledger
          rw [examine_succ hn hentry hmem]
          rcases hall : allOf (g.examine room (chain ++ [n])) (g.parts n) ledger with
            ⟨ledger₁, fault | v⟩ <;> rw [hall] at hnew
          · exact ⟨new, hnew, henters.outside⟩
          · obtain rfl : ledger₁ = ledger ++ new := hnew
            exact ⟨new ++ [(n, v)], List.append_assoc _ _ _,
              henters.concat hn hmem (not_mem_of_lookup_eq_none hentry) v⟩

/-- A struct that gets its answer from its parts is entered with it at the end. -/
theorem getLast?_of_examine (hn : g.standing n = .struct) (hentry : ledger.lookup n = none)
    (hoff : n ∉ chain) (h : g.examine (room + 1) chain n ledger = (ledger', .ok v)) :
    ledger'.getLast? = some (n, v) := by
  rw [examine_succ hn hentry hoff] at h
  rcases hall : allOf (g.examine room (chain ++ [n])) (g.parts n) ledger with
    ⟨ledger₁, fault | v'⟩ <;> rw [hall] at h
  · cases h
  · obtain ⟨hledger, hv⟩ := Prod.mk.inj h
    rw [← hledger, ← Except.ok.inj hv, List.getLast?_concat]

/-! ## From the inside out -/

omit [DecidableEq ν]

/-- A ledger of yeses, each behind those on the structs among its parts. -/
inductive InnerFirst (g : Graph ν) : Ledger ν → Prop
  | nil : InnerFirst g []
  | concat {ledger : Ledger ν} {n : ν} : InnerFirst g ledger →
      (∀ p ∈ g.parts n, g.standing p = .struct → (p, true) ∈ ledger) →
      InnerFirst g (ledger ++ [(n, true)])

/-- An entry is a yes, and what it depends on is entered before it. -/
theorem InnerFirst.of_split (h : g.InnerFirst ledger) (hsplit : ledger = before ++ (m, v) :: after) :
    v = true ∧ ∀ p ∈ g.parts m, g.standing p = .struct → (p, true) ∈ before := by
  induction h generalizing after with
  | nil => simp at hsplit
  | @concat ledger n _ hparts ih =>
    rcases List.eq_nil_or_concat' after with rfl | ⟨after, e, rfl⟩
    · obtain ⟨rfl, rfl, rfl⟩ : ledger = before ∧ n = m ∧ true = v := by simpa using hsplit
      exact ⟨rfl, hparts⟩
    · rw [← List.cons_append, ← List.append_assoc] at hsplit
      exact ih (List.append_inj_left' hsplit rfl)

theorem InnerFirst.eq_true (h : g.InnerFirst ledger) {e : ν × Bool} (he : e ∈ ledger) :
    e.2 = true := by
  obtain ⟨before, after, hsplit⟩ := List.append_of_mem he
  exact (h.of_split hsplit).1

/-- So the ledger is told by its structs. -/
theorem InnerFirst.eq_map (h : g.InnerFirst ledger) :
    ledger = (ledger.map Prod.fst).map (·, true) := by
  rw [List.map_map]
  refine (List.map_id ledger).symm.trans (List.map_congr_left fun e he => ?_)
  exact Prod.ext rfl (h.eq_true he)

/-- Structs of which each one passes a no on to the next, from one that a type
of the managed side alone is a part of, out to a given type. -/
def PassOn (g : Graph ν) (noes : List ν) (n : ν) : Prop :=
  ∃ m, g.standing m = .settled false ∧
    (m :: noes).IsChain (fun inner outer => g.Holds outer inner) ∧ (m :: noes).getLast? = some n

theorem passOn_nil (hn : g.standing n = .settled false) : g.PassOn [] n :=
  ⟨n, hn, List.isChain_singleton n, rfl⟩

theorem PassOn.concat (h : g.PassOn noes p) (hp : g.Holds n p) : g.PassOn (noes ++ [n]) n := by
  obtain ⟨m, hm, hchain, hlast⟩ := h
  refine ⟨m, hm, hchain.append (List.isChain_singleton n) ?_, ?_⟩
  · simpa [hlast] using hp
  · rw [← List.cons_append, List.getLast?_concat]

/-- A struct is the last one that passes the no on. -/
theorem PassOn.getLast?_eq (h : g.PassOn noes n) (hn : g.standing n = .struct) :
    noes.getLast? = some n := by
  obtain ⟨m, hm, -, hlast⟩ := h
  cases noes with
  | nil =>
    obtain rfl : m = n := by simpa using hlast
    rw [hn] at hm
    cases hm
  | cons a noes => rwa [List.getLast?_cons_cons] at hlast

/-- A ledger by its outcome: yeses from the inside out, and then, if the answer
is no, the structs that pass it on. -/
inductive Recorded (g : Graph ν) (n : ν) : Ledger ν × Except (LayoutFault ν) Bool → Prop
  | shared {ledger : Ledger ν} : g.InnerFirst ledger → Recorded g n (ledger, .ok true)
  | refused {ledger : Ledger ν} {noes : List ν} : g.InnerFirst ledger → g.PassOn noes n →
      Recorded g n (ledger ++ noes.map (·, false), .ok false)
  | fault {ledger : Ledger ν} {fault : LayoutFault ν} : g.InnerFirst ledger →
      Recorded g n (ledger, .error fault)

section Parts

variable {ask : ν → Ledger ν → Ledger ν × Except (LayoutFault ν) Bool}

/-- Yeses up to a part leave the ledger in order. -/
theorem innerFirst_of_allOf {rest : List ν} (hin : g.InnerFirst ledger)
    (hask : ∀ before p after ledger₁, g.parts n = before ++ p :: after →
      allOf ask before ledger = (ledger₁, .ok true) → g.InnerFirst ledger₁ →
      g.Recorded p (ask p ledger₁))
    (hnodes : g.parts n = nodes ++ rest) (h : allOf ask nodes ledger = (ledger', .ok true)) :
    g.InnerFirst ledger' := by
  refine (allOf_induction (I := fun before ledger₁ =>
    allOf ask before ledger = (ledger₁, .ok true) ∧ g.InnerFirst ledger₁) ⟨rfl, hin⟩ ?_ h).2
  rintro before p after ledger₁ ledger₂ hsplit ⟨hbefore, hin₁⟩ hp
  have hrecorded := hask before p (after ++ rest) ledger₁ (by simp [hnodes, hsplit]) hbefore hin₁
  rw [hp] at hrecorded
  refine ⟨by rw [allOf_append, hbefore]; simp [allOf, hp], ?_⟩
  cases hrecorded with
  | shared hin₂ => exact hin₂

/-- **One level of the walk.** The struct is entered behind its parts, or it
passes on the no of the first part that is refused. -/
theorem recorded_of_parts (hn : g.standing n = .struct) (hin : g.InnerFirst ledger)
    (hask : ∀ before p after ledger₁, g.parts n = before ++ p :: after →
      allOf ask before ledger = (ledger₁, .ok true) → g.InnerFirst ledger₁ →
      g.Recorded p (ask p ledger₁))
    (hcovers : ∀ ledger₁, allOf ask (g.parts n) ledger = (ledger₁, .ok true) →
      ∀ p ∈ g.parts n, g.Covers ledger₁ p) :
    g.Recorded n (match allOf ask (g.parts n) ledger with
      | (ledger, .ok v) => (ledger ++ [(n, v)], .ok v)
      | fault => fault) := by
  rcases allOf_cases ask (g.parts n) ledger with
    ⟨ledger', hall⟩ | ⟨before, p, after, ledger₁, hparts, hbefore, hstop, hno⟩
  · have hin' := innerFirst_of_allOf hin hask (List.append_nil _).symm hall
    rw [hall]
    exact .shared (hin'.concat fun p hp hstruct => (hcovers ledger' hall p hp).2 p .refl hstruct)
  · have hin₁ := innerFirst_of_allOf hin hask hparts hbefore
    have hrecorded := hask before p after ledger₁ hparts hbefore hin₁
    have hp : g.Holds n p := ⟨hn, by simp [hparts]⟩
    rw [hstop]
    generalize ask p ledger₁ = answer at hno hrecorded ⊢
    cases hrecorded with
    | shared => exact absurd rfl hno
    | fault hin₂ => exact .fault hin₂
    | @refused ledger₂ noes hin₂ hpass =>
      have hledger : ledger₂ ++ noes.map (·, false) ++ [(n, false)] =
          ledger₂ ++ (noes ++ [n]).map (·, false) := by simp
      simp only [hledger]
      exact .refused hin₂ (hpass.concat hp)

end Parts

variable [DecidableEq ν]

/-- **Verdicts come from the inside out.** The recursion is that of the walk,
and the ledger and the trail are those of its other invariants. -/
theorem examine_recorded (room : ℕ) (chain : List ν) (n : ν) (ledger : Ledger ν)
    (hv : g.Vouched ledger) (htrail : g.Trail ledger chain n) (hin : g.InnerFirst ledger) :
    g.Recorded n (g.examine room chain n ledger) := by
  cases hn : g.standing n with
  | settled v =>
    rw [examine_of_settled hn]
    cases v with
    | true => exact .shared hin
    | false => simpa using Recorded.refused hin (passOn_nil hn)
  | struct =>
    cases hentry : ledger.lookup n with
    | some v =>
      rw [examine_of_entry hn hentry]
      obtain rfl : v = true := (hv _ (mem_of_lookup_eq_some hentry)).1
      exact .shared hin
    | none =>
      by_cases hmem : n ∈ chain
      · rw [examine_of_mem_chain hn hentry hmem]
        exact .fault hin
      · cases room with
        | zero =>
          rw [examine_zero hn hentry hmem]
          exact .fault hin
        | succ room =>
          have hask := g.examine_explains_part room htrail hn hmem
          have hgrow := g.examine_subset room (chain ++ [n])
          rw [examine_succ hn hentry hmem]
          refine recorded_of_parts hn hin (fun before p after ledger₁ hparts hbefore hin₁ => ?_)
            fun ledger₁ hall => (covers_of_allOf hv hask hgrow (List.append_nil _).symm hall).2.2
          obtain ⟨hv₁, hsub, hcov⟩ := covers_of_allOf hv hask hgrow hparts hbefore
          exact examine_recorded room (chain ++ [n]) p ledger₁ hv₁
            ((htrail.mono hsub).part hmem ⟨hn, before, after, hparts, hcov⟩) hin₁

/-! ## One examination from the start -/

theorem survey_enters (g : Graph ν) (n : ν) : g.Enters [] [] (g.survey n).1 := by
  obtain ⟨new, hnew, henters⟩ := g.examine_enters nestingLimit [] n []
  exact hnew ▸ henters

theorem survey_reaches (g : Graph ν) (n : ν) : ∀ e ∈ (g.survey n).1, g.Reaches n e.1 := by
  obtain ⟨new, hnew, hreach⟩ := g.examine_grows nestingLimit [] n []
  exact hnew ▸ hreach

theorem survey_recorded (g : Graph ν) (n : ν) : g.Recorded n (g.survey n) :=
  g.examine_recorded nestingLimit [] n [] vouched_nil trail_nil .nil

end Graph

namespace Universe

variable {u : Universe} {enumBase : Option String}

/-- The log of one examination of a struct, if the answer is yes: the structs
that the type reaches, each behind those it holds and the type itself last. -/
structure AllShared (u : Universe) (enumBase : Option String) (n : FactId)
    (ledger : Ledger FactId) : Prop where
  mem_iff : ∀ m v, (m, v) ∈ ledger ↔
    v = true ∧ u.Reaches enumBase n m ∧ (u.fact m).IsStruct enumBase
  inner_first : ∀ before m after, ledger = before ++ (m, true) :: after →
    ∀ p, u.Holds enumBase m p → (u.fact p).IsStruct enumBase → (p, true) ∈ before
  last : ledger.getLast? = some (n, true)

/-- A log with a yes is that of a struct that is shared with all in it. -/
theorem allShared_of_survey {n : FactId} {ledger : Ledger FactId}
    (hn : (u.fact n).IsStruct enumBase)
    (h : (u.layoutGraph enumBase).survey n = (ledger, .ok true)) :
    u.AllShared enumBase n ledger := by
  have hstruct : (u.layoutGraph enumBase).standing n = .struct := Fact.standing_eq_struct_iff.mpr hn
  have hexplains := (u.layoutGraph enumBase).survey_explains n
  have hrecorded := (u.layoutGraph enumBase).survey_recorded n
  have henters := (u.layoutGraph enumBase).survey_enters n
  have hgrows := (u.layoutGraph enumBase).survey_reaches n
  rw [h] at hexplains hrecorded henters hgrows
  cases hexplains with
  | shared _ hcov =>
    cases hrecorded with
    | shared hin =>
      refine ⟨fun m v => ⟨fun hmem => ?_, ?_⟩, fun before m after hsplit p hp hps => ?_, ?_⟩
      · exact ⟨hin.eq_true hmem, reaches_layoutGraph ▸ hgrows _ hmem,
          Fact.standing_eq_struct_iff.mp (henters.struct _ hmem)⟩
      · rintro ⟨rfl, hreach, hm⟩
        exact hcov.2 m (reaches_layoutGraph ▸ hreach) (Fact.standing_eq_struct_iff.mpr hm)
      · rw [← holds_layoutGraph] at hp
        exact (hin.of_split hsplit).2 p hp.2 (Fact.standing_eq_struct_iff.mpr hps)
      · exact Graph.getLast?_of_examine hstruct rfl List.not_mem_nil h

/-- **The log of an examination.** What is told are the verdicts of the walk, and
none of them twice of one type. If the answer for a struct is yes they are about
all structs it reaches, inner ones first. If it is no, then behind yeses come the
structs that pass the no on, each a field of the next, out to the struct itself.
Where there is no answer, nothing was told to be different. -/
theorem layoutAccount_inner_first (u : Universe) (settings : Settings) (n : FactId) :
    ∃ ledger outcome, (u.layoutGraph settings.enumBase).survey n = (ledger, outcome) ∧
      u.layoutAccount settings n = ⟨u.verdictEvents ledger, outcome⟩ ∧
      (ledger.map Prod.fst).Nodup ∧
      ((u.fact n).IsStruct settings.enumBase → outcome = .ok true →
        u.AllShared settings.enumBase n ledger) ∧
      ((u.fact n).IsStruct settings.enumBase → outcome = .ok false →
        ∃ yeses noes : List FactId, ledger = yeses.map (·, true) ++ noes.map (·, false) ∧
          noes.getLast? = some n ∧ ∃ m, (u.fact m).IsManagedOnly ∧
            (m :: noes).IsChain fun inner outer => u.Holds settings.enumBase outer inner) ∧
      ∀ fault, outcome = .error fault → ∀ e ∈ ledger, e.2 = true := by
  have hrecorded := (u.layoutGraph settings.enumBase).survey_recorded n
  have henters := (u.layoutGraph settings.enumBase).survey_enters n
  rcases hsurvey : (u.layoutGraph settings.enumBase).survey n with ⟨ledger, outcome⟩
  rw [hsurvey] at hrecorded henters
  refine ⟨ledger, outcome, rfl, by rw [layoutAccount, hsurvey], henters.nodup, ?_, ?_, ?_⟩
  · rintro hn rfl
    exact allShared_of_survey hn hsurvey
  · rintro hn rfl
    cases hrecorded with
    | @refused yeses noes hin hpass =>
      have hlast := hpass.getLast?_eq (Fact.standing_eq_struct_iff.mpr hn)
      obtain ⟨m, hm, hchain, -⟩ := hpass
      refine ⟨yeses.map Prod.fst, noes, ?_, hlast, m,
        Fact.standing_eq_settled_false_iff.mp hm, holds_layoutGraph ▸ hchain⟩
      rw [← hin.eq_map]
  · rintro fault rfl e he
    cases hrecorded with
    | fault hin => exact hin.eq_true he

/-- Two structs that share a part, inside a third one; the second of them also
holds a class. -/
def sharedPart : Universe where
  facts := #[
    { kind := .named
      name := "Whole"
      isValueType := true
      fields := [{ name := "left", type := 1 }, { name := "right", type := 2 }] },
    { kind := .named
      name := "Left"
      isValueType := true
      fields := [{ name := "part", type := 3 }] },
    { kind := .named
      name := "Right"
      isValueType := true
      fields := [{ name := "part", type := 3 }, { name := "owner", type := 4 }] },
    { kind := .named, name := "Part", isValueType := true },
    { kind := .named, name := "Owner", isReferenceType := true }]

-- the part is told of once, and the no passes from the second struct outwards
example : (sharedPart.layoutGraph (some "System.Enum")).survey 0 =
    ([(3, true), (1, true), (2, false), (0, false)], .ok false) := rfl

end Universe

end Managed

end TypeBridge
