import TypeBridge.Proofs.Layout.Walk
import TypeBridge.Settings
import Mathlib.Data.List.Forall2
/-!
# TypeBridge — two universes laid out alike

The walk reads little of a universe: what each fact alone says of its layout,
the types of the instance fields of structs, and whether two types are the same
one. Where two universes agree on these, type by type, they are walked in step,
and the outcomes tell the same of corresponding types
(`hasSharedLayout_of_laidOutAlike`). Names, static fields, what pointers point
at and the fields of classes and enums have no part in it.

The correspondence is a relation, so it may leave out types that are never
reached, and it is one to one, since a struct is told from others by its place.
-/

namespace TypeBridge

namespace Managed

variable {ν μ : Type} {R : ν → μ → Prop}

/-! ## The same outcome in two places -/

/-- Two faults of one sort at corresponding types. -/
inductive LayoutFault.Matches (R : ν → μ → Prop) : LayoutFault ν → LayoutFault μ → Prop
  | cycle {members : List ν} {members' : List μ} : List.Forall₂ R members members' →
      Matches R (.cycle members) (.cycle members')
  | tooDeep {outermost innermost : ν} {outermost' innermost' : μ} : R outermost outermost' →
      R innermost innermost' →
      Matches R (.tooDeep outermost innermost) (.tooDeep outermost' innermost')

/-- The same verdict, or faults that match. -/
inductive SameOutcome (R : ν → μ → Prop) :
    Except (LayoutFault ν) Bool → Except (LayoutFault μ) Bool → Prop
  | verdict (v : Bool) : SameOutcome R (.ok v) (.ok v)
  | fault {fault : LayoutFault ν} {fault' : LayoutFault μ} : fault.Matches R fault' →
      SameOutcome R (.error fault) (.error fault')

/-- Ledgers with the same verdicts on corresponding types, in the same order. -/
def Ledger.Matches (R : ν → μ → Prop) (ledger : Ledger ν) (ledger' : Ledger μ) : Prop :=
  List.Forall₂ (fun e e' => R e.1 e'.1 ∧ e.2 = e'.2) ledger ledger'

/-- The same outcome, after the same verdicts. -/
def SameAnswer (R : ν → μ → Prop) (answer : Ledger ν × Except (LayoutFault ν) Bool)
    (answer' : Ledger μ × Except (LayoutFault μ) Bool) : Prop :=
  answer.1.Matches R answer'.1 ∧ SameOutcome R answer.2 answer'.2

theorem Ledger.Matches.concat {ledger : Ledger ν} {ledger' : Ledger μ} {n : ν} {n' : μ}
    (h : ledger.Matches R ledger') (hn : R n n') (v : Bool) :
    Ledger.Matches R (ledger ++ [(n, v)]) (ledger' ++ [(n', v)]) :=
  List.rel_append h (.cons ⟨hn, rfl⟩ .nil)

section OneToOne

variable [DecidableEq ν] [DecidableEq μ] {n : ν} {n' : μ}

/-- Corresponding types have the same entry. -/
theorem Ledger.Matches.lookup_eq (hR : Relator.BiUnique R) {ledger : Ledger ν}
    {ledger' : Ledger μ} (h : ledger.Matches R ledger') (hn : R n n') :
    ledger.lookup n = ledger'.lookup n' := by
  induction h with
  | nil => rfl
  | @cons e e' _ _ he _ ih =>
    obtain ⟨k, v⟩ := e
    obtain ⟨k', v'⟩ := e'
    obtain ⟨hk, rfl⟩ : R k k' ∧ v = v' := he
    have hsame : n = k ↔ n' = k' := Relator.rel_eq hR hn hk
    by_cases hnk : n = k
    · have hnk' : n' = k' := hsame.mp hnk
      rw [hnk, hnk', List.lookup_cons_self, List.lookup_cons_self]
    · have hnk' : n' ≠ k' := fun heq => hnk (hsame.mpr heq)
      rw [List.lookup_cons, List.lookup_cons, beq_false_of_ne hnk, beq_false_of_ne hnk']
      exact ih

/-- What is behind corresponding types on two chains corresponds. -/
theorem forall₂_dropWhile_ne (hR : Relator.BiUnique R) {chain : List ν} {chain' : List μ}
    (h : List.Forall₂ R chain chain') (hn : R n n') :
    List.Forall₂ R (chain.dropWhile (· ≠ n)) (chain'.dropWhile (· ≠ n')) := by
  induction h with
  | nil => exact .nil
  | @cons k k' rest rest' hk hrest ih =>
    have hsame : k = n ↔ k' = n' := Relator.rel_eq hR hk hn
    by_cases hkn : k = n
    · have hkn' : k' = n' := hsame.mp hkn
      rw [List.dropWhile_cons_of_neg (by simpa using hkn),
        List.dropWhile_cons_of_neg (by simpa using hkn')]
      exact .cons hk hrest
    · have hkn' : k' ≠ n' := fun heq => hkn (hsame.mpr heq)
      rw [List.dropWhile_cons_of_pos (by simpa using hkn),
        List.dropWhile_cons_of_pos (by simpa using hkn')]
      exact ih

end OneToOne

/-! ## Two graphs walked in step -/

namespace Graph

variable {g : Graph ν} {g' : Graph μ} {n : ν} {n' : μ}

/-- Graphs with a correspondence of their types, one to one: the same standing,
and parts that correspond in their order. -/
structure Corresponds (g : Graph ν) (g' : Graph μ) (R : ν → μ → Prop) : Prop where
  oneToOne : Relator.BiUnique R
  standing : ∀ {a a'}, R a a' → g.standing a = g'.standing a'
  parts : ∀ {a a'}, R a a' → g.standing a = .struct → List.Forall₂ R (g.parts a) (g'.parts a')

/-- Questions with the same answers, put in turn, have the same answer. -/
theorem allOf_sameAnswer {ask : ν → Ledger ν → Ledger ν × Except (LayoutFault ν) Bool}
    {ask' : μ → Ledger μ → Ledger μ × Except (LayoutFault μ) Bool} {nodes : List ν}
    {nodes' : List μ} {ledger : Ledger ν} {ledger' : Ledger μ} (hnodes : List.Forall₂ R nodes nodes')
    (hask : ∀ p p' ledger ledger', R p p' → Ledger.Matches R ledger ledger' →
      SameAnswer R (ask p ledger) (ask' p' ledger'))
    (hledger : ledger.Matches R ledger') :
    SameAnswer R (allOf ask nodes ledger) (allOf ask' nodes' ledger') := by
  induction hnodes generalizing ledger ledger' with
  | nil => exact ⟨hledger, .verdict true⟩
  | @cons p p' rest rest' hp _ ih =>
    have hanswer := hask p p' ledger ledger' hp hledger
    rw [allOf, allOf]
    generalize ask p ledger = answer at hanswer ⊢
    generalize ask' p' ledger' = answer' at hanswer ⊢
    obtain ⟨ledger₁, outcome⟩ := answer
    obtain ⟨ledger₁', outcome'⟩ := answer'
    obtain ⟨hledger₁, houtcome⟩ := hanswer
    cases houtcome with
    | fault hfault => exact ⟨hledger₁, .fault hfault⟩
    | verdict v =>
      cases v with
      | false => exact ⟨hledger₁, .verdict false⟩
      | true => exact ih hledger₁

variable [DecidableEq ν] [DecidableEq μ]

/-- **Corresponding types are examined in step**, inside corresponding chains
and with the same verdicts known. The recursion is on the room, which both
walks use up together. -/
theorem Corresponds.examine (h : g.Corresponds g' R) (room : ℕ) (chain : List ν) (chain' : List μ)
    (n : ν) (n' : μ) (ledger : Ledger ν) (ledger' : Ledger μ) (hn : R n n')
    (hchain : List.Forall₂ R chain chain') (hledger : ledger.Matches R ledger') :
    SameAnswer R (g.examine room chain n ledger) (g'.examine room chain' n' ledger') := by
  have hsame := h.standing hn
  cases hstanding : g.standing n with
  | settled v =>
    rw [examine_of_settled hstanding, examine_of_settled (hsame.symm.trans hstanding)]
    exact ⟨hledger, .verdict v⟩
  | struct =>
    have hstanding' : g'.standing n' = .struct := hsame.symm.trans hstanding
    have hlookup := hledger.lookup_eq h.oneToOne hn
    cases hentry : ledger.lookup n with
    | some v =>
      rw [examine_of_entry hstanding hentry,
        examine_of_entry hstanding' (hlookup.symm.trans hentry)]
      exact ⟨hledger, .verdict v⟩
    | none =>
      have hentry' : ledger'.lookup n' = none := hlookup.symm.trans hentry
      have hmem : n ∈ chain ↔ n' ∈ chain' := List.rel_mem h.oneToOne hn hchain
      by_cases hon : n ∈ chain
      · -- the way round is as long on both sides
        rw [examine_of_mem_chain hstanding hentry hon,
          examine_of_mem_chain hstanding' hentry' (hmem.mp hon)]
        have hround := List.rel_append (forall₂_dropWhile_ne h.oneToOne hchain hn)
          (List.Forall₂.cons hn .nil)
        exact ⟨hledger, .fault (.cycle hround)⟩
      · have hoff' : n' ∉ chain' := fun hon' => hon (hmem.mpr hon')
        cases room with
        | zero =>
          rw [examine_zero hstanding hentry hon, examine_zero hstanding' hentry' hoff']
          refine ⟨hledger, .fault (.tooDeep ?_ hn)⟩
          cases hchain with
          | nil => exact hn
          | cons hfirst _ => exact hfirst
        | succ room =>
          have hparts := allOf_sameAnswer (h.parts hn hstanding)
            (fun p p' ledger ledger' hp hledger =>
              h.examine room (chain ++ [n]) (chain' ++ [n']) p p' ledger ledger' hp
                (List.rel_append hchain (.cons hn .nil)) hledger) hledger
          rw [examine_succ hstanding hentry hon, examine_succ hstanding' hentry' hoff']
          generalize allOf (g.examine room (chain ++ [n])) (g.parts n) ledger = answer at hparts ⊢
          generalize allOf (g'.examine room (chain' ++ [n'])) (g'.parts n') ledger' = answer'
            at hparts ⊢
          obtain ⟨ledger₁, outcome⟩ := answer
          obtain ⟨ledger₁', outcome'⟩ := answer'
          obtain ⟨hledger₁, houtcome⟩ := hparts
          cases houtcome with
          | fault hfault => exact ⟨hledger₁, .fault hfault⟩
          | verdict v => exact ⟨hledger₁.concat hn v, .verdict v⟩

/-- So corresponding types have the same outcome, after the same verdicts. -/
theorem Corresponds.survey (h : g.Corresponds g' R) (hn : R n n') :
    SameAnswer R (g.survey n) (g'.survey n') :=
  h.examine nestingLimit [] [] n n' [] [] hn .nil .nil

end Graph

/-! ## Two universes -/

/-- What a fact alone says of its layout is in four of its parts. -/
theorem Fact.standing_congr {fact other : Fact} (enumBase : Option String)
    (hkind : fact.kind = other.kind) (hspecial : fact.special = other.special)
    (hvalue : fact.isValueType = other.isValueType) (hbase : fact.baseType = other.baseType) :
    fact.standing enumBase = other.standing enumBase := by
  unfold standing isEnum
  rw [hkind, hspecial, hvalue, hbase]

namespace Universe

/-- Universes with a correspondence of their types, one to one, that keeps what
a fact alone says of its layout and the types of the instance fields of
structs, in their order. -/
structure LaidOutAlike (u u' : Universe) (enumBase : Option String)
    (R : FactId → FactId → Prop) : Prop where
  oneToOne : Relator.BiUnique R
  kind : ∀ {n n'}, R n n' → (u.fact n).kind = (u'.fact n').kind
  special : ∀ {n n'}, R n n' → (u.fact n).special = (u'.fact n').special
  isValueType : ∀ {n n'}, R n n' → (u.fact n).isValueType = (u'.fact n').isValueType
  baseType : ∀ {n n'}, R n n' → (u.fact n).baseType = (u'.fact n').baseType
  fields : ∀ {n n'}, R n n' → (u.fact n).IsStruct enumBase →
    List.Forall₂ R ((u.fact n).instanceFields.map (·.type))
      ((u'.fact n').instanceFields.map (·.type))

variable {u u' : Universe} {enumBase : Option String} {R : FactId → FactId → Prop}

/-- Their graphs correspond. -/
theorem LaidOutAlike.corresponds (h : u.LaidOutAlike u' enumBase R) :
    (u.layoutGraph enumBase).Corresponds (u'.layoutGraph enumBase) R where
  oneToOne := h.oneToOne
  standing hn :=
    Fact.standing_congr enumBase (h.kind hn) (h.special hn) (h.isValueType hn) (h.baseType hn)
  parts hn hstruct := h.fields hn (Fact.standing_eq_struct_iff.mp hstruct)

/-- **Layouts have to do with nothing else.** Universes that are laid out alike
have the same verdict on corresponding types, or the same fault: a cycle of
corresponding types, or corresponding ends of a nesting that is too deep. The
settings only have to agree on what marks an enum. -/
theorem hasSharedLayout_of_laidOutAlike (u u' : Universe) (settings settings' : Settings)
    (R : FactId → FactId → Prop) (henum : settings.enumBase = settings'.enumBase)
    (h : u.LaidOutAlike u' settings.enumBase R) (n n' : FactId) (hn : R n n') :
    SameOutcome R ((u.layoutGraph settings.enumBase).hasSharedLayout n)
      ((u'.layoutGraph settings'.enumBase).hasSharedLayout n') := by
  rw [← henum]
  exact (h.corresponds.survey hn).2

/-- Two structs inside each other, with a pointer to the outer one. -/
def nestedPair : Universe where
  facts := #[
    { kind := .named
      name := "Outer"
      isValueType := true
      namespaces := ["Shapes"]
      fields := [{ name := "origin", type := 0, isStatic := true }, { name := "inner", type := 1 }] },
    { kind := .named
      name := "Inner"
      isValueType := true
      namespaces := ["Shapes"]
      fields := [{ name := "link", type := 2 }, { name := "outer", type := 0 }] },
    .pointer "Outer" 0]

/-- The same two under other names and from behind. The static field stands
elsewhere, and the pointer leads to a class. -/
def renamedPair : Universe where
  facts := #[
    .pointer "Log" 3,
    { kind := .named
      name := "Q"
      isValueType := true
      fields := [{ name := "a", type := 0 }, { name := "log", type := 3, isStatic := true },
        { name := "b", type := 2 }] },
    { kind := .named
      name := "P"
      isValueType := true
      fields := [{ name := "q", type := 1 }] },
    { kind := .named
      name := "Log"
      isReferenceType := true
      fields := [{ name := "next", type := 3 }, { name := "q", type := 1 }] }]

/-- The place of a type of the one pair in the other. -/
def PairedWith (n n' : ℕ) : Prop :=
  n + n' = 2

theorem PairedWith.cases {n n' : ℕ} (h : PairedWith n n') :
    n = 0 ∧ n' = 2 ∨ n = 1 ∧ n' = 1 ∨ n = 2 ∧ n' = 0 := by
  unfold PairedWith at h
  omega

theorem biUnique_pairedWith : Relator.BiUnique PairedWith := by
  unfold PairedWith
  exact ⟨fun a b c hac hbc => by omega, fun a b c hab hac => by omega⟩

theorem laidOutAlike_renamedPair :
    nestedPair.LaidOutAlike renamedPair (some "System.Enum") PairedWith where
  oneToOne := biUnique_pairedWith
  kind hn := by obtain ⟨rfl, rfl⟩ | ⟨rfl, rfl⟩ | ⟨rfl, rfl⟩ := hn.cases <;> rfl
  special hn := by obtain ⟨rfl, rfl⟩ | ⟨rfl, rfl⟩ | ⟨rfl, rfl⟩ := hn.cases <;> rfl
  isValueType hn := by obtain ⟨rfl, rfl⟩ | ⟨rfl, rfl⟩ | ⟨rfl, rfl⟩ := hn.cases <;> rfl
  baseType hn := by obtain ⟨rfl, rfl⟩ | ⟨rfl, rfl⟩ | ⟨rfl, rfl⟩ := hn.cases <;> rfl
  fields hn _ := by
    obtain ⟨rfl, rfl⟩ | ⟨rfl, rfl⟩ | ⟨rfl, rfl⟩ := hn.cases
    · exact .cons rfl .nil
    · exact .cons rfl (.cons rfl .nil)
    · exact .nil

/-- The structs that contain themselves are found on both sides. -/
theorem renamedPair_cycle : ∃ members,
    (renamedPair.layoutGraph (some "System.Enum")).hasSharedLayout 2 = .error (.cycle members) ∧
      List.Forall₂ PairedWith [0, 1, 0] members := by
  have hcycle : (nestedPair.layoutGraph (some "System.Enum")).hasSharedLayout 0 =
      .error (.cycle [0, 1, 0]) := rfl
  have hsame := hasSharedLayout_of_laidOutAlike nestedPair renamedPair {}
    { baseNamespace := "Native" } PairedWith rfl laidOutAlike_renamedPair 0 2 rfl
  rw [hcycle] at hsame
  generalize (renamedPair.layoutGraph _).hasSharedLayout 2 = outcome at hsame ⊢
  cases hsame with
  | fault hfault =>
    cases hfault with
    | cycle hmembers => exact ⟨_, rfl, hmembers⟩

end Universe

end Managed

end TypeBridge
