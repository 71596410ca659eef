import TypeBridge.Proofs.Description.Grammar
import TypeBridge.Proofs.Description.Run
/-!
# TypeBridge — tokens that a description may begin with

A reading never gets stuck: whatever is begun or still open can be brought to
an end (`exists_finish?`). So the tokens that a reading takes are those that some
description begins with (`exists_run_iff`), and it expects the terminals that
some description goes on with.

Which names and declarations a reading has taken makes no difference to that.
`plain` forgets them, and readings that are alike but for them take the same
terminals.
-/

namespace TypeBridge

namespace Description

/-- Terminals that some description begins with. -/
def Viable (terminals : List Terminal) : Prop :=
  ∃ more, Derives .description (terminals ++ more)

/-- Some token of a kind. -/
def Terminal.token : Terminal → Token
  | mark m => .mark m
  | name => .name "x"

@[simp] theorem Terminal.terminal_token (k : Terminal) : k.token.terminal = k := by
  cases k <;> rfl

/-- Any terminals are those of some tokens. -/
theorem exists_map_terminal (terminals : List Terminal) :
    ∃ ts : List Token, ts.map Token.terminal = terminals :=
  ⟨terminals.map Terminal.token, by simp [Function.comp_def]⟩

variable {r r' s s' : Reading} {t t' : Token} {ts us : List Token} {o : Outline} {k : Terminal}
variable {blocks : List OpenBlock} {outline : Outline}

namespace Reading

/-! ## Bringing a reading to an end -/

/-- What is begun inside the innermost block can be completed. -/
theorem exists_leads_declarations (r : Reading) :
    ∃ us blocks outline, r.Leads us ⟨blocks, outline, .declarations⟩ := by
  suffices ∃ us r', r.run us = some r' ∧ r'.settled.stage = .declarations by
    obtain ⟨us, r', hrun, hstage⟩ := this
    exact ⟨us, _, _, r', hrun, by rw [← hstage]⟩
  obtain ⟨blocks, outline, stage⟩ := r
  cases stage with
  | declarations => exact ⟨[], _, rfl, rfl⟩
  | blockWord => exact ⟨[.name "x", .mark .leftBrace], _, rfl, rfl⟩
  | blockPath path => exact ⟨[.mark .leftBrace], _, rfl, rfl⟩
  | blockDot path => exact ⟨[.name "x", .mark .leftBrace], _, rfl, rfl⟩
  | structWord => exact ⟨[.name "x", .mark .leftBrace, .mark .rightBrace], _, rfl, rfl⟩
  | structName n => exact ⟨[.mark .leftBrace, .mark .rightBrace], _, rfl, rfl⟩
  | classWord => exact ⟨[.name "x"], _, rfl, rfl⟩
  | className n => exact ⟨[], _, rfl, rfl⟩
  | enumWord => exact ⟨[.name "x"], _, rfl, rfl⟩
  | body b => exact ⟨[.mark .rightBrace], _, rfl, rfl⟩
  | staticWord b =>
    exact ⟨[.name "x", .mark .colon, .name "x", .mark .rightBrace], _, rfl, rfl⟩
  | fieldName b head => exact ⟨[.mark .colon, .name "x", .mark .rightBrace], _, rfl, rfl⟩
  | fieldColon b head => exact ⟨[.name "x", .mark .rightBrace], _, rfl, rfl⟩
  | fieldType b head type =>
    have hbrace : step ⟨blocks, outline, .fieldType b head type⟩ (.mark .rightBrace) =
        some ⟨blocks, outline.type (b.add (head.withType type)).close, .declarations⟩ :=
      step_of_body (t := .mark .rightBrace) (b := b.add (head.withType type)) rfl (by decide)
        (by decide)
    exact ⟨[.mark .rightBrace], _, by rw [run_cons, hbrace]; rfl, rfl⟩
  | fieldDot b head name => exact ⟨[.name "x", .mark .rightBrace], _, rfl, rfl⟩

/-- The open blocks can be closed, one after the other. -/
theorem exists_finish?_of_declarations (hr : r.settled = ⟨blocks, outline, .declarations⟩) :
    ∃ us r' o, r.run us = some r' ∧ r'.finish? = some o := by
  induction blocks generalizing r outline with
  | nil => exact ⟨[], r, outline, rfl, by rw [finish?, hr]⟩
  | cons block blocks ih =>
    have hbrace : r.step (.mark .rightBrace) =
        some ⟨blocks, block.before.block block.path outline, .declarations⟩ := by
      rw [step_of_declarations (t := .mark .rightBrace) (by rw [hr]) (by decide), hr]
      rfl
    obtain ⟨us, r', o, hrun, hfinish⟩ := ih (r := ⟨blocks, _, .declarations⟩) rfl
    exact ⟨.mark .rightBrace :: us, r', o, by rw [run_cons, hbrace]; exact hrun, hfinish⟩

/-- **Every reading can be brought to an end.** -/
theorem exists_finish? (r : Reading) : ∃ us r' o, r.run us = some r' ∧ r'.finish? = some o := by
  obtain ⟨us, blocks, outline, r', hrun, hsettled⟩ := r.exists_leads_declarations
  obtain ⟨vs, r'', o, hrun', hfinish⟩ := exists_finish?_of_declarations hsettled
  exact ⟨us ++ vs, r'', o, by rw [run_append, hrun]; exact hrun', hfinish⟩

/-- **The tokens that are taken** are those that some description begins
with. -/
theorem exists_run_iff : (∃ r, run {} ts = some r) ↔ Viable (ts.map Token.terminal) := by
  constructor
  · rintro ⟨r, hrun⟩
    obtain ⟨us, r', o, hrun', hfinish⟩ := r.exists_finish?
    have hall : run {} (ts ++ us) = some r' := by rw [run_append, hrun]; exact hrun'
    refine ⟨us.map Token.terminal, ?_⟩
    rw [← List.map_append, derives_description_iff]
    exact ⟨o, finish?_run_iff.mp ⟨r', hall, hfinish⟩⟩
  · rintro ⟨more, hderives⟩
    obtain ⟨us, rfl⟩ := exists_map_terminal more
    rw [← List.map_append, derives_description_iff] at hderives
    obtain ⟨o, ho⟩ := hderives
    obtain ⟨r', hrun, -⟩ := finish?_run_iff.mpr ho
    rw [run_append] at hrun
    obtain ⟨r, hrun, -⟩ := Option.bind_eq_some_iff.mp hrun
    exact ⟨r, hrun⟩

/-! ## Readings that are alike -/

end Reading

/-- The stage with all names and fields forgotten. Of the stars behind a type
only whether there are any is kept. -/
def Stage.plain : Stage → Stage
  | declarations => declarations
  | blockWord => blockWord
  | blockPath _ => blockPath { name := "" }
  | blockDot _ => blockDot { name := "" }
  | structWord => structWord
  | structName _ => structName ""
  | classWord => classWord
  | className _ => className ""
  | enumWord => enumWord
  | body _ => body ⟨false, "", []⟩
  | staticWord _ => staticWord ⟨false, "", []⟩
  | fieldName _ _ => fieldName ⟨false, "", []⟩ ⟨false, ""⟩
  | fieldColon _ _ => fieldColon ⟨false, "", []⟩ ⟨false, ""⟩
  | fieldType _ _ type => fieldType ⟨false, "", []⟩ ⟨false, ""⟩ ⟨{ name := "" }, min type.stars 1⟩
  | fieldDot _ _ _ => fieldDot ⟨false, "", []⟩ ⟨false, ""⟩ { name := "" }

def Token.plain : Token → Token
  | mark m => mark m
  | name _ => name ""

theorem Token.plain_eq_of_terminal (h : t.terminal = t'.terminal) :
    t.plain = t'.plain := by
  cases t <;> cases t' <;> cases h <;> rfl

namespace Reading

/-- The reading with everything forgotten that is complete. -/
def plain (r : Reading) : Reading where
  blocks := r.blocks.map fun _ => ⟨.empty, { name := "" }⟩
  outline := .empty
  stage := r.stage.plain

theorem plain_settled (r : Reading) : r.plain.settled.plain = r.settled.plain := by
  obtain ⟨blocks, outline, stage⟩ := r
  cases stage <;> simp [plain, Stage.plain, settled, declare, toStage]

theorem map_plain_continue? (r : Reading) (t : Token) :
    (r.plain.continue? t.plain).map plain = (r.continue? t).map plain := by
  obtain ⟨blocks, outline, stage⟩ := r
  rcases t with m | n
  · cases stage
    case fieldType b head type =>
      obtain ⟨name, _ | stars⟩ := type <;> cases m <;>
        simp [plain, Token.plain, Stage.plain, continue?, toStage]
    all_goals cases m <;> simp [plain, Token.plain, Stage.plain, continue?, toStage, openBlock]
  · cases stage <;>
      simp [plain, Token.plain, Stage.plain, continue?, toStage, declare]

theorem map_plain_begin? (r : Reading) (t : Token) :
    (r.plain.begin? t.plain).map plain = (r.begin? t).map plain := by
  obtain ⟨blocks, outline, stage⟩ := r
  rcases t with m | n
  · cases stage
    case declarations =>
      cases blocks <;> cases m <;>
        simp [plain, Token.plain, Stage.plain, begin?, toStage, closeBlock?]
    all_goals cases m <;> simp [plain, Token.plain, Stage.plain, begin?, toStage, declare]
  · cases stage <;> simp [plain, Token.plain, Stage.plain, begin?, toStage]

theorem map_plain_step (r : Reading) (t : Token) :
    (r.plain.step t.plain).map plain = (r.step t).map plain := by
  have hcontinue := r.map_plain_continue? t
  have hbegin : (r.plain.settled.begin? t.plain).map plain = (r.settled.begin? t).map plain := by
    rw [← map_plain_begin?, plain_settled, ← r.settled.map_plain_begin?]
    cases t <;> rfl
  simp only [step, Option.orElse_eq_orElse, Option.orElse_eq_or, Option.map_or] at hcontinue hbegin ⊢
  rw [hcontinue, hbegin]

/-- **Readings that are alike take the same terminals**, and are alike
afterwards. -/
theorem exists_step_of_plain (h : r.plain = s.plain) (ht : t.terminal = t'.terminal)
    (hstep : r.step t = some r') : ∃ s', s.step t' = some s' ∧ r'.plain = s'.plain := by
  have hsame : (s.step t').map plain = (r.step t).map plain := by
    rw [← map_plain_step s, ← map_plain_step r, h, Token.plain_eq_of_terminal ht]
  rw [hstep] at hsame
  obtain ⟨s', hstep', hplain⟩ := Option.map_eq_some_iff.mp hsame
  exact ⟨s', hstep', hplain.symm⟩

theorem exists_run_of_plain (h : r.plain = s.plain) (hrun : r.run ts = some r') :
    ∃ s', s.run ts = some s' ∧ r'.plain = s'.plain := by
  induction ts generalizing r s with
  | nil =>
    obtain rfl : r = r' := Option.some.inj hrun
    exact ⟨s, rfl, h⟩
  | cons t ts ih =>
    rw [run_cons] at hrun
    obtain ⟨next, hstep, hrun⟩ := Option.bind_eq_some_iff.mp hrun
    obtain ⟨next', hstep', hnext⟩ := exists_step_of_plain h rfl hstep
    obtain ⟨s', hrun', hs'⟩ := ih hnext hrun
    exact ⟨s', by rw [run_cons, hstep']; exact hrun', hs'⟩

theorem finish?_eq_some_iff : r.finish? = some o ↔ r.settled = ⟨[], o, .declarations⟩ := by
  rw [finish?]
  split
  · rename_i hsettled
    simp [hsettled]
  · rename_i hnot
    simpa using hnot o

/-- **Readings that are alike may both end**, or neither may. -/
theorem finish?_eq_none_of_plain (h : r.plain = s.plain) (hr : r.finish? = none) :
    s.finish? = none := by
  rw [Option.eq_none_iff_forall_ne_some] at hr ⊢
  intro o ho
  have hsettled : r.settled.plain = plain ⟨[], o, .declarations⟩ := by
    rw [← plain_settled, h, plain_settled, finish?_eq_some_iff.mp ho]
  rcases hend : r.settled with ⟨blocks, outline, stage⟩
  rw [hend] at hsettled
  obtain ⟨hblocks, hstage⟩ := by simpa [plain] using hsettled
  have hstage : stage = .declarations := by cases stage <;> cases hstage; rfl
  subst hblocks hstage
  exact hr outline (finish?_eq_some_iff.mpr hend)

/-! ## What is expected -/

/-- A terminal is expected when some token of its kind is taken, and then all
of them are. -/
theorem expects_terminal_iff : r.expects t.terminal = true ↔ ∃ r', r.step t = some r' := by
  have hexpects : ∀ k : Terminal, r.expects k = (r.step k.token).isSome := by
    intro k
    cases k <;> rfl
  have hterminal : t.terminal.token.terminal = t.terminal := t.terminal.terminal_token
  rw [hexpects, Option.isSome_iff_exists]
  constructor
  · rintro ⟨r', hstep⟩
    obtain ⟨s', hstep', -⟩ := exists_step_of_plain rfl hterminal hstep
    exact ⟨s', hstep'⟩
  · rintro ⟨r', hstep⟩
    obtain ⟨s', hstep', -⟩ := exists_step_of_plain rfl hterminal.symm hstep
    exact ⟨s', hstep'⟩

theorem expects_of_plain (h : r.plain = s.plain) (hr : r.expects k = true) :
    s.expects k = true := by
  rw [← k.terminal_token] at hr ⊢
  obtain ⟨r', hstep⟩ := expects_terminal_iff.mp hr
  obtain ⟨s', hstep', -⟩ := exists_step_of_plain h rfl hstep
  exact expects_terminal_iff.mpr ⟨s', hstep'⟩

/-- **What is expected** behind some tokens is what some description goes on
with. -/
theorem exists_expects_iff : (∃ r, run {} ts = some r ∧ r.expects k = true) ↔
    Viable (ts.map Token.terminal ++ [k]) := by
  have hterminals : ts.map Token.terminal ++ [k] = (ts ++ [k.token]).map Token.terminal := by simp
  rw [hterminals, ← exists_run_iff]
  constructor
  · rintro ⟨r, hrun, hexpects⟩
    rw [← k.terminal_token] at hexpects
    obtain ⟨r', hstep⟩ := expects_terminal_iff.mp hexpects
    exact ⟨r', by rw [run_append, hrun, Option.bind_some, run_cons, hstep]; rfl⟩
  · rintro ⟨r', hrun⟩
    rw [run_append] at hrun
    obtain ⟨r, hrun, hstep⟩ := Option.bind_eq_some_iff.mp hrun
    rw [run_cons] at hstep
    obtain ⟨next, hstep, -⟩ := Option.bind_eq_some_iff.mp hstep
    refine ⟨r, hrun, ?_⟩
    rw [← k.terminal_token]
    exact expects_terminal_iff.mpr ⟨next, hstep⟩

end Reading

end Description

end TypeBridge
