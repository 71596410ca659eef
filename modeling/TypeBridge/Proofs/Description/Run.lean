import TypeBridge.Description.Reading
import Mathlib.Data.List.Induction
/-!
# TypeBridge — a reading on tokens

What a reading has taken is all there in what it holds: `Reading.tokens` writes
it down, each step adds its token at the end, and a reading that may end has
taken the tokens of its outline. In the other direction every outline is read
from its tokens. So on tokens a description and its outline are the same
(`finish?_run_iff`).
-/

namespace TypeBridge

namespace Description

/-! ## What is taken so far -/

def OpenBody.tokens (b : OpenBody) : List Token :=
  [.mark (if b.isReference then .classWord else .structWord), .name b.name, .mark .leftBrace] ++
    b.fields.flatMap FieldDecl.tokens

def FieldHead.tokens (head : FieldHead) : List Token :=
  (if head.isStatic then [.mark .staticWord] else []) ++ [.name head.name]

def Stage.tokens : Stage → List Token
  | declarations => []
  | blockWord => [.mark .namespaceWord]
  | blockPath path => .mark .namespaceWord :: path.tokens
  | blockDot path => .mark .namespaceWord :: path.tokens ++ [.mark .dot]
  | structWord => [.mark .structWord]
  | structName n => [.mark .structWord, .name n]
  | classWord => [.mark .classWord]
  | className n => [.mark .classWord, .name n]
  | enumWord => [.mark .enumWord]
  | body b => b.tokens
  | staticWord b => b.tokens ++ [.mark .staticWord]
  | fieldName b head => b.tokens ++ head.tokens
  | fieldColon b head => b.tokens ++ head.tokens ++ [.mark .colon]
  | fieldType b head type => b.tokens ++ head.tokens ++ [.mark .colon] ++ type.tokens
  | fieldDot b head name => b.tokens ++ head.tokens ++ [.mark .colon] ++ name.tokens ++ [.mark .dot]

/-- The open blocks as they are written, outermost first. -/
def openTokens : List OpenBlock → List Token
  | [] => []
  | block :: outer =>
    openTokens outer ++ block.before.tokens ++ [.mark .namespaceWord] ++ block.path.tokens ++
      [.mark .leftBrace]

def Reading.tokens (r : Reading) : List Token :=
  openTokens r.blocks ++ r.outline.tokens ++ r.stage.tokens

namespace Reading

variable {r r' : Reading} {t : Token} {ts us : List Token} {o : Outline}

theorem tokens_settled (r : Reading) : r.settled.tokens = r.tokens := by
  unfold settled
  split <;> rename_i hstage
  · simp [tokens, declare, hstage, Stage.tokens, Outline.tokens, TypeDecl.tokens]
  · simp [tokens, toStage, hstage, Stage.tokens, OpenBody.add, OpenBody.tokens,
      FieldHead.withType, FieldHead.tokens, FieldDecl.tokens]
  · rfl

/-- A body that is closed is the declaration with its last brace. -/
theorem tokens_close (b : OpenBody) : b.close.tokens = b.tokens ++ [.mark .rightBrace] := by
  unfold OpenBody.close OpenBody.tokens
  split <;> simp [TypeDecl.tokens, TypeDecl.bodyTokens]

theorem tokens_of_continue? (h : r.continue? t = some r') : r'.tokens = r.tokens ++ [t] := by
  unfold continue? at h
  -- every case puts its token behind what its stage holds
  split at h <;> rename_i hstage <;> cases h <;>
    simp [tokens, toStage, openBlock, declare, openTokens, hstage, Stage.tokens, Outline.tokens,
      OpenBody.tokens, FieldHead.tokens, TypeRef.tokens, DottedName.tokens, DottedName.extend,
      TypeDecl.tokens, List.replicate_succ']

theorem tokens_of_closeBlock? (hstage : r.stage = .declarations) (h : r.closeBlock? = some r') :
    r'.tokens = r.tokens ++ [.mark .rightBrace] := by
  rcases r with ⟨_ | ⟨block, outer⟩, outline, stage⟩
  · cases h
  · cases h
    obtain rfl : stage = .declarations := hstage
    simp [tokens, openTokens, Stage.tokens, Outline.tokens]

theorem tokens_of_begin? (h : r.begin? t = some r') : r'.tokens = r.tokens ++ [t] := by
  unfold begin? at h
  split at h <;> rename_i hstage
  case h_5 => exact tokens_of_closeBlock? hstage h
  all_goals cases h
  all_goals simp [tokens, toStage, declare, hstage, Stage.tokens, Outline.tokens, tokens_close,
    FieldHead.tokens]

theorem step_eq_some_iff : r.step t = some r' ↔
    r.continue? t = some r' ∨ r.continue? t = none ∧ r.settled.begin? t = some r' := by
  rw [step, Option.orElse_eq_orElse, Option.orElse_eq_or, Option.or_eq_some_iff]

/-- **A step adds its token** to what is taken. -/
theorem tokens_of_step (h : r.step t = some r') : r'.tokens = r.tokens ++ [t] := by
  rcases step_eq_some_iff.mp h with h | ⟨-, h⟩
  · exact tokens_of_continue? h
  · rw [tokens_of_begin? h, tokens_settled]

theorem tokens_of_run (h : r.run ts = some r') : r'.tokens = r.tokens ++ ts := by
  induction ts generalizing r with
  | nil =>
    obtain rfl : r = r' := Option.some.inj h
    simp
  | cons t ts ih =>
    rw [run, List.foldlM_cons] at h
    obtain ⟨next, hstep, hrun⟩ := Option.bind_eq_some_iff.mp h
    rw [ih hrun, tokens_of_step hstep, List.append_assoc, List.singleton_append]

/-- A reading that may end has taken its outline. -/
theorem tokens_of_finish? (h : r.finish? = some o) : o.tokens = r.tokens := by
  rw [← tokens_settled]
  unfold finish? at h
  split at h
  · rename_i hsettled
    obtain rfl := Option.some.inj h
    simp [hsettled, tokens, openTokens, Stage.tokens]
  · cases h

/-! ## Every outline is read -/

theorem run_append : r.run (ts ++ us) = (r.run ts).bind (·.run us) :=
  List.foldlM_append

theorem run_cons : r.run (t :: ts) = (r.step t).bind (·.run ts) :=
  List.foldlM_cons

/-- A class without a body is complete for every token but a brace. -/
theorem step_of_declarations (h : r.settled.stage = .declarations) (ht : t ≠ .mark .leftBrace) :
    r.step t = r.settled.begin? t := by
  have hnone : r.continue? t = none := by
    unfold settled at h
    unfold continue?
    split <;> simp_all [declare, toStage]
  rw [step, hnone, Option.orElse_eq_orElse, Option.orElse_eq_or, Option.none_or]

/-- The type of a field is complete for every token but a dot or a star. -/
theorem continue?_of_body {b : OpenBody} (h : r.settled.stage = .body b) (hdot : t ≠ .mark .dot)
    (hstar : t ≠ .mark .star) : r.continue? t = none := by
  unfold settled at h
  unfold continue?
  split <;> simp_all [declare, toStage]

theorem step_of_body {b : OpenBody} (h : r.settled.stage = .body b) (hdot : t ≠ .mark .dot)
    (hstar : t ≠ .mark .star) : r.step t = r.settled.begin? t := by
  rw [step, continue?_of_body h hdot hstar, Option.orElse_eq_orElse, Option.orElse_eq_or,
    Option.none_or]

theorem step_static_of_body {b : OpenBody} (h : r.settled.stage = .body b) :
    r.step (.mark .staticWord) = some (r.settled.toStage (.staticWord b)) := by
  rw [step_of_body (t := .mark .staticWord) h nofun nofun]
  simp [begin?, h]

theorem step_name_of_body {b : OpenBody} {n : String} (h : r.settled.stage = .body b) :
    r.step (.name n) = some (r.settled.toStage (.fieldName b ⟨false, n⟩)) := by
  rw [step_of_body (t := .name n) h nofun nofun]
  simp [begin?, h]

/-- Tokens lead from one reading to another, with everything complete that can
be. -/
def Leads (r : Reading) (ts : List Token) (s : Reading) : Prop :=
  ∃ r', r.run ts = some r' ∧ r'.settled = s

theorem leads_of_run {s : Reading} (hrun : r.run ts = some s) (hs : s.settled = s) :
    r.Leads ts s :=
  ⟨s, hrun, hs⟩

/-- What leads on from a reading that is settled leads on from where the
tokens before have led. -/
theorem Leads.append {s s' : Reading} (h : r.Leads ts s)
    (hnext : ∀ r' : Reading, r'.settled = s → r'.Leads us s') : r.Leads (ts ++ us) s' := by
  obtain ⟨r', hrun, hsettled⟩ := h
  obtain ⟨r'', hrun', hsettled'⟩ := hnext r' hsettled
  exact ⟨r'', by rw [run_append, hrun, Option.bind_some, hrun'], hsettled'⟩

end Reading

/-- A dotted name is a name, or a dotted name with one more. -/
@[elab_as_elim]
theorem DottedName.inductionOn {motive : DottedName → Prop} (n : DottedName)
    (single : ∀ name, motive { name }) (extend : ∀ n name, motive n → motive (n.extend name)) :
    motive n := by
  obtain ⟨path, name⟩ := n
  induction path using List.reverseRecOn generalizing name with
  | nil => exact single name
  | append_singleton path last ih => exact extend ⟨path, last⟩ name (ih last)

theorem DottedName.tokens_extend (n : DottedName) (name : String) :
    (n.extend name).tokens = n.tokens ++ [.mark .dot, .name name] := by
  simp [DottedName.tokens, DottedName.extend]

namespace Reading

variable {r : Reading} {blocks : List OpenBlock} {outline : Outline} {b : OpenBody}

theorem run_blockPath (n : DottedName) :
    run ⟨blocks, outline, .blockWord⟩ n.tokens = some ⟨blocks, outline, .blockPath n⟩ := by
  induction n using DottedName.inductionOn with
  | single name => rfl
  | extend n name ih => rw [DottedName.tokens_extend, run_append, ih]; rfl

theorem run_typeName (head : FieldHead) (n : DottedName) :
    run ⟨blocks, outline, .fieldColon b head⟩ n.tokens =
      some ⟨blocks, outline, .fieldType b head { target := n }⟩ := by
  induction n using DottedName.inductionOn with
  | single name => rfl
  | extend n name ih => rw [DottedName.tokens_extend, run_append, ih]; rfl

theorem run_stars (head : FieldHead) (n : DottedName) (stars more : ℕ) :
    run ⟨blocks, outline, .fieldType b head ⟨n, stars⟩⟩ (List.replicate more (.mark .star)) =
      some ⟨blocks, outline, .fieldType b head ⟨n, stars + more⟩⟩ := by
  induction more generalizing stars with
  | zero => rfl
  | succ more ih =>
    have hstep : step ⟨blocks, outline, .fieldType b head ⟨n, stars⟩⟩ (.mark .star) =
        some ⟨blocks, outline, .fieldType b head ⟨n, stars + 1⟩⟩ := by
      cases stars <;> rfl
    rw [List.replicate_succ, run_cons, hstep, Option.bind_some, ih, Nat.add_right_comm, Nat.add_assoc]

/-- **A field is read** to the end of its type. -/
theorem leads_field (field : FieldDecl) (h : r.settled = ⟨blocks, outline, .body b⟩) :
    r.Leads field.tokens ⟨blocks, outline, .body (b.add field)⟩ := by
  have hstage : r.settled.stage = .body b := by rw [h]
  obtain ⟨isStatic, name, target, stars⟩ := field
  -- the head, the name of the type, and its stars
  have hhead : r.run ((if isStatic then [.mark .staticWord] else []) ++
      [.name name, .mark .colon]) = some ⟨blocks, outline, .fieldColon b ⟨isStatic, name⟩⟩ := by
    cases isStatic with
    | false =>
      rw [if_neg Bool.false_ne_true, List.nil_append, run_cons, step_name_of_body hstage, h]
      rfl
    | true =>
      rw [if_pos rfl, List.singleton_append, run_cons, step_static_of_body hstage, h]
      rfl
  refine ⟨⟨blocks, outline, .fieldType b ⟨isStatic, name⟩ ⟨target, stars⟩⟩, ?_, rfl⟩
  rw [FieldDecl.tokens, run_append, hhead, Option.bind_some, TypeRef.tokens, run_append,
    run_typeName, Option.bind_some, run_stars, Nat.zero_add]

theorem leads_fields (fields : List FieldDecl) (h : r.settled = ⟨blocks, outline, .body b⟩) :
    r.Leads (fields.flatMap FieldDecl.tokens)
      ⟨blocks, outline, .body { b with fields := b.fields ++ fields }⟩ := by
  induction fields generalizing r b with
  | nil => exact ⟨r, rfl, by simpa using h⟩
  | cons field fields ih =>
    rw [List.flatMap_cons]
    refine (leads_field field h).append fun r' hr' => ?_
    simpa [OpenBody.add] using ih hr'

/-- **A body is read** to its end. -/
theorem leads_body (isReference : Bool) (name : String) (fields : List FieldDecl)
    (h : r.step (.mark .leftBrace) = some ⟨blocks, outline, .body ⟨isReference, name, []⟩⟩) :
    r.Leads (TypeDecl.bodyTokens fields)
      ⟨blocks, outline.type (OpenBody.close ⟨isReference, name, fields⟩), .declarations⟩ := by
  have hopen : r.Leads [.mark .leftBrace] ⟨blocks, outline, .body ⟨isReference, name, []⟩⟩ :=
    leads_of_run (by rw [run_cons, h]; rfl) rfl
  refine (hopen.append fun r' hr' => leads_fields fields hr').append fun r' hr' => ?_
  have hstage : r'.settled.stage = .body ⟨isReference, name, fields⟩ := by rw [hr']; rfl
  have hbrace : r'.step (.mark .rightBrace) = r'.settled.begin? (.mark .rightBrace) :=
    step_of_body hstage nofun nofun
  refine leads_of_run ?_ rfl
  rw [run_cons, hbrace, hr']
  rfl

theorem leads_decl (decl : TypeDecl) (h : r.settled = ⟨blocks, outline, .declarations⟩) :
    r.Leads decl.tokens ⟨blocks, outline.type decl, .declarations⟩ := by
  have hstage : r.settled.stage = .declarations := by rw [h]
  have hstart : ∀ t : Token, t ≠ .mark .leftBrace → r.step t =
      begin? ⟨blocks, outline, .declarations⟩ t := fun t ht => by
    rw [step_of_declarations hstage ht, h]
  cases decl with
  | valueType name fields =>
    have hhead : r.run [.mark .structWord, .name name] =
        some ⟨blocks, outline, .structName name⟩ := by
      rw [run_cons, hstart (.mark .structWord) nofun]
      rfl
    obtain ⟨r', hrun, hr'⟩ := leads_body (r := ⟨blocks, outline, .structName name⟩) false name
      fields rfl
    exact ⟨r', by rw [TypeDecl.tokens, run_append, hhead, Option.bind_some, hrun], hr'⟩
  | referenceType name fields =>
    have hhead : r.run [.mark .classWord, .name name] =
        some ⟨blocks, outline, .className name⟩ := by
      rw [run_cons, hstart (.mark .classWord) nofun]
      rfl
    cases fields with
    | none => exact ⟨_, hhead, rfl⟩
    | some fields =>
      obtain ⟨r', hrun, hr'⟩ := leads_body (r := ⟨blocks, outline, .className name⟩) true name
        fields rfl
      exact ⟨r', by rw [TypeDecl.tokens, run_append, hhead, Option.bind_some, hrun], hr'⟩
  | enumeration name =>
    refine leads_of_run ?_ rfl
    rw [TypeDecl.tokens, run_cons, hstart (.mark .enumWord) nofun]
    rfl

/-- **An outline is read** to its end, inside any blocks. -/
theorem leads_outline (o : Outline) (h : r.settled = ⟨blocks, .empty, .declarations⟩) :
    r.Leads o.tokens ⟨blocks, o, .declarations⟩ := by
  induction o generalizing r blocks with
  | empty => exact ⟨r, rfl, h⟩
  | type before decl ih => exact (ih h).append fun r' hr' => leads_decl decl hr'
  | block before path inner ihBefore ihInner =>
    -- up to the brace, the declarations inside, and the brace at the end
    have hopen : r.Leads (before.tokens ++
        ([.mark .namespaceWord] ++ path.tokens ++ [.mark .leftBrace]))
        ⟨⟨before, path⟩ :: blocks, .empty, .declarations⟩ := by
      refine (ihBefore h).append fun r' hr' => leads_of_run ?_ rfl
      have hstage : r'.settled.stage = .declarations := by rw [hr']
      have hword : r'.run [.mark .namespaceWord] = some ⟨blocks, before, .blockWord⟩ := by
        rw [run_cons, step_of_declarations (t := .mark .namespaceWord) hstage nofun, hr']
        rfl
      rw [run_append, run_append, hword, Option.bind_some, run_blockPath]
      rfl
    have hclose : ∀ r' : Reading,
        r'.settled = ⟨⟨before, path⟩ :: blocks, inner, .declarations⟩ →
        r'.Leads [.mark .rightBrace] ⟨blocks, before.block path inner, .declarations⟩ := by
      intro r' hr'
      have hstage : r'.settled.stage = .declarations := by rw [hr']
      refine leads_of_run ?_ rfl
      rw [run_cons, step_of_declarations (t := .mark .rightBrace) hstage nofun, hr']
      rfl
    have hall := (hopen.append fun r' hr' => ihInner hr').append hclose
    simpa [Outline.tokens] using hall

/-- **Tokens are read to an outline when it is written as them.** -/
theorem finish?_run_iff {ts : List Token} {o : Outline} :
    (∃ r, run {} ts = some r ∧ r.finish? = some o) ↔ o.tokens = ts := by
  constructor
  · rintro ⟨r, hrun, hfinish⟩
    rw [tokens_of_finish? hfinish, tokens_of_run hrun]
    rfl
  · rintro rfl
    obtain ⟨r, hrun, hsettled⟩ := leads_outline (r := {}) o rfl
    exact ⟨r, hrun, by rw [finish?, hsettled]⟩

end Reading

end Description

end TypeBridge
