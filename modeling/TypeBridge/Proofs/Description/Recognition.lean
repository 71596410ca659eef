import TypeBridge.Proofs.Description.Cut
import TypeBridge.Proofs.Description.Run
/-!
# TypeBridge — which texts are read

Reading looks for one token at a time, and at each place it has one choice at
most: no mark starts another, and a name and a word may come at the same place
only between two fields, where the word is `static`. There one token further on
decides, and a name that runs on behind `static` is given to the mark.

So a text is read to an outline exactly when it can be cut into the outline's
tokens and no name in it should have gone to the mark (`read_eq_ok_iff`).
-/

namespace TypeBridge

namespace Description

/-! ## The names of instance fields -/

/-- A name that can be read as the word `static` and a name after it. -/
def ReadsAsStatic (name : List Char) : Prop :=
  ∃ c more, name = Mark.staticWord.spelling.toList ++ c :: more ∧ isNameStart c = true

/-- The names of the fields that are not static. -/
def instanceNames (fields : List FieldDecl) : List String :=
  (fields.filter (!·.isStatic)).map (·.name)

/-- The fields of an outline in the order they are written. -/
def Outline.fields : Outline → List FieldDecl
  | empty => []
  | type before decl => before.fields ++ decl.fields
  | block before _ inner => before.fields ++ inner.fields

/-- Every name of an instance field goes to the field and not to the mark. -/
def Outline.Preferred (o : Outline) : Prop :=
  ∀ n ∈ instanceNames o.fields, ¬ ReadsAsStatic n.toList

def FieldHead.instanceNames (head : FieldHead) : List String :=
  if head.isStatic then [] else [head.name]

def Stage.instanceNames : Stage → List String
  | body b | staticWord b => Description.instanceNames b.fields
  | fieldName b head | fieldColon b head | fieldType b head _ | fieldDot b head _ =>
    Description.instanceNames b.fields ++ head.instanceNames
  | _ => []

/-- The fields of what stands before the open blocks. -/
def openFields : List OpenBlock → List FieldDecl
  | [] => []
  | block :: outer => openFields outer ++ block.before.fields

namespace Reading

/-- The names of instance fields that are read so far. -/
def instanceNames (r : Reading) : List String :=
  Description.instanceNames (openFields r.blocks ++ r.outline.fields) ++ r.stage.instanceNames

variable {r r' : Reading} {t : Token} {ts : List Token} {o : Outline} {n : String} {m : Mark}
variable {text rest : List Char}

theorem instanceNames_settled (r : Reading) : r.settled.instanceNames = r.instanceNames := by
  unfold settled
  split <;> rename_i hstage
  · simp [instanceNames, declare, hstage, Stage.instanceNames, Outline.fields, TypeDecl.fields]
  · rename_i b head type
    cases hstatic : head.isStatic <;>
      simp [instanceNames, toStage, hstage, Stage.instanceNames, OpenBody.add, FieldHead.withType,
        FieldHead.instanceNames, Description.instanceNames, hstatic]
  · rfl

/-- What goes on names no instance field. -/
theorem instanceNames_of_continue? (h : r.continue? t = some r') :
    r'.instanceNames = r.instanceNames := by
  unfold continue? at h
  split at h <;> rename_i hstage <;> cases h <;>
    simp [instanceNames, toStage, openBlock, declare, openFields, hstage, Stage.instanceNames,
      Outline.fields, TypeDecl.fields, FieldHead.instanceNames, Description.instanceNames]

/-- A name that begins something is the name of an instance field. -/
def begunNames : Token → List String
  | .name n => [n]
  | .mark _ => []

theorem instanceNames_of_begin? (h : r.begin? t = some r') :
    r'.instanceNames = r.instanceNames ++ begunNames t := by
  unfold begin? at h
  split at h <;> rename_i hstage
  case h_5 =>
    rcases r with ⟨_ | ⟨block, outer⟩, outline, stage⟩
    · cases h
    · cases h
      obtain rfl : stage = .declarations := hstage
      simp [instanceNames, openFields, Stage.instanceNames, Outline.fields, begunNames]
  all_goals cases h
  case h_8 =>
    rename_i b
    cases hreference : b.isReference <;>
      simp [instanceNames, declare, hstage, Stage.instanceNames, Outline.fields, begunNames,
        OpenBody.close, hreference, TypeDecl.fields, Description.instanceNames]
  all_goals
    simp [instanceNames, toStage, hstage, Stage.instanceNames, FieldHead.instanceNames, begunNames]

/-! ## Between two fields -/

/-- The mark of a static field may come between two fields, and only there. -/
theorem expects_static_iff :
    r.expects (.mark .staticWord) = true ↔ ∃ b, r.settled.stage = .body b := by
  have hnone : r.continue? (.mark .staticWord) = none := by
    unfold continue?
    split <;> simp_all
  rw [expects, step, hnone, Option.orElse_eq_orElse, Option.orElse_eq_or, Option.none_or]
  constructor
  · intro h
    obtain ⟨r', hr'⟩ := Option.isSome_iff_exists.mp h
    unfold begin? at hr'
    split at hr' <;> simp_all
  · rintro ⟨b, hb⟩
    simp [begin?, hb]

/-- Behind the mark of a static field only a name goes on. -/
theorem exists_name_of_static {b : OpenBody} (h : (r.toStage (.staticWord b)).step t = some r') :
    ∃ n, t = .name n := by
  cases t with
  | mark m => simp [step, continue?, settled, begin?, toStage] at h
  | name n => exact ⟨n, rfl⟩

/-- Behind the name of a field only a colon goes on. -/
theorem eq_colon_of_fieldName {b : OpenBody} {head : FieldHead}
    (h : (r.toStage (.fieldName b head)).step t = some r') : t = .mark .colon := by
  by_contra ht
  simp [step, continue?, settled, begin?, toStage, ht] at h

/-- A name that begins something begins a field. -/
theorem stage_of_begin?_name (h : r.begin? (.name n) = some r') :
    ∃ b, r.stage = .body b ∧ r' = r.toStage (.fieldName b ⟨false, n⟩) := by
  unfold begin? at h
  split at h <;> simp_all

/-- **A step names an instance field** when it takes a name between two
fields. -/
theorem instanceNames_of_step (h : r.step t = some r') : r'.instanceNames =
    r.instanceNames ++ if r.expects (.mark .staticWord) = true then begunNames t else [] := by
  rcases step_eq_some_iff.mp h with hcontinue | ⟨-, hbegin⟩
  · rw [instanceNames_of_continue? hcontinue]
    split_ifs with hstatic
    · -- what goes on between two fields is the type of the one before
      cases t with
      | mark => simp [begunNames]
      | name n =>
        obtain ⟨b, hb⟩ := expects_static_iff.mp hstatic
        have hnone : r.continue? (.name n) = none := continue?_of_body hb nofun nofun
        rw [hnone] at hcontinue
        cases hcontinue
    · simp
  · rw [instanceNames_of_begin? hbegin, instanceNames_settled]
    split_ifs with hstatic
    · rfl
    · cases t with
      | mark => rfl
      | name n =>
        obtain ⟨b, hb, -⟩ := stage_of_begin?_name hbegin
        exact absurd (expects_static_iff.mpr ⟨b, hb⟩) hstatic

theorem instanceNames_subset_of_run (h : r.run ts = some r') :
    r.instanceNames ⊆ r'.instanceNames := by
  induction ts generalizing r with
  | nil =>
    obtain rfl : r = r' := Option.some.inj h
    exact List.Subset.refl _
  | cons t ts ih =>
    rw [run_cons] at h
    obtain ⟨next, hstep, hrun⟩ := Option.bind_eq_some_iff.mp h
    refine List.Subset.trans ?_ (ih hrun)
    rw [instanceNames_of_step hstep]
    exact List.subset_append_left _ _

theorem instanceNames_of_finish? (h : r.finish? = some o) :
    r.instanceNames = Description.instanceNames o.fields := by
  rw [← instanceNames_settled]
  unfold finish? at h
  split at h
  · rename_i hsettled
    obtain rfl := Option.some.inj h
    simp [hsettled, instanceNames, openFields, Stage.instanceNames]
  · cases h

/-! ## One token at a time -/

/-- Where a name goes on with something, no mark does. -/
theorem step_mark_of_continue?_name (h : r.continue? (.name n) = some r') :
    r.step (.mark m) = none := by
  unfold continue? at h
  split at h <;> cases h <;> simp_all [step, continue?, settled, begin?]

/-- **Names and words come at the same place** only between two fields, where
the word is `static`. -/
theorem not_isNameStart_of_step {r₁ r₂ : Reading} (hname : r.step (.name n) = some r₁)
    (hmark : r.step (.mark m) = some r₂) (hm : m ≠ .staticWord) :
    ∀ c ∈ m.spelling.toList.head?, isNameStart c = false := by
  rcases step_eq_some_iff.mp hname with hcontinue | ⟨-, hbegin⟩
  · rw [step_mark_of_continue?_name hcontinue] at hmark
    cases hmark
  · obtain ⟨b, hb, -⟩ := stage_of_begin?_name hbegin
    -- what goes on behind a field is a dot or a star; what begins there, besides
    -- names, is `static` or ends the body
    have hm : m = .dot ∨ m = .star ∨ m = .rightBrace := by
      by_contra hrest
      obtain ⟨hdot, hstar, hbrace⟩ := by simpa only [not_or] using hrest
      rw [step_of_body hb (by simpa using hdot) (by simpa using hstar)] at hmark
      unfold begin? at hmark
      split at hmark <;> simp_all
    rcases hm with rfl | rfl | rfl <;>
      (intro c hc; obtain rfl := Option.mem_some_iff.mp hc; decide)

/-- What is taken is a token the text starts with. -/
theorem take?_eq_some_iff {k : Terminal} : r.take? text k = some (r', rest) ↔
    ∃ t : Token, t.terminal = k ∧ t.Starts text rest ∧ r.step t = some r' := by
  cases k with
  | mark m =>
    simp only [take?, Option.bind_eq_bind, Option.bind_eq_some_iff, strip?_eq_some_iff]
    constructor
    · rintro ⟨_, hstarts, _, hstep, h⟩
      obtain ⟨rfl, rfl⟩ := Prod.mk.inj (Option.some.inj h)
      exact ⟨.mark m, rfl, hstarts, hstep⟩
    · rintro ⟨t, ht, hstarts, hstep⟩
      cases t with
      | mark m' =>
        obtain rfl := Terminal.mark.inj ht
        exact ⟨rest, hstarts, r', hstep, rfl⟩
      | name => cases ht
  | name =>
    simp only [take?, Option.bind_eq_bind, Option.bind_eq_some_iff, Prod.exists,
      stripName?_eq_some_iff]
    constructor
    · rintro ⟨n, _, hstarts, _, hstep, h⟩
      obtain ⟨rfl, rfl⟩ := Prod.mk.inj (Option.some.inj h)
      exact ⟨.name n, rfl, hstarts, hstep⟩
    · rintro ⟨t, ht, hstarts, hstep⟩
      cases t with
      | mark => cases ht
      | name n => exact ⟨n, rest, hstarts, r', hstep, rfl⟩

/-- No other mark than `static` can be taken where a name can. -/
theorem eq_staticWord_of_starts {r₁ r₂ : Reading} (hname : (Token.name n).Starts text rest)
    (hstep : r.step (.name n) = some r₁) (hmark : (Token.mark m).Starts text more)
    (hstep' : r.step (.mark m) = some r₂) : m = .staticWord := by
  by_contra hm
  obtain ⟨c, after, rfl, hc⟩ := exists_cons_of_starts_name hname
  obtain ⟨d, letters, hd⟩ : ∃ d letters, m.spelling.toList = d :: letters := by
    cases m <;> exact ⟨_, _, rfl⟩
  have hstart : isNameStart d = false :=
    not_isNameStart_of_step hstep hstep' hm d (by rw [hd]; rfl)
  have hcons : c :: after = d :: letters ++ more := hd ▸ hmark
  obtain rfl : c = d := (List.cons.inj hcons).1
  rw [hc] at hstart
  cases hstart

/-- A text starts with the word `static` where the mark may come. -/
def Contested (r : Reading) (text : List Char) : Prop :=
  r.expects (.mark .staticWord) = true ∧ ∃ after, (Token.mark .staticWord).Starts text after

/-- **Elsewhere there is one kind of token** that can be taken. -/
theorem terminal_unique {t' : Token} {r₁ r₂ : Reading} (hr : ¬ r.Contested text)
    (hstarts : t.Starts text rest) (hstep : r.step t = some r₁) (hstarts' : t'.Starts text more)
    (hstep' : r.step t' = some r₂) : t.terminal = t'.terminal := by
  cases t with
  | mark m =>
    cases t' with
    | mark m' =>
      exact congrArg Terminal.mark
        (mark_unique (strip?_eq_some_iff.mpr hstarts) (strip?_eq_some_iff.mpr hstarts'))
    | name n =>
      obtain rfl := eq_staticWord_of_starts hstarts' hstep' hstarts hstep
      exact absurd ⟨Option.isSome_of_eq_some hstep, _, hstarts⟩ hr
  | name n =>
    cases t' with
    | name n' => rfl
    | mark m =>
      obtain rfl := eq_staticWord_of_starts hstarts hstep hstarts' hstep'
      exact absurd ⟨Option.isSome_of_eq_some hstep', _, hstarts'⟩ hr

/-- Where the word `static` is not contested, every kind of token is looked
for. -/
theorem kindsAt_of_not_contested (h : ¬ r.Contested text) : r.kindsAt text = .ok Terminal.all := by
  unfold kindsAt
  split
  · rename_i hword hexpects
    exact absurd ⟨hexpects, _, strip?_eq_some_iff.mp hword⟩ h
  · rfl

/-- Whether the word `static` is the mark, as a token sees it. -/
def senseOf : Token → StaticSense
  | .mark _ => .mark
  | .name _ => .name

/-- **The token that is taken** is one the text starts with, and no name that
should go to the mark. -/
theorem exists_of_advance (h : r.advance text = .ok (r', rest)) :
    ∃ t : Token, t.Starts text rest ∧ r.step t = some r' ∧
      (r.expects (.mark .staticWord) = true → ∀ n ∈ begunNames t, ¬ ReadsAsStatic n.toList) := by
  unfold advance at h
  rcases hkinds : r.kindsAt text with stop | kinds
  · simp [hkinds, bind, Except.bind] at h
  simp only [hkinds, bind, Except.bind] at h
  split at h
  case h_2 => cases h
  rename_i hfind
  cases h
  obtain ⟨k, hk, htake⟩ := List.exists_of_findSome?_eq_some hfind
  obtain ⟨t, rfl, hstarts, hstep⟩ := take?_eq_some_iff.mp htake
  refine ⟨t, hstarts, hstep, fun hexpects n hn hreads => ?_⟩
  cases t with
  | mark => cases hn
  | name n' =>
    obtain rfl : n = n' := List.mem_singleton.mp hn
    -- the text starts with the word, and the name runs on behind it
    obtain ⟨c, more, hn, hc⟩ := hreads
    have hword : Mark.staticWord.strip? text = some (c :: more ++ rest) := by
      rw [strip?_eq_some_iff, Token.Starts, hstarts.2.1, hn, List.append_assoc]
    obtain rfl : kinds = [.mark .staticWord] := by
      simpa [kindsAt, hword, hexpects, senseOfStatic, hc, eq_comm] using hkinds
    cases List.mem_singleton.mp hk

/-- **A token that may come next is taken**, if the word `static` has the sense
it gives it. -/
theorem advance_eq_ok (hstarts : t.Starts text rest) (hstep : r.step t = some r')
    (hsense : ∀ after, (Token.mark .staticWord).Starts text after →
      r.expects (.mark .staticWord) = true → senseOfStatic after = senseOf t) :
    r.advance text = .ok (r', rest) := by
  have htake : r.take? text t.terminal = some (r', rest) :=
    take?_eq_some_iff.mpr ⟨t, rfl, hstarts, hstep⟩
  suffices hkinds : ∃ kinds, r.kindsAt text = .ok kinds ∧
      kinds.findSome? (r.take? text) = some (r', rest) by
    obtain ⟨kinds, hkinds, hfind⟩ := hkinds
    simp [advance, hkinds, bind, Except.bind, hfind]
  by_cases hcontested : r.Contested text
  · obtain ⟨hexpects, after, hafter⟩ := hcontested
    have hword := strip?_eq_some_iff.mpr hafter
    refine ⟨[t.terminal], ?_, by rw [List.findSome?_singleton, htake]⟩
    have hsense := hsense after hafter hexpects
    cases t with
    | name n => simp [kindsAt, hword, hexpects, hsense, senseOf, Token.terminal]
    | mark m =>
      obtain rfl : m = .staticWord := mark_unique (strip?_eq_some_iff.mpr hstarts) hword
      simp [kindsAt, hword, hexpects, hsense, senseOf, Token.terminal]
  · refine ⟨Terminal.all, kindsAt_of_not_contested hcontested, ?_⟩
    -- something is found, and nothing else can be
    have hsome : (Terminal.all.findSome? (r.take? text)).isSome :=
      List.findSome?_isSome_iff.mpr ⟨_, Terminal.mem_all _, Option.isSome_of_eq_some htake⟩
    obtain ⟨next, hfind⟩ := Option.isSome_iff_exists.mp hsome
    obtain ⟨k, -, htake'⟩ := List.exists_of_findSome?_eq_some hfind
    obtain ⟨t', rfl, hstarts', hstep'⟩ := take?_eq_some_iff.mp htake'
    rw [hfind, ← htake', terminal_unique hcontested hstarts' hstep' hstarts hstep, htake]

/-! ## The sense of the word -/

/-- A gap that is not empty starts with a blank or a comment. -/
theorem eq_of_gap_of_isSolid {start : List Char} (h : Gap text start) (htext : IsSolid text) :
    text = start := by
  cases h with
  | none => rfl
  | blank hblank => exact absurd hblank (by simp [(htext _ rfl).1])
  | comment => exact absurd rfl (htext _ rfl).2

/-- Before a name the word is the mark. -/
theorem senseOfStatic_of_name (h : Cuts text (.name n :: ts)) : senseOfStatic text = .mark := by
  cases h with | token hgap hstarts =>
  have hskip := skipBlanks_eq_iff.mpr ⟨hgap, isSolid_of_starts hstarts⟩
  obtain ⟨c, more, rfl, hc⟩ := exists_cons_of_starts_name hstarts
  have hcolon : c ≠ ':' := by
    rintro rfl
    cases hc
  rcases text with _ | ⟨d, text⟩
  · cases hskip
  · rw [senseOfStatic, hskip]
    by_cases hd : isNameStart d = true
    · simp [hd]
    · -- no name starts here, so a blank does
      have hdigit : isNameChar d = false := by
        by_contra hdigit
        rw [Bool.not_eq_false] at hdigit
        obtain ⟨rfl, -⟩ := List.cons.inj (eq_of_gap_of_isSolid hgap (isSolid_cons hdigit))
        exact hd hc
      simp [hd, hdigit, hcolon, hc]

/-- Before a colon the word is a name, if it can end there. -/
theorem senseOfStatic_of_colon (hends : EndsName text) (h : Cuts text (.mark .colon :: ts)) :
    senseOfStatic text = .name := by
  cases h with | token hgap hstarts =>
  have hskip := skipBlanks_eq_iff.mpr ⟨hgap, isSolid_of_starts hstarts⟩
  obtain rfl := hstarts
  rcases text with _ | ⟨d, text⟩
  · cases hskip
  · have hchar : isNameChar d = false := hends d rfl
    have hstart : isNameStart d = false := by
      by_contra hstart
      rw [Bool.not_eq_false] at hstart
      rw [isNameChar_of_isNameStart hstart] at hchar
      cases hchar
    simp [senseOfStatic, hstart, hchar, hskip, Mark.spelling]

/-- A name at the word `static` is the word with more behind it. -/
theorem exists_of_starts_static {after : List Char} (hname : (Token.name n).Starts text rest)
    (hword : (Token.mark .staticWord).Starts text after) :
    ∃ more, n.toList = Mark.staticWord.spelling.toList ++ more ∧ after = more ++ rest := by
  obtain ⟨-, rfl, hends⟩ := hname
  rcases List.append_eq_append_iff.mp hword with ⟨letters, hletters, hrest⟩ | ⟨more, hn, hafter⟩
  · cases letters with
    | nil => exact ⟨[], by simpa using hletters.symm, by simpa using hrest.symm⟩
    | cons c letters =>
      -- the name would end inside the word
      have hchar : isNameChar c = false := hends c (by rw [hrest]; rfl)
      have hc : c ∈ Mark.staticWord.spelling.toList := by rw [hletters]; simp
      rw [isNameChar_of_mem isName_static hc] at hchar
      cases hchar
  · exact ⟨more, hn, hafter⟩

/-! ## Whole texts -/

/-- No name that is read should have gone to the mark. -/
def Preferred (r : Reading) : Prop :=
  ∀ n ∈ r.instanceNames, ¬ ReadsAsStatic n.toList

/-- A reading that may not end goes on. -/
theorem exists_next (hrun : r.run ts = some r') (hfinish : r'.finish? = some o)
    (hr : r.finish? = none) : ∃ t us next, ts = t :: us ∧ r.step t = some next := by
  cases ts with
  | nil =>
    obtain rfl : r = r' := Option.some.inj hrun
    rw [hr] at hfinish
    cases hfinish
  | cons t us =>
    rw [run_cons] at hrun
    obtain ⟨next, hstep, -⟩ := Option.bind_eq_some_iff.mp hrun
    exact ⟨t, us, next, rfl, hstep⟩

/-- The mark of a static field is followed by a name, so the word is seen as
the mark. -/
theorem senseOfStatic_of_mark {b : OpenBody} (hcuts : Cuts text ts)
    (hrun : (r.toStage (.staticWord b)).run ts = some r') (hfinish : r'.finish? = some o) :
    senseOfStatic text = .mark := by
  obtain ⟨t, us, next, rfl, hstep⟩ :=
    exists_next hrun hfinish (by simp [finish?, settled, toStage])
  obtain ⟨n, rfl⟩ := exists_name_of_static hstep
  exact senseOfStatic_of_name hcuts

/-- A name that is the word itself is followed by a colon, so the word is seen
as a name. -/
theorem senseOfStatic_of_fieldName {b : OpenBody} {head : FieldHead} (hends : EndsName text)
    (hcuts : Cuts text ts) (hrun : (r.toStage (.fieldName b head)).run ts = some r')
    (hfinish : r'.finish? = some o) : senseOfStatic text = .name := by
  obtain ⟨t, us, next, rfl, hstep⟩ :=
    exists_next hrun hfinish (by simp [finish?, settled, toStage])
  obtain rfl := eq_colon_of_fieldName hstep
  exact senseOfStatic_of_colon hends hcuts

/-- The word `static` has the sense that a text's tokens give it. -/
theorem senseOfStatic_of_cuts {next : Reading} {after : List Char} (hstarts : t.Starts text rest)
    (hcuts : Cuts rest ts) (hstep : r.step t = some next) (hrun : next.run ts = some r')
    (hfinish : r'.finish? = some o) (hpreferred : r'.Preferred)
    (hword : (Token.mark .staticWord).Starts text after)
    (hexpects : r.expects (.mark .staticWord) = true) : senseOfStatic after = senseOf t := by
  obtain ⟨b, hb⟩ := expects_static_iff.mp hexpects
  cases t with
  | mark m =>
    obtain rfl : m = .staticWord :=
      mark_unique (strip?_eq_some_iff.mpr hstarts) (strip?_eq_some_iff.mpr hword)
    obtain rfl : rest = after := List.append_cancel_left (hstarts.symm.trans hword)
    obtain rfl := Option.some.inj ((step_static_of_body hb).symm.trans hstep)
    exact senseOfStatic_of_mark hcuts hrun hfinish
  | name n =>
    obtain ⟨more, hn, rfl⟩ := exists_of_starts_static hstarts hword
    cases more with
    | nil =>
      obtain rfl := Option.some.inj ((step_name_of_body hb).symm.trans hstep)
      exact senseOfStatic_of_fieldName hstarts.2.2 hcuts hrun hfinish
    | cons c more =>
      -- a name that runs on does not go to the mark
      have hmem : n ∈ r'.instanceNames := by
        refine instanceNames_subset_of_run hrun ?_
        rw [instanceNames_of_step hstep, if_pos hexpects]
        simp [begunNames]
      have hc : ¬ isNameStart c = true := fun hc => hpreferred n hmem ⟨c, more, hn, hc⟩
      have hchar : isNameChar c = true := isNameChar_of_mem hstarts.1 (by rw [hn]; simp)
      simp [senseOfStatic, hc, hchar, senseOf]

theorem read_of_nil (h : skipBlanks false text = []) :
    r.read text = .ok o ↔ r.finish? = some o := by
  rw [read]
  split
  · cases r.finish? <;> simp
  · rename_i heq
    rw [h] at heq
    cases heq

theorem read_of_start {start : List Char} (h : skipBlanks false text = start) (hne : start ≠ []) :
    r.read text = .ok o ↔ ∃ r' rest, r.advance start = .ok (r', rest) ∧ r'.read rest = .ok o := by
  rw [read]
  split
  · rename_i heq
    exact absurd (h.symm.trans heq) hne
  · rename_i c rest heq
    obtain rfl := h.symm.trans heq
    split
    · rename_i heq'
      simp [heq']
    · rename_i heq'
      simp [heq']

/-- **What is read is what the text is cut into.** -/
theorem exists_of_read (h : r.read text = .ok o) (hr : r.Preferred) :
    ∃ ts r', Cuts text ts ∧ r.run ts = some r' ∧ r'.finish? = some o ∧ r'.Preferred := by
  induction hlength : text.length using Nat.strong_induction_on generalizing r text with
  | _ length ih =>
    rcases hskip : skipBlanks false text with _ | ⟨c, start⟩
    · exact ⟨[], r, .done (skipBlanks_eq_iff.mp hskip).1, rfl, (read_of_nil hskip).mp h, hr⟩
    · obtain ⟨next, rest, hadvance, hread⟩ := (read_of_start hskip (by simp)).mp h
      obtain ⟨t, hstarts, hstep, hnames⟩ := exists_of_advance hadvance
      have hshorter : rest.length < length := by
        have hle := skipBlanks_length_le false text
        have hlt := advance_length_lt hadvance
        rw [hskip] at hle
        omega
      have hnext : next.Preferred := by
        intro n hn
        rw [instanceNames_of_step hstep] at hn
        rcases List.mem_append.mp hn with hn | hn
        · exact hr n hn
        · split_ifs at hn with hexpects
          · exact hnames hexpects n hn
          · cases hn
      obtain ⟨ts, r', hcuts, hrun, hfinish, hpreferred⟩ := ih _ hshorter hread hnext rfl
      refine ⟨t :: ts, r', .token (skipBlanks_eq_iff.mp hskip).1 hstarts hcuts, ?_, hfinish,
        hpreferred⟩
      rw [run_cons, hstep, Option.bind_some, hrun]

/-- **Every text that is cut into what may come is read.** -/
theorem read_of_cuts (hcuts : Cuts text ts) (hrun : r.run ts = some r')
    (hfinish : r'.finish? = some o) (hpreferred : r'.Preferred) : r.read text = .ok o := by
  induction hcuts generalizing r with
  | done hgap =>
    obtain rfl : r = r' := Option.some.inj hrun
    exact (read_of_nil (skipBlanks_eq_iff.mpr ⟨hgap, by simp [IsSolid]⟩)).mpr hfinish
  | token hgap hstarts hcuts ih =>
    rw [run_cons] at hrun
    obtain ⟨next, hstep, hrun⟩ := Option.bind_eq_some_iff.mp hrun
    have hskip := skipBlanks_eq_iff.mpr ⟨hgap, isSolid_of_starts hstarts⟩
    have hadvance := advance_eq_ok hstarts hstep fun after hword hexpects =>
      senseOfStatic_of_cuts hstarts hcuts hstep hrun hfinish hpreferred hword hexpects
    exact (read_of_start hskip (ne_nil_of_starts hstarts)).mpr ⟨next, _, hadvance, ih hrun⟩

/-- **A text is read to an outline** exactly when it is cut into the outline's
tokens and no name should have gone to the mark. -/
theorem read_eq_ok_iff : read {} text = .ok o ↔ Cuts text o.tokens ∧ o.Preferred := by
  constructor
  · intro h
    obtain ⟨ts, r', hcuts, hrun, hfinish, hpreferred⟩ :=
      exists_of_read h (by intro n hn; cases hn)
    obtain rfl := finish?_run_iff.mp ⟨r', hrun, hfinish⟩
    rw [Preferred, instanceNames_of_finish? hfinish] at hpreferred
    exact ⟨hcuts, hpreferred⟩
  · rintro ⟨hcuts, hpreferred⟩
    obtain ⟨r', hrun, hfinish⟩ := finish?_run_iff.mpr (rfl : o.tokens = o.tokens)
    refine read_of_cuts hcuts hrun hfinish ?_
    rw [Preferred, instanceNames_of_finish? hfinish]
    exact hpreferred

end Reading

end Description

end TypeBridge
