import TypeBridge.Proofs.Description.Beginning
import TypeBridge.Proofs.Description.Recognition
import TypeBridge.Proofs.Description.Viable
/-!
# TypeBridge — where a reading stops

A text may be cut in several ways, and which of them goes on is seen further on
in the text. A reading follows one of them. When it stops, no other has come
further (`stopsAt_of_read`): at the word `static` the mark and the name are both
looked at until one of them cannot go on, and if a name runs on behind the word
both readings come to its end, and are alike from there.

So a place where reading stops is the furthest that any cut of the text comes
to, and what is expected there is what some cut goes on with.
-/

namespace TypeBridge

namespace Description

namespace Reading

variable {r r' s next : Reading} {text rest mid after : List Char} {t : Token} {ts : List Token}
variable {b : OpenBody} {stop : Stop} {n : String}

/-! ## What a reading comes to -/

/-- A reading of a text comes to another reading, with a rest of the text
left. -/
def Reaches (r : Reading) (text : List Char) (r' : Reading) (rest : List Char) : Prop :=
  ∃ ts, CutsTo text ts rest ∧ r.run ts = some r'

/-- A reading of a text comes to a rest like another one does, or further. -/
def KeepsUp (r : Reading) (text : List Char) (r' : Reading) (rest : List Char) : Prop :=
  (∃ s, r.Reaches text s rest ∧ r'.plain = s.plain) ∨
    ∃ s further, r.Reaches text s further ∧ further <:+ rest ∧ further.length < rest.length

/-- A reading of a text goes on as another one, which no other way to go on
leaves behind. -/
structure GoesOn (r : Reading) (text : List Char) (next : Reading) (mid : List Char) : Prop where
  reaches : r.Reaches text next mid
  keepsUp : ∀ r' rest, r.Reaches text r' rest → next.KeepsUp mid r' rest

/-- Nothing comes further than a place, and what is expected there. -/
structure StopsAt (r : Reading) (text : List Char) (stop : Stop) : Prop where
  reaches : ∃ r', r.Reaches text r' stop.rest
  furthest : ∀ r' rest, r.Reaches text r' rest → stop.rest <:+ rest
  unfinished : ∀ r', r.Reaches text r' [] → r'.finish? = none
  expected : ∀ k, k ∈ stop.expected ↔ ∃ r', r.Reaches text r' stop.rest ∧ r'.expects k = true
  sorted : stop.expected.Sublist Terminal.all

theorem reaches_of_gap (h : Gap text rest) : r.Reaches text r rest :=
  ⟨[], .done h, rfl⟩

theorem reaches_of_step (hstarts : t.Starts (skipBlanks false text) mid)
    (hstep : r.step t = some next) (h : next.Reaches mid r' rest) : r.Reaches text r' rest := by
  obtain ⟨ts, hcuts, hrun⟩ := h
  exact ⟨t :: ts, cutsTo_cons_iff.mpr ⟨mid, hstarts, hcuts⟩, by rw [run_cons, hstep]; exact hrun⟩

/-- **A reading stays where it is, but for blanks, or takes a token.** -/
theorem Reaches.cases (h : r.Reaches text r' rest) : r' = r ∧ Gap text rest ∨
    ∃ t mid next, t.Starts (skipBlanks false text) mid ∧ r.step t = some next ∧
      next.Reaches mid r' rest := by
  obtain ⟨_ | ⟨t, ts⟩, hcuts, hrun⟩ := h
  · exact .inl ⟨(Option.some.inj hrun).symm, cutsTo_nil_iff.mp hcuts⟩
  · obtain ⟨mid, hstarts, hcuts⟩ := cutsTo_cons_iff.mp hcuts
    rw [run_cons] at hrun
    obtain ⟨next, hstep, hrun⟩ := Option.bind_eq_some_iff.mp hrun
    exact .inr ⟨t, mid, next, hstarts, hstep, ts, hcuts, hrun⟩

theorem Reaches.isSuffix (h : r.Reaches text r' rest) : rest <:+ text := by
  obtain ⟨ts, hcuts, -⟩ := h
  exact hcuts.isSuffix

theorem Reaches.trans (h : r.Reaches text next mid) (h' : next.Reaches mid r' rest) :
    r.Reaches text r' rest := by
  obtain ⟨ts, hcuts, hrun⟩ := h
  obtain ⟨us, hcuts', hrun'⟩ := h'
  exact ⟨ts ++ us, hcuts.append hcuts', by rw [run_append, hrun]; exact hrun'⟩

/-- A reading that is alike keeps up. -/
theorem Reaches.keepsUp (h : r.Reaches text r' rest) (hplain : r.plain = s.plain) :
    s.KeepsUp text r' rest := by
  obtain ⟨ts, hcuts, hrun⟩ := h
  obtain ⟨s', hrun', hs'⟩ := exists_run_of_plain hplain hrun
  exact .inl ⟨s', ⟨ts, hcuts, hrun'⟩, hs'⟩

theorem KeepsUp.of_reaches (h : r.Reaches text next mid) (h' : next.KeepsUp mid r' rest) :
    r.KeepsUp text r' rest := by
  rcases h' with ⟨s, hreaches, hplain⟩ | ⟨s, further, hreaches, hfurther⟩
  · exact .inl ⟨s, h.trans hreaches, hplain⟩
  · exact .inr ⟨s, further, h.trans hreaches, hfurther⟩

/-- What takes a token behind a gap comes further than the gap. -/
theorem keepsUp_of_gap (hgap : Gap text rest)
    (hstarts : t.Starts (skipBlanks false text) mid) (hstep : r.step t = some next) :
    r.KeepsUp text r' rest := by
  refine .inr ⟨next, mid, reaches_of_step hstarts hstep (reaches_of_gap .none), ?_⟩
  have hsuffix := hgap.skipBlanks.isSuffix
  exact ⟨hstarts.isSuffix.trans hsuffix,
    Nat.lt_of_lt_of_le hstarts.length_lt hsuffix.length_le⟩

/-- **Where the one that goes on stops, the other does.** -/
theorem GoesOn.stopsAt (h : r.GoesOn text next mid) (hstop : next.StopsAt mid stop) :
    r.StopsAt text stop := by
  obtain ⟨r', hr'⟩ := hstop.reaches
  -- nothing comes further than the stop
  have hshort : ∀ {s further rest}, next.Reaches mid s further → rest <:+ stop.rest →
      ¬ further.length < rest.length := fun hfurther hrest hlt =>
    absurd (hstop.furthest _ _ hfurther).length_le (by have := hrest.length_le; omega)
  refine ⟨⟨r', h.reaches.trans hr'⟩, fun s rest hs => ?_, fun s hs => ?_, fun k => ?_,
    hstop.sorted⟩
  · rcases h.keepsUp s rest hs with ⟨s', hs', -⟩ | ⟨s', further, hs', hsuffix, -⟩
    · exact hstop.furthest s' rest hs'
    · exact (hstop.furthest s' further hs').trans hsuffix
  · rcases h.keepsUp s [] hs with ⟨s', hs', hplain⟩ | ⟨s', further, hs', -, hlt⟩
    · exact finish?_eq_none_of_plain hplain.symm (hstop.unfinished s' hs')
    · exact absurd hlt (Nat.not_lt_zero _)
  · rw [hstop.expected]
    constructor
    · rintro ⟨s, hs, hexpects⟩
      exact ⟨s, h.reaches.trans hs, hexpects⟩
    · rintro ⟨s, hs, hexpects⟩
      rcases h.keepsUp s stop.rest hs with ⟨s', hs', hplain⟩ | ⟨s', further, hs', -, hlt⟩
      · exact ⟨s', hs', expects_of_plain hplain hexpects⟩
      · exact absurd hlt (hshort hs' List.suffix_rfl)

/-- Blanks in front make no difference. -/
theorem goesOn_skipBlanks (r : Reading) (text : List Char) :
    r.GoesOn text r (skipBlanks false text) := by
  refine ⟨reaches_of_gap (gap_skipBlanks_false text), fun r' rest h => ?_⟩
  have hsolid := skipBlanks_of_isSolid (isSolid_skipBlanks false text)
  rcases h.cases with ⟨rfl, hgap⟩ | ⟨t, mid, next, hstarts, hstep, hrest⟩
  · have hsuffix := hgap.skipBlanks.isSuffix
    rcases hsuffix.length_le.eq_or_lt with heq | hlt
    · obtain rfl := hsuffix.eq_of_length heq
      exact .inl ⟨r', reaches_of_gap .none, rfl⟩
    · exact .inr ⟨r', _, reaches_of_gap .none, hsuffix, hlt⟩
  · exact .inl ⟨r', reaches_of_step (by rwa [hsolid]) hstep hrest, rfl⟩

/-- **A token is gone on with** when no other token comes further. -/
theorem goesOn_of_step (htext : IsSolid text) (hstarts : t.Starts text mid)
    (hstep : r.step t = some next)
    (hothers : ∀ t' mid' next', t' ≠ t → t'.Starts text mid' → r.step t' = some next' →
      ∀ r' rest, next'.Reaches mid' r' rest → next.KeepsUp mid r' rest) :
    r.GoesOn text next mid := by
  have hskip : skipBlanks false text = text := skipBlanks_of_isSolid htext
  refine ⟨reaches_of_step (by rwa [hskip]) hstep (reaches_of_gap .none), fun r' rest h => ?_⟩
  rcases h.cases with ⟨rfl, hgap⟩ | ⟨t', mid', next', hstarts', hstep', hrest⟩
  · obtain rfl := eq_of_gap_of_isSolid hgap htext
    exact .inr ⟨next, mid, reaches_of_gap .none, hstarts.isSuffix, hstarts.length_lt⟩
  · rw [hskip] at hstarts'
    by_cases ht : t' = t
    · subst ht
      obtain rfl := hstarts.unique hstarts'
      obtain rfl := Option.some.inj (hstep.symm.trans hstep')
      exact .inl ⟨r', hrest, rfl⟩
    · exact hothers t' mid' next' ht hstarts' hstep' r' rest hrest

/-- Where the word `static` is not contested, no other token can be taken. -/
theorem goesOn_of_not_contested (htext : IsSolid text) (hr : ¬ r.Contested text)
    (hstarts : t.Starts text mid) (hstep : r.step t = some next) : r.GoesOn text next mid := by
  refine goesOn_of_step htext hstarts hstep fun t' mid' next' ht hstarts' hstep' => ?_
  have hterminal := terminal_unique hr hstarts hstep hstarts' hstep'
  exact absurd (hstarts'.eq_of_terminal hstarts hterminal.symm) ht

/-! ## The word `static` -/

/-- What the text after the word `static` is like, for each sense it gives the
word. -/
theorem senseOfStatic_cases (after : List Char) :
    (senseOfStatic after = .mark ∧ ∃ c more, after = c :: more ∧ isNameStart c = true) ∨
    (senseOfStatic after = .name ∧ ∃ c more, after = c :: more ∧ isNameStart c = false ∧
      isNameChar c = true) ∨
    EndsName after ∧
      ((senseOfStatic after = .mark ∧ ∃ c more, skipBlanks false after = c :: more ∧
        isNameStart c = true) ∨
      (senseOfStatic after = .name ∧ ∃ more, skipBlanks false after = ':' :: more) ∨
      (senseOfStatic after = .neither (skipBlanks false after) ∧
        ∀ c ∈ (skipBlanks false after).head?, c ≠ ':' ∧ isNameStart c = false)) := by
  rcases after with _ | ⟨c, more⟩
  · exact .inr (.inr ⟨by simp [EndsName], .inr (.inr ⟨rfl, by simp [skipBlanks]⟩)⟩)
  · by_cases hstart : isNameStart c = true
    · exact .inl ⟨by simp [senseOfStatic, hstart], c, more, rfl, hstart⟩
    · rw [Bool.not_eq_true] at hstart
      by_cases hchar : isNameChar c = true
      · exact .inr (.inl ⟨by simp [senseOfStatic, hstart, hchar], c, more, rfl, hstart, hchar⟩)
      · rw [Bool.not_eq_true] at hchar
        refine .inr (.inr ⟨by simpa [EndsName] using hchar, ?_⟩)
        -- past the blanks a name, a colon or something else follows
        rcases hskip : skipBlanks false (c :: more) with _ | ⟨d, rest⟩
        · exact .inr (.inr ⟨by simp [senseOfStatic, hstart, hchar, hskip], by simp⟩)
        · by_cases hcolon : d = ':'
          · subst hcolon
            exact .inr (.inl ⟨by simp [senseOfStatic, hstart, hchar, hskip], rest, rfl⟩)
          · by_cases hd : isNameStart d = true
            · exact .inl ⟨by simp [senseOfStatic, hstart, hchar, hskip, hcolon, hd], d, rest, rfl, hd⟩
            · refine .inr (.inr ⟨by simp [senseOfStatic, hstart, hchar, hskip, hcolon, hd], ?_⟩)
              simpa using And.intro hcolon hd

/-- Behind the mark of a static field there are blanks, or a name. -/
theorem reaches_of_staticWord (h : (r.toStage (.staticWord b)).Reaches text r' rest) :
    r' = r.toStage (.staticWord b) ∧ Gap text rest ∨
      ∃ c more, skipBlanks false text = c :: more ∧ isNameStart c = true := by
  rcases h.cases with h | ⟨t, mid, next, hstarts, hstep, -⟩
  · exact .inl h
  · obtain ⟨n, rfl⟩ := exists_name_of_static hstep
    exact .inr (exists_cons_of_starts_name hstarts)

/-- Behind the name of a field there are blanks, or a colon. -/
theorem reaches_of_fieldName {head : FieldHead}
    (h : (r.toStage (.fieldName b head)).Reaches text r' rest) :
    r' = r.toStage (.fieldName b head) ∧ Gap text rest ∨
      ∃ more, skipBlanks false text = ':' :: more := by
  rcases h.cases with h | ⟨t, mid, next, hstarts, hstep, -⟩
  · exact .inl h
  · obtain rfl := eq_colon_of_fieldName hstep
    exact .inr ⟨mid, hstarts⟩

/-- A name at the word `static` takes in nothing more if no name goes on
there. -/
theorem eq_of_endsName (hname : (Token.name n).Starts text mid)
    (hword : (Token.mark .staticWord).Starts text after) (hends : EndsName after) :
    after = mid := by
  obtain ⟨_ | ⟨c, more⟩, hn, rfl⟩ := exists_of_starts_static hname hword
  · rfl
  · have hchar := hends c rfl
    rw [isNameChar_of_mem hname.1 (by simp [hn])] at hchar
    cases hchar

/-- Else it runs on behind the word. -/
theorem exists_of_isNameChar {c : Char} {more : List Char} (hname : (Token.name n).Starts text mid)
    (hword : (Token.mark .staticWord).Starts text (c :: more)) (hc : isNameChar c = true) :
    ∃ behind, more = behind ++ mid ∧ ∀ d ∈ behind, isNameChar d = true := by
  obtain ⟨_ | ⟨d, behind⟩, hn, hafter⟩ := exists_of_starts_static hname hword
  · have hchar := hname.2.2 c (by rw [← show c :: more = mid from hafter]; rfl)
    rw [hc] at hchar
    cases hchar
  · exact ⟨behind, (List.cons.inj hafter).2, fun d hd =>
      isNameChar_of_mem hname.1 (by simp [hn, hd])⟩

/-- Where the word `static` is contested, either it is the mark or a name
starts with it. -/
theorem cases_of_contested (hb : r.settled.stage = .body b)
    (hword : (Token.mark .staticWord).Starts text after) (hstarts : t.Starts text mid)
    (hstep : r.step t = some next) :
    t = .mark .staticWord ∧ mid = after ∧ next = r.settled.toStage (.staticWord b) ∨
      ∃ n, t = .name n ∧ next = r.settled.toStage (.fieldName b ⟨false, n⟩) := by
  cases t with
  | mark m =>
    obtain rfl : m = .staticWord :=
      mark_unique (strip?_eq_some_iff.mpr hstarts) (strip?_eq_some_iff.mpr hword)
    exact .inl ⟨rfl, hstarts.unique hword, Option.some.inj (hstep.symm.trans (step_static_of_body hb))⟩
  | name n => exact .inr ⟨n, rfl, Option.some.inj (hstep.symm.trans (step_name_of_body hb))⟩

/-- **The mark is gone on with** when a name follows it. -/
theorem goesOn_static (htext : IsSolid text) (hb : r.settled.stage = .body b)
    (hword : (Token.mark .staticWord).Starts text after) (hsense : senseOfStatic after = .mark) :
    r.GoesOn text (r.settled.toStage (.staticWord b)) after := by
  refine goesOn_of_step htext hword (step_static_of_body hb) ?_
  intro t' mid' next' ht hstarts hstep r' rest hreaches
  rcases cases_of_contested hb hword hstarts hstep with ⟨rfl, -⟩ | ⟨n, rfl, rfl⟩
  · exact absurd rfl ht
  rcases senseOfStatic_cases after with ⟨-, c, more, rfl, hc⟩ | ⟨hname, -⟩ | ⟨hends, hcases⟩
  · -- the name runs on behind the word, and both readings come to its end
    obtain ⟨behind, rfl, hbehind⟩ :=
      exists_of_isNameChar hstarts hword (isNameChar_of_isNameStart hc)
    have hname : (Token.name (String.ofList (c :: behind))).Starts
        (skipBlanks false (c :: (behind ++ mid'))) mid' := by
      rw [skipBlanks_of_isSolid (isSolid_cons (isNameChar_of_isNameStart hc)), Token.Starts,
        String.toList_ofList]
      exact ⟨⟨hc, hbehind⟩, rfl, hstarts.2.2⟩
    have hsame : (r.settled.toStage (.fieldName b ⟨false, n⟩)).plain =
      (r.settled.toStage (.fieldName b ⟨true, String.ofList (c :: behind)⟩)).plain := rfl
    exact (hreaches.keepsUp hsame).of_reaches (reaches_of_step hname rfl (reaches_of_gap .none))
  · rw [hsense] at hname
    cases hname
  · obtain rfl := eq_of_endsName hstarts hword hends
    rcases hcases with ⟨-, c, more, hskip, hc⟩ | ⟨hname, -⟩ | ⟨hneither, -⟩
    · -- a name follows past the blanks, so nothing follows the name `static`
      rcases reaches_of_fieldName hreaches with ⟨-, hgap⟩ | ⟨_, hcolon⟩
      · have hname : ∃ x, stripName? (skipBlanks false after) = some x := by
          simp [hskip, stripName?, hc]
        obtain ⟨⟨x, mid⟩, hname⟩ := hname
        exact keepsUp_of_gap hgap (stripName?_eq_some_iff.mp hname) rfl
      · obtain ⟨rfl, -⟩ := List.cons.inj (hskip.symm.trans hcolon)
        cases hc
    · rw [hsense] at hname
      cases hname
    · rw [hsense] at hneither
      cases hneither

/-- **The name is gone on with** when it runs on or a colon follows it. -/
theorem goesOn_name (htext : IsSolid text) (hb : r.settled.stage = .body b)
    (hword : (Token.mark .staticWord).Starts text after) (hsense : senseOfStatic after = .name)
    (hname : (Token.name n).Starts text mid) :
    r.GoesOn text (r.settled.toStage (.fieldName b ⟨false, n⟩)) mid := by
  refine goesOn_of_step htext hname (step_name_of_body hb) ?_
  intro t' mid' next' ht hstarts hstep r' rest hreaches
  rcases cases_of_contested hb hword hstarts hstep with ⟨rfl, rfl, rfl⟩ | ⟨n', rfl, rfl⟩
  · rcases senseOfStatic_cases mid' with ⟨hmark, -⟩ | ⟨-, c, more, rfl, hstart, hchar⟩ | ⟨hends, hcases⟩
    · rw [hsense] at hmark
      cases hmark
    · -- the name runs on behind the word, where nothing follows the mark
      have hsolid : IsSolid (c :: more) := isSolid_cons hchar
      rcases reaches_of_staticWord hreaches with ⟨-, hgap⟩ | ⟨d, _, hskip, hd⟩
      · obtain rfl := eq_of_gap_of_isSolid hgap hsolid
        obtain ⟨behind, rfl, -⟩ := exists_of_isNameChar hname hword hchar
        refine .inr ⟨_, mid, reaches_of_gap .none, ?_, ?_⟩
        · exact (List.suffix_append behind mid).trans (List.suffix_cons c _)
        · simp only [List.length_append, List.length_cons]
          omega
      · rw [skipBlanks_of_isSolid hsolid] at hskip
        obtain ⟨rfl, -⟩ := List.cons.inj hskip
        rw [hstart] at hd
        cases hd
    · obtain rfl := eq_of_endsName hname hword hends
      rcases hcases with ⟨hmark, -⟩ | ⟨-, more, hskip⟩ | ⟨hneither, -⟩
      · rw [hsense] at hmark
        cases hmark
      · -- a colon follows past the blanks, so nothing follows the mark
        rcases reaches_of_staticWord hreaches with ⟨-, hgap⟩ | ⟨c, _, hskip', hc⟩
        · have hcolon : (Token.mark .colon).Starts (skipBlanks false mid') more := hskip
          exact keepsUp_of_gap hgap hcolon rfl
        · obtain ⟨rfl, -⟩ := List.cons.inj (hskip.symm.trans hskip')
          cases hc
      · rw [hsense] at hneither
        cases hneither
  · exact absurd (hstarts.eq_of_terminal hname rfl) ht

/-! ## Where a reading stops -/

/-- Nothing can be taken: not at the start of a solid text, nor at its end. -/
theorem stopsAt_of_not_starts (htext : IsSolid text) (hfinish : text = [] → r.finish? = none)
    (hnone : ∀ t mid, t.Starts text mid → r.step t = none) : r.StopsAt text ⟨text, r.expected⟩ := by
  have honly : ∀ {r' rest}, r.Reaches text r' rest → r' = r ∧ rest = text := by
    intro r' rest h
    rcases h.cases with ⟨rfl, hgap⟩ | ⟨t, mid, next, hstarts, hstep, -⟩
    · exact ⟨rfl, (eq_of_gap_of_isSolid hgap htext).symm⟩
    · rw [skipBlanks_of_isSolid htext] at hstarts
      rw [hnone t mid hstarts] at hstep
      cases hstep
  refine ⟨⟨r, reaches_of_gap .none⟩, fun r' rest h => ?_, fun r' h => ?_, fun k => ?_, ?_⟩
  · exact (honly h).2 ▸ List.suffix_rfl
  · obtain ⟨rfl, hnil⟩ := honly h
    exact hfinish hnil.symm
  · rw [expected, List.mem_filter]
    constructor
    · rintro ⟨-, hexpects⟩
      exact ⟨r, reaches_of_gap .none, hexpects⟩
    · rintro ⟨r', h, hexpects⟩
      rw [(honly h).1] at hexpects
      exact ⟨Terminal.mem_all k, hexpects⟩
  · exact List.filter_sublist

/-- Where the word `static` is neither, it ends, and past the blanks nothing
follows that may. -/
theorem of_senseOfStatic_neither (h : senseOfStatic after = .neither rest) :
    EndsName after ∧ skipBlanks false after = rest ∧
      ∀ c ∈ rest.head?, c ≠ ':' ∧ isNameStart c = false := by
  rcases senseOfStatic_cases after with ⟨hmark, -⟩ | ⟨hname, -⟩ |
    ⟨hends, ⟨hmark, -⟩ | ⟨hname, -⟩ | ⟨hneither, hrest⟩⟩ <;> simp_all

/-- There the mark and the name are taken, and blanks behind them. -/
theorem cases_of_neither (htext : IsSolid text) (hb : r.settled.stage = .body b)
    (hword : (Token.mark .staticWord).Starts text after)
    (hsense : senseOfStatic after = .neither rest) (h : r.Reaches text r' mid) :
    r' = r ∧ mid = text ∨ Gap after mid ∧ (r' = r.settled.toStage (.staticWord b) ∨
      r' = r.settled.toStage (.fieldName b ⟨false, "static"⟩)) := by
  obtain ⟨hends, rfl, hrest⟩ := of_senseOfStatic_neither hsense
  have hname : (Token.name "static").Starts text after := ⟨by decide, hword, hends⟩
  rcases h.cases with ⟨rfl, hgap⟩ | ⟨t, behind, next, hstarts, hstep, hreaches⟩
  · exact .inl ⟨rfl, (eq_of_gap_of_isSolid hgap htext).symm⟩
  rw [skipBlanks_of_isSolid htext] at hstarts
  refine .inr ?_
  rcases cases_of_contested hb hword hstarts hstep with ⟨rfl, rfl, rfl⟩ | ⟨n, rfl, rfl⟩
  · rcases reaches_of_staticWord hreaches with ⟨rfl, hgap⟩ | ⟨c, more, hskip, hc⟩
    · exact ⟨hgap, .inl rfl⟩
    · rw [(hrest c (by rw [hskip]; rfl)).2] at hc
      cases hc
  · obtain rfl := Token.name.inj (hstarts.eq_of_terminal hname rfl)
    obtain rfl := hstarts.unique hname
    rcases reaches_of_fieldName hreaches with ⟨rfl, hgap⟩ | ⟨more, hskip⟩
    · exact ⟨hgap, .inr rfl⟩
    · exact absurd rfl (hrest ':' (by rw [hskip]; rfl)).1

/-- **The word `static` is both at once** where neither goes on. -/
theorem stopsAt_of_neither (htext : IsSolid text) (hb : r.settled.stage = .body b)
    (hword : (Token.mark .staticWord).Starts text after)
    (hsense : senseOfStatic after = .neither rest) :
    r.StopsAt text ⟨rest, [.mark .colon, .name]⟩ := by
  obtain ⟨hends, rfl, -⟩ := of_senseOfStatic_neither hsense
  have hgap := gap_skipBlanks_false after
  have hskip : skipBlanks false text = text := skipBlanks_of_isSolid htext
  have hname : (Token.name "static").Starts text after := ⟨by decide, hword, hends⟩
  have hmarkReaches : r.Reaches text (r.settled.toStage (.staticWord b)) (skipBlanks false after) :=
    reaches_of_step (by rwa [hskip]) (step_static_of_body hb) (reaches_of_gap hgap)
  have hnameReaches : r.Reaches text (r.settled.toStage (.fieldName b ⟨false, "static"⟩))
      (skipBlanks false after) :=
    reaches_of_step (by rwa [hskip]) (step_name_of_body hb) (reaches_of_gap hgap)
  have hsorted : [Terminal.mark .colon, .name].Sublist Terminal.all := by decide
  refine ⟨⟨_, hmarkReaches⟩, fun r' rest h => ?_, fun r' h => ?_, fun k => ?_, hsorted⟩
  · rcases cases_of_neither htext hb hword hsense h with ⟨-, rfl⟩ | ⟨hgap', -⟩
    · exact hgap.isSuffix.trans hword.isSuffix
    · exact hgap'.skipBlanks.isSuffix
  · rcases cases_of_neither htext hb hword hsense h with ⟨-, rfl⟩ | ⟨-, rfl | rfl⟩
    · exact absurd rfl (ne_nil_of_starts hword)
    · simp [finish?, settled, toStage]
    · simp [finish?, settled, toStage]
  · constructor
    · intro hk
      rcases List.mem_pair.mp hk with rfl | rfl
      · exact ⟨_, hnameReaches, rfl⟩
      · exact ⟨_, hmarkReaches, rfl⟩
    · rintro ⟨r', h, hexpects⟩
      rw [← k.terminal_token] at hexpects ⊢
      obtain ⟨next, hstep⟩ := expects_terminal_iff.mp hexpects
      rcases cases_of_neither htext hb hword hsense h with ⟨-, hsame⟩ | ⟨-, rfl | rfl⟩
      · -- the word has been taken
        have hsame : skipBlanks false after = text := hsame
        have hlt := hword.length_lt
        have hle := hgap.isSuffix.length_le
        rw [hsame] at hle
        omega
      · obtain ⟨n, ht⟩ := exists_name_of_static hstep
        simp [ht, Token.terminal]
      · simp [eq_colon_of_fieldName hstep, Token.terminal]

/-- What is taken at the word `static`, for each sense the text gives it. -/
theorem advance_of_contested (hb : r.settled.stage = .body b)
    (hword : (Token.mark .staticWord).Starts text after) :
    (senseOfStatic after = .mark ∧
      r.advance text = .ok (r.settled.toStage (.staticWord b), after)) ∨
    (senseOfStatic after = .name ∧ ∃ n mid, (Token.name n).Starts text mid ∧
      r.advance text = .ok (r.settled.toStage (.fieldName b ⟨false, n⟩), mid)) ∨
    ∃ rest, senseOfStatic after = .neither rest ∧
      r.advance text = .error ⟨rest, [.mark .colon, .name]⟩ := by
  have hexpects : r.expects (.mark .staticWord) = true := expects_static_iff.mpr ⟨b, hb⟩
  have hafter : ∀ after', (Token.mark .staticWord).Starts text after' → after' = after :=
    fun after' h => h.unique hword
  cases hsense : senseOfStatic after with
  | mark =>
    refine .inl ⟨rfl, advance_eq_ok hword (step_static_of_body hb) fun after' h _ => ?_⟩
    rw [hafter after' h, hsense]
    rfl
  | name =>
    obtain ⟨⟨n, mid⟩, hname⟩ : ∃ x, stripName? text = some x := by
      rw [show text = Mark.staticWord.spelling.toList ++ after from hword]
      exact ⟨_, rfl⟩
    have hstarts := stripName?_eq_some_iff.mp hname
    refine .inr (.inl ⟨rfl, n, mid, hstarts, ?_⟩)
    refine advance_eq_ok hstarts (step_name_of_body hb) fun after' h _ => ?_
    rw [hafter after' h, hsense]
    rfl
  | neither rest =>
    refine .inr (.inr ⟨rest, rfl, ?_⟩)
    simp [advance, kindsAt, strip?_eq_some_iff.mpr hword, hexpects, hsense, bind, Except.bind]

/-- **A token that is taken is gone on with.** -/
theorem goesOn_of_advance (htext : IsSolid text) (h : r.advance text = .ok (next, mid)) :
    r.GoesOn text next mid := by
  by_cases hcontested : r.Contested text
  · obtain ⟨hexpects, after, hword⟩ := hcontested
    obtain ⟨b, hb⟩ := expects_static_iff.mp hexpects
    rcases advance_of_contested hb hword with
      ⟨hsense, hok⟩ | ⟨hsense, n, mid', hname, hok⟩ | ⟨_, -, herror⟩
    · obtain ⟨rfl, rfl⟩ := Prod.mk.inj (Except.ok.inj (h.symm.trans hok))
      exact goesOn_static htext hb hword hsense
    · obtain ⟨rfl, rfl⟩ := Prod.mk.inj (Except.ok.inj (h.symm.trans hok))
      exact goesOn_name htext hb hword hsense hname
    · rw [h] at herror
      cases herror
  · obtain ⟨t, hstarts, hstep, -⟩ := exists_of_advance h
    exact goesOn_of_not_contested htext hcontested hstarts hstep

/-- **Where no token is taken, nothing comes further.** -/
theorem stopsAt_of_advance (htext : IsSolid text) (hne : text ≠ [])
    (h : r.advance text = .error stop) : r.StopsAt text stop := by
  by_cases hcontested : r.Contested text
  · obtain ⟨hexpects, after, hword⟩ := hcontested
    obtain ⟨b, hb⟩ := expects_static_iff.mp hexpects
    rcases advance_of_contested hb hword with ⟨-, hok⟩ | ⟨-, n, mid, -, hok⟩ | ⟨rest, hsense, herror⟩
    · rw [h] at hok
      cases hok
    · rw [h] at hok
      cases hok
    · obtain rfl := Except.error.inj (h.symm.trans herror)
      exact stopsAt_of_neither htext hb hword hsense
  · rw [advance, kindsAt_of_not_contested hcontested] at h
    simp only [bind, Except.bind] at h
    split at h
    · cases h
    · rename_i hfind
      obtain rfl := Except.error.inj h
      refine stopsAt_of_not_starts htext (absurd · hne) fun t mid hstarts => ?_
      -- every kind has been looked for
      have hnone := List.findSome?_eq_none_iff.mp hfind t.terminal (Terminal.mem_all _)
      by_contra hstep
      obtain ⟨next, hstep⟩ := Option.ne_none_iff_exists'.mp hstep
      rw [take?_eq_some_iff.mpr ⟨t, rfl, hstarts, hstep⟩] at hnone
      cases hnone

theorem read_eq_error (h : r.read text = .error stop) :
    skipBlanks false text = [] ∧ r.finish? = none ∧ stop = ⟨[], r.expected⟩ ∨
    skipBlanks false text ≠ [] ∧ (r.advance (skipBlanks false text) = .error stop ∨
      ∃ next mid, r.advance (skipBlanks false text) = .ok (next, mid) ∧
        next.read mid = .error stop) := by
  rw [read] at h
  split at h
  · rename_i heq
    refine .inl ⟨heq, ?_⟩
    cases hfinish : r.finish? with
    | none => exact ⟨rfl, by rw [hfinish] at h; exact (Except.error.inj h).symm⟩
    | some o => rw [hfinish] at h; cases h
  · rename_i c rest heq
    refine .inr ⟨by simp [heq], ?_⟩
    rw [heq]
    split at h
    · rename_i heq'
      exact .inl (heq'.trans (congrArg _ (Except.error.inj h)))
    · rename_i next mid heq'
      exact .inr ⟨next, mid, heq', h⟩

/-- **A reading that stops has come as far as any**, and expects what any
expects there. -/
theorem stopsAt_of_read (h : r.read text = .error stop) : r.StopsAt text stop := by
  induction hlength : text.length using Nat.strong_induction_on generalizing r text with
  | _ length ih =>
    refine (goesOn_skipBlanks r text).stopsAt ?_
    have hsolid := isSolid_skipBlanks false text
    rcases read_eq_error h with ⟨hskip, hfinish, rfl⟩ | ⟨hne, herror | ⟨next, mid, hadvance, hread⟩⟩
    · rw [hskip] at hsolid ⊢
      exact stopsAt_of_not_starts hsolid (fun _ => hfinish) fun t mid hstarts =>
        absurd rfl (ne_nil_of_starts hstarts)
    · exact stopsAt_of_advance hsolid hne herror
    · have hshorter : mid.length < length := by
        have hle := skipBlanks_length_le false text
        have hlt := advance_length_lt hadvance
        omega
      exact (goesOn_of_advance hsolid hadvance).stopsAt (ih _ hshorter hread rfl)

end Reading

end Description

end TypeBridge
