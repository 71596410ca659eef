import TypeBridge.Proofs.Resolution.Chain
import TypeBridge.Proofs.Resolution.Meaning
import TypeBridge.Proofs.Pairing
/-!
# TypeBridge — linking field after field

Each field of a type is linked in a table that the fields before have already
changed. They have changed only their own pointers, and added facts of their
own at the end, so a field finds its chain and its mention as they were
(`Pending`), and once it is linked (`FieldLinked`) no later field touches it.

The lemmas follow the recursion, from one chain (`resolve_cases`) to the fields
of one type (`linkFields_cases`). Each says what the table is like after it if
every mention means something, and that it fails if one does not.
-/

namespace TypeBridge

namespace Managed

namespace Universe

variable {u v w w' : Universe} {dir : Directory} {path : List String} {owner id last p : FactId}
variable {pointers ids : List FactId} {old new : Field} {fields : List Field}
variable {touched : FactId → Prop}

/-! ## One chain -/

/-- At the end of a chain, what is mentioned is looked up. -/
theorem resolve_of_end (h : (u.fact id).target? = none) (steps : ℕ) :
    u.resolve dir owner steps id = u.lookUp dir owner id := by
  cases steps with
  | zero => rfl
  | succ steps => rw [resolve, h]

/-- A pointer is turned to what its pointee is resolved to. -/
theorem resolve_of_pointer {next : FactId} (h : (u.fact id).target? = some next) (steps : ℕ) :
    u.resolve dir owner (steps + 1) id =
      (u.resolve dir owner steps next).map fun (v, found) =>
        (v.modify id ({ · with pointee := some found }), id) := by
  simp only [resolve, h]
  cases u.resolve dir owner steps next <;> rfl

theorem resolve_eq (h : u.Leads id pointers last) (hlast : (u.fact last).target? = none)
    {steps : ℕ} (hsteps : pointers.length ≤ steps) :
    u.resolve dir owner steps id = (u.lookUp dir owner last).map fun (v, found) =>
      (v.repoint pointers found, pointers.headD found) := by
  induction h generalizing steps with
  | here id =>
    rw [resolve_of_end hlast]
    cases u.lookUp dir owner id <;> rfl
  | pointer htarget _ ih =>
    obtain ⟨steps, rfl⟩ : ∃ n, steps = n + 1 := ⟨steps - 1, by simp at hsteps; omega⟩
    rw [resolve_of_pointer htarget, ih hlast (by simpa using hsteps)]
    cases u.lookUp dir owner _ <;> rfl

/-- Where a linked type ends: at a special fact that was not there before, or
at the declared type of a name. -/
def EndsAt (dir : Directory) (w v : Universe) (target : FactId) : Meaning → Prop
  | .keyword s => w.size ≤ target ∧ v.fact target = .ofSpecial s
  | .declared name => (name, target) ∈ dir

/-- The end stays where it is while no new fact is touched. -/
theorem EndsAt.of_keeps {target : FactId} {meaning : Meaning} (h : EndsAt dir w v target meaning)
    (hkeeps : v.Keeps w' touched) (htouched : ∀ p, touched p → p < w.size) :
    EndsAt dir w w' target meaning := by
  cases meaning with
  | declared name => exact h
  | keyword s =>
    obtain ⟨hsize, hspecial⟩ := h
    have htarget : target < v.size := lt_size_of_kind (by simp [hspecial, Fact.ofSpecial])
    refine ⟨hsize, (hkeeps.fact_eq target htarget fun ht => ?_).trans hspecial⟩
    exact Nat.lt_irrefl _ (Nat.lt_of_lt_of_le (htouched target ht) hsize)

/-- A field is linked from one table to another: its type is the same chain of
pointers, with what the mention means at the end. -/
structure FieldLinked (dir : Directory) (path : List String) (w v : Universe) (old new : Field) :
    Prop where
  name_eq : new.name = old.name
  isStatic_eq : new.isStatic = old.isStatic
  type : ∃ pointers mention target meaning, w.Leads old.type pointers mention ∧
    (w.fact mention).kind = .mention ∧ v.Leads new.type pointers target ∧
    (∀ p ∈ pointers, ∃ pointee, v.fact p = { w.fact p with pointee }) ∧
    (w.fact mention).Means (dir.map Prod.fst) path meaning ∧ EndsAt dir w v target meaning

/-- A field's type is a mention that means something. -/
def Resolvable (dir : Directory) (path : List String) (u : Universe) (field : Field) : Prop :=
  ∃ pointers mention meaning, u.Leads field.type pointers mention ∧
    (u.fact mention).kind = .mention ∧ (u.fact mention).Means (dir.map Prod.fst) path meaning

/-- The first of some fields of a type that means nothing, and the error that
tells of it: by the name that is mentioned, and that of the type. -/
def FieldUnknown (dir : Directory) (u : Universe) (owner : FactId) (fields : List Field)
    (error : LinkError) : Prop :=
  ∃ front field back pointers mention, fields = front ++ field :: back ∧
    (∀ f ∈ front, Resolvable dir (u.fact owner).namespaces u f) ∧
    ¬ Resolvable dir (u.fact owner).namespaces u field ∧
    u.Leads field.type pointers mention ∧ (u.fact mention).kind = .mention ∧
    error = .unknown (u.fact mention).dottedName (u.fact owner).dottedName

/-- Fields that are still to be linked: their types are mentions behind
pointers, and no two fields share any of those facts. -/
structure Pending (u : Universe) (fields : List Field) : Prop where
  mentions : ∀ field ∈ fields, ∃ pointers mention, u.Leads field.type pointers mention ∧
    (u.fact mention).kind = .mention ∧ mention < u.size
  apart : fields.Pairwise fun f g => ∀ p, u.Passes f.type p → ¬ u.Passes g.type p

/-- The directory holds declared types. -/
def Declares (u : Universe) (dir : Directory) : Prop :=
  ∀ entry ∈ dir, (u.fact entry.2).kind = .named

theorem target?_of_mention (h : (u.fact p).kind = .mention) : (u.fact p).target? = none :=
  Fact.target?_eq_none (by simp [h])

namespace Pending

theorem of_sublist {more : List Field} (h : w.Pending more) (hsub : fields.Sublist more) :
    w.Pending fields :=
  ⟨fun field hfield => h.mentions field (hsub.subset hfield), h.apart.sublist hsub⟩

theorem of_cons (h : w.Pending (old :: fields)) : w.Pending fields :=
  h.of_sublist (List.sublist_cons_self old fields)

/-- What a field that is still to be linked passes is inside the table, and no
declared type. -/
theorem of_passes (h : w.Pending fields) {field : Field} (hfield : field ∈ fields)
    (hp : w.Passes field.type p) : p < w.size ∧ (w.fact p).kind ≠ .named := by
  obtain ⟨pointers, mention, hleads, hkind, hsize⟩ := h.mentions field hfield
  rcases (hleads.passes_iff (target?_of_mention hkind)).mp hp with hmem | rfl
  · exact ⟨hleads.lt_size hmem, by simp [hleads.kind_eq_pointer hmem]⟩
  · exact ⟨hsize, by simp [hkind]⟩

theorem fact_of_keeps (h : w.Pending fields) (hkeeps : w.Keeps v touched)
    (htouched : ∀ field ∈ fields, ∀ p, w.Passes field.type p → ¬ touched p)
    {field : Field} (hfield : field ∈ fields) (hp : w.Passes field.type p) :
    v.fact p = w.fact p :=
  hkeeps.fact_eq p (h.of_passes hfield hp).1 (htouched field hfield p hp)

theorem passes_of_keeps (h : w.Pending fields) (hkeeps : w.Keeps v touched)
    (htouched : ∀ field ∈ fields, ∀ p, w.Passes field.type p → ¬ touched p)
    {field : Field} (hfield : field ∈ fields) (hp : v.Passes field.type p) :
    w.Passes field.type p := by
  obtain ⟨pointers, hleads⟩ := hp
  refine ⟨pointers, hleads.congr_of_passes fun q hq => ?_⟩
  rw [h.fact_of_keeps hkeeps htouched hfield hq]

/-- The chain of a field is the same while only others are touched. -/
theorem leads_of_keeps (h : w.Pending fields) (hkeeps : w.Keeps v touched)
    (htouched : ∀ field ∈ fields, ∀ p, w.Passes field.type p → ¬ touched p)
    {field : Field} (hfield : field ∈ fields) (hleads : w.Leads field.type pointers last) :
    v.Leads field.type pointers last ∧ v.fact last = w.fact last := by
  refine ⟨hleads.congr fun p hp => ?_, ?_⟩
  · rw [h.fact_of_keeps hkeeps htouched hfield (hleads.passes_of_mem hp)]
  · exact h.fact_of_keeps hkeeps htouched hfield ⟨pointers, hleads⟩

/-- And it was the same before. -/
theorem leads_of_kept (h : w.Pending fields) (hkeeps : w.Keeps v touched)
    (htouched : ∀ field ∈ fields, ∀ p, w.Passes field.type p → ¬ touched p)
    {field : Field} (hfield : field ∈ fields) (hleads : v.Leads field.type pointers last) :
    w.Leads field.type pointers last ∧ v.fact last = w.fact last := by
  have hleads : w.Leads field.type pointers last := hleads.congr_of_passes fun p hp => by
    rw [h.fact_of_keeps hkeeps htouched hfield hp]
  exact ⟨hleads, h.fact_of_keeps hkeeps htouched hfield ⟨pointers, hleads⟩⟩

theorem resolvable_keeps_iff (h : w.Pending fields) (hkeeps : w.Keeps v touched)
    (htouched : ∀ field ∈ fields, ∀ p, w.Passes field.type p → ¬ touched p)
    {field : Field} (hfield : field ∈ fields) :
    Resolvable dir path v field ↔ Resolvable dir path w field := by
  constructor
  · rintro ⟨pointers, mention, meaning, hleads, hkind, hmeans⟩
    obtain ⟨hleads, hsame⟩ := h.leads_of_kept hkeeps htouched hfield hleads
    exact ⟨pointers, mention, meaning, hleads, hsame ▸ hkind, hsame ▸ hmeans⟩
  · rintro ⟨pointers, mention, meaning, hleads, hkind, hmeans⟩
    obtain ⟨hleads, hsame⟩ := h.leads_of_keeps hkeeps htouched hfield hleads
    exact ⟨pointers, mention, meaning, hleads, hsame ▸ hkind, hsame ▸ hmeans⟩

/-- What is unknown later was unknown from the start. -/
theorem unknown_of_kept {error : LinkError} (h : w.Pending fields) (hkeeps : w.Keeps v touched)
    (htouched : ∀ field ∈ fields, ∀ p, w.Passes field.type p → ¬ touched p)
    (howner : v.fact owner = w.fact owner) (hunknown : FieldUnknown dir v owner fields error) :
    FieldUnknown dir w owner fields error := by
  obtain ⟨front, field, back, pointers, mention, rfl, hfront, hnot, hleads, hkind, rfl⟩ := hunknown
  rw [howner] at hfront hnot
  have hfield : field ∈ front ++ field :: back := by simp
  obtain ⟨hleads, hsame⟩ := h.leads_of_kept hkeeps htouched hfield hleads
  refine ⟨front, field, back, pointers, mention, rfl, fun f hf => ?_, ?_, hleads, hsame ▸ hkind, ?_⟩
  · exact (h.resolvable_keeps_iff hkeeps htouched (by simp [hf])).mp (hfront f hf)
  · rwa [← h.resolvable_keeps_iff hkeeps htouched hfield]
  · rw [hsame, howner]

/-- **Fields stay as they are** while only others are touched. -/
theorem of_keeps (h : w.Pending fields) (hkeeps : w.Keeps v touched)
    (htouched : ∀ field ∈ fields, ∀ p, w.Passes field.type p → ¬ touched p) :
    v.Pending fields := by
  refine ⟨fun field hfield => ?_, h.apart.imp_of_mem fun hf hg hfg p hp hp' => ?_⟩
  · obtain ⟨pointers, mention, hleads, hkind, hsize⟩ := h.mentions field hfield
    obtain ⟨hleads, hsame⟩ := h.leads_of_keeps hkeeps htouched hfield hleads
    exact ⟨pointers, mention, hleads, hsame ▸ hkind, Nat.lt_of_lt_of_le hsize hkeeps.size_le⟩
  · exact hfg p (h.passes_of_keeps hkeeps htouched hf hp)
      (h.passes_of_keeps hkeeps htouched hg hp')

end Pending

/-- A chain that is turned to what is meant is linked. -/
theorem fieldLinked_repoint {mention target : FactId} {meaning : Meaning}
    (hleads : w.Leads old.type pointers mention) (hkind : (w.fact mention).kind = .mention)
    (hkeeps : w.Keeps v fun _ => False)
    (hmeans : (w.fact mention).Means (dir.map Prod.fst) path meaning)
    (hends : EndsAt dir w v target meaning) :
    FieldLinked dir path w (v.repoint pointers target) old
      { old with type := pointers.headD target } := by
  have hfact : ∀ p ∈ pointers, v.fact p = w.fact p := fun p hp =>
    hkeeps.fact_eq p (hleads.lt_size hp) id
  have hpointer : ∀ p ∈ pointers, (v.fact p).kind = .pointer := fun p hp => by
    rw [hfact p hp, hleads.kind_eq_pointer hp]
  refine ⟨rfl, rfl, pointers, mention, target, meaning, hleads, hkind,
    leads_repoint (hleads.nodup (target?_of_mention hkind)) hpointer, fun p hp => ?_, hmeans,
    hends.of_keeps (keeps_repoint v pointers target) fun p hp => hleads.lt_size hp⟩
  obtain ⟨pointee, hpointee⟩ := fact_repoint pointers target (lt_size_of_kind
    (by simp [hpointer p hp]) : p < v.size)
  exact ⟨pointee, by rw [hpointee, hfact p hp]⟩

/-- **One chain is linked**, if its mention means something. -/
theorem resolve_cases {mention : FactId} (dir : Directory) (owner : FactId)
    (hleads : w.Leads old.type pointers mention) (hkind : (w.fact mention).kind = .mention) :
    (∃ v type, w.resolve dir owner w.size old.type = .ok (v, type) ∧
      FieldLinked dir (w.fact owner).namespaces w v old { old with type } ∧
      w.Keeps v (w.Passes old.type)) ∨
    w.resolve dir owner w.size old.type =
        .error (.unknown (w.fact mention).dottedName (w.qualifiedName owner)) ∧
      ¬ Resolvable dir (w.fact owner).namespaces w old := by
  have hlast := target?_of_mention hkind
  have hpasses : ∀ p ∈ pointers, w.Passes old.type p := fun p hp => hleads.passes_of_mem hp
  rw [resolve_eq hleads hlast (hleads.length_le_size hlast)]
  rcases lookUp_cases w dir owner mention with
    ⟨s, hmeans, hlookUp⟩ | ⟨name, target, hmeans, hmem, hlookUp⟩ | ⟨hlookUp, hnone⟩
  · refine .inl ⟨_, _, by rw [hlookUp]; rfl, fieldLinked_repoint hleads hkind (.push w _ _) hmeans
      ⟨Nat.le_refl _, fact_push_size⟩, ?_⟩
    exact ((Keeps.push w _ _).trans (keeps_repoint _ pointers _)).mono
      fun p hp => hp.elim False.elim (hpasses p)
  · refine .inl ⟨_, _, by rw [hlookUp]; rfl, fieldLinked_repoint hleads hkind (.refl w _) hmeans
      hmem, ?_⟩
    exact (keeps_repoint _ pointers _).mono hpasses
  · refine .inr ⟨by rw [hlookUp]; rfl, ?_⟩
    rintro ⟨_, mention', meaning, hleads', hkind', hmeans⟩
    obtain ⟨-, rfl⟩ := hleads.unique hlast hleads' (target?_of_mention hkind')
    exact hnone meaning hmeans

/-! ## What a linked field passes -/

namespace FieldLinked

/-- A field that is linked means something. -/
theorem resolvable (h : FieldLinked dir path w v old new) : Resolvable dir path w old := by
  obtain ⟨pointers, mention, target, meaning, hleads, hkind, -, -, hmeans, -⟩ := h.type
  exact ⟨pointers, mention, meaning, hleads, hkind, hmeans⟩

/-- A linked field passes its own chain, and ends at a fact that is new or at a
declared type. -/
theorem of_passes (h : FieldLinked dir path w v old new) (hdir : v.Declares dir)
    (hp : v.Passes new.type p) :
    w.Passes old.type p ∨ (w.size ≤ p ∧ p < v.size) ∨ p ∈ dir.map Prod.snd := by
  obtain ⟨pointers, mention, target, meaning, hleads, -, hleads', -, -, hends⟩ := h.type
  have hold : ∀ p ∈ pointers, w.Passes old.type p := fun p hp => hleads.passes_of_mem hp
  cases meaning with
  | keyword s =>
    obtain ⟨hsize, hspecial⟩ := hends
    have hlast : (v.fact target).target? = none :=
      Fact.target?_eq_none (by simp [hspecial, Fact.ofSpecial])
    rcases (hleads'.passes_iff hlast).mp hp with hmem | rfl
    · exact .inl (hold p hmem)
    · exact .inr (.inl ⟨hsize, lt_size_of_kind (by simp [hspecial, Fact.ofSpecial])⟩)
  | declared name =>
    have hlast : (v.fact target).target? = none :=
      Fact.target?_eq_none (by simp [hdir _ hends])
    rcases (hleads'.passes_iff hlast).mp hp with hmem | rfl
    · exact .inl (hold p hmem)
    · exact .inr (.inr (List.mem_map_of_mem hends))

/-- **A linked field stays linked** while only others are touched. -/
theorem of_keeps (h : FieldLinked dir path w v old new) (hkeeps : v.Keeps w' touched)
    (htouched : ∀ p, touched p → p < w.size ∧ ¬ w.Passes old.type p) :
    FieldLinked dir path w w' old new := by
  obtain ⟨pointers, mention, target, meaning, hleads, hkind, hleads', hpointers, hmeans, hends⟩ :=
    h.type
  have hsame : ∀ p ∈ pointers, w'.fact p = v.fact p := fun p hp =>
    hkeeps.fact_eq p (hleads'.lt_size hp) fun ht => (htouched p ht).2 (hleads.passes_of_mem hp)
  refine ⟨h.name_eq, h.isStatic_eq, pointers, mention, target, meaning, hleads, hkind,
    hleads'.congr fun p hp => by rw [hsame p hp], fun p hp => ?_, hmeans,
    hends.of_keeps hkeeps fun p ht => (htouched p ht).1⟩
  rw [hsame p hp]
  exact hpointers p hp

/-- A field that is linked later is linked from the start, if nothing before
has touched it. -/
theorem of_kept (h : FieldLinked dir path v w' old new) (hkeeps : w.Keeps v touched)
    (hpending : w.Pending [old]) (htouched : ∀ p, w.Passes old.type p → ¬ touched p) :
    FieldLinked dir path w w' old new := by
  obtain ⟨pointers, mention, target, meaning, hleads, hkind, hleads', hpointers, hmeans, hends⟩ :=
    h.type
  have hsame : ∀ p, w.Passes old.type p → v.fact p = w.fact p := fun p hp =>
    hkeeps.fact_eq p (hpending.of_passes (List.mem_singleton_self old) hp).1 (htouched p hp)
  have hleads : w.Leads old.type pointers mention :=
    hleads.congr_of_passes fun p hp => by rw [hsame p hp]
  have hmention : v.fact mention = w.fact mention := hsame mention ⟨pointers, hleads⟩
  rw [hmention] at hkind hmeans
  refine ⟨h.name_eq, h.isStatic_eq, pointers, mention, target, meaning, hleads, hkind, hleads',
    fun p hp => hsame p (hleads.passes_of_mem hp) ▸ hpointers p hp, hmeans, ?_⟩
  cases meaning with
  | declared name => exact hends
  | keyword s => exact ⟨Nat.le_trans hkeeps.size_le hends.1, hends.2⟩

end FieldLinked

/-! ## The fields of one type -/

theorem Declares.of_keeps (h : w.Declares dir) (hkeeps : w.Keeps v touched)
    (htouched : ∀ p, touched p → (w.fact p).kind ≠ .named) : v.Declares dir := by
  intro entry hentry
  have hkind := h entry hentry
  have hsize : entry.2 < w.size := lt_size_of_kind (by simp [hkind])
  rw [hkeeps.fact_eq entry.2 hsize fun ht => htouched _ ht hkind, hkind]

/-- A linked field passes no more than it did at once. -/
theorem FieldLinked.passes_of_keeps (h : FieldLinked dir path w v old new) (hv : v.Declares dir)
    (hw' : w'.Declares dir) (hkeeps : v.Keeps w' touched)
    (htouched : ∀ p, touched p → p < w.size ∧ ¬ w.Passes old.type p)
    (hold : ∀ p, w.Passes old.type p → p < v.size) (hp : w'.Passes new.type p) :
    v.Passes new.type p := by
  obtain ⟨pointers, hleads⟩ := hp
  refine ⟨pointers, hleads.congr_of_passes fun q hq => ?_⟩
  rcases h.of_passes hv hq with hq | ⟨hsize, hq⟩ | hq
  · rw [hkeeps.fact_eq q (hold q hq) fun ht => (htouched q ht).2 hq]
  · rw [hkeeps.fact_eq q hq fun ht => Nat.lt_irrefl _ (Nat.lt_of_lt_of_le (htouched q ht).1 hsize)]
  · obtain ⟨entry, hentry, rfl⟩ := List.mem_map.mp hq
    have hkind : ∀ {u : Universe}, u.Declares dir → (u.fact entry.2).target? = none :=
      fun hu => Fact.target?_eq_none (by simp [hu entry hentry])
    rw [hkind hv, hkind hw']

/-- **Two fields share nothing but declared types** when one is linked after
the other. -/
theorem FieldLinked.not_shared {path' : List String} {f f' g g' : Field}
    (hf : FieldLinked dir path w v f f') (hg : FieldLinked dir path' v w' g g')
    (hv : v.Declares dir) (hw' : w'.Declares dir) (hkeeps : v.Keeps w' touched)
    (htouched : ∀ p, touched p → p < w.size ∧ ¬ w.Passes f.type p)
    (hold : ∀ p, w.Passes f.type p → p < v.size)
    (hapart : ∀ p, v.Passes g.type p → p < w.size ∧ ¬ w.Passes f.type p)
    (hp : w'.Passes f'.type p) (hp' : w'.Passes g'.type p) : p ∈ dir.map Prod.snd := by
  have hp := hf.passes_of_keeps hv hw' hkeeps htouched hold hp
  rcases hg.of_passes hw' hp' with hp' | ⟨hp', -⟩ | hdir
  · -- an old place of the second is none of the first
    obtain ⟨hsize, hnot⟩ := hapart p hp'
    rcases hf.of_passes hv hp with hp | ⟨hp, -⟩ | hdir
    · exact absurd hp hnot
    · exact absurd hsize (Nat.not_lt.mpr hp)
    · exact hdir
  · -- a new place of the second was not there when the first was linked
    rcases hf.of_passes hv hp with hp | ⟨-, hp⟩ | hdir
    · exact absurd (hold p hp) (Nat.not_lt.mpr hp')
    · exact absurd hp (Nat.not_lt.mpr hp')
    · exact hdir
  · exact hdir

/-- The fields of one type are linked. -/
structure FieldsLinked (dir : Directory) (path : List String) (w v : Universe)
    (olds news : List Field) : Prop where
  linked : List.Forall₂ (FieldLinked dir path w v) olds news
  keeps : w.Keeps v fun p => ∃ field ∈ olds, w.Passes field.type p
  apart : news.Pairwise fun f g =>
    ∀ p, v.Passes f.type p → v.Passes g.type p → p ∈ dir.map Prod.snd
  declares : v.Declares dir

/-- **One more field is linked** in front of others. -/
theorem FieldsLinked.cons {news : List Field} (hpending : w.Pending (old :: fields))
    (hfirst : FieldLinked dir path w v old new) (hkeeps : w.Keeps v (w.Passes old.type))
    (hv : v.Declares dir) (h : FieldsLinked dir path v w' fields news) :
    FieldsLinked dir path w w' (old :: fields) (new :: news) := by
  obtain ⟨hapart, -⟩ := List.pairwise_cons.mp hpending.apart
  have hdisjoint : ∀ field ∈ fields, ∀ p, w.Passes field.type p → ¬ w.Passes old.type p :=
    fun field hfield p hp hp' => hapart field hfield p hp' hp
  -- what the others pass, they have passed from the start
  have hback : ∀ field ∈ fields, ∀ p, v.Passes field.type p → w.Passes field.type p :=
    fun field hfield p hp => hpending.of_cons.passes_of_keeps hkeeps hdisjoint hfield hp
  have hothers : ∀ field ∈ fields, ∀ p, v.Passes field.type p →
      p < w.size ∧ ¬ w.Passes old.type p := fun field hfield p hp =>
    ⟨(hpending.of_cons.of_passes hfield (hback field hfield p hp)).1,
      hdisjoint field hfield p (hback field hfield p hp)⟩
  have htouched : ∀ p, (∃ field ∈ fields, v.Passes field.type p) →
      p < w.size ∧ ¬ w.Passes old.type p := by
    rintro p ⟨field, hfield, hp⟩
    exact hothers field hfield p hp
  refine ⟨.cons (hfirst.of_keeps h.keeps htouched) ?_, ?_, List.pairwise_cons.mpr ⟨?_, h.apart⟩,
    h.declares⟩
  · refine forall₂_imp_of_mem h.linked fun field hfield _ _ hlinked => ?_
    have hsingle := hpending.of_cons.of_sublist (List.singleton_sublist.mpr hfield)
    exact hlinked.of_kept hkeeps hsingle (hdisjoint field hfield)
  · refine (hkeeps.trans h.keeps).mono ?_
    rintro p (hp | ⟨field, hfield, hp⟩)
    · exact ⟨old, by simp, hp⟩
    · exact ⟨field, by simp [hfield], hback field hfield p hp⟩
  · intro g' hg' p hp hp'
    obtain ⟨g, hg, hlinked⟩ := exists_of_forall₂ h.linked hg'
    refine hfirst.not_shared hlinked hv h.declares h.keeps htouched (fun p hp => ?_)
      (hothers g hg) hp hp'
    exact Nat.lt_of_lt_of_le (hpending.of_passes (by simp) hp).1 hkeeps.size_le

/-- What is unknown behind a field that means something is the first. -/
theorem FieldUnknown.cons {error : LinkError}
    (hfirst : Resolvable dir (w.fact owner).namespaces w old)
    (h : FieldUnknown dir w owner fields error) : FieldUnknown dir w owner (old :: fields) error := by
  obtain ⟨front, field, back, pointers, mention, rfl, hfront, hrest⟩ := h
  exact ⟨old :: front, field, back, pointers, mention, rfl,
    List.forall_mem_cons.mpr ⟨hfirst, hfront⟩, hrest⟩

/-- Behind a field that is linked the others stay as they are. -/
theorem Pending.of_linked (h : w.Pending (old :: fields)) (hkeeps : w.Keeps v (w.Passes old.type)) :
    v.Pending fields :=
  h.of_cons.of_keeps hkeeps fun field hfield p hp hp' =>
    (List.pairwise_cons.mp h.apart).1 field hfield p hp' hp

/-- And so do the declared types. -/
theorem Pending.fact_of_linked (h : w.Pending (old :: fields))
    (hkeeps : w.Keeps v (w.Passes old.type)) (hkind : (w.fact id).kind = .named) :
    v.fact id = w.fact id :=
  hkeeps.fact_eq id (lt_size_of_kind (by simp [hkind])) fun hp =>
    (h.of_passes (by simp) hp).2 hkind

theorem Pending.declares_of_linked (h : w.Pending (old :: fields))
    (hkeeps : w.Keeps v (w.Passes old.type)) (hdir : w.Declares dir) : v.Declares dir :=
  hdir.of_keeps hkeeps fun _ hp => (h.of_passes (by simp) hp).2

/-- **The fields of a type are linked** if each of them means something. If not,
the error tells of the first that does not. -/
theorem linkFields_cases (hdir : w.Declares dir) (howner : (w.fact owner).kind = .named)
    (hpending : w.Pending fields) :
    (∃ v news, w.linkFields dir owner fields = .ok (v, news) ∧
      FieldsLinked dir (w.fact owner).namespaces w v fields news) ∨
    ∃ error, w.linkFields dir owner fields = .error error ∧
      FieldUnknown dir w owner fields error := by
  induction fields generalizing w with
  | nil => exact .inl ⟨w, [], rfl, .nil, .refl w _, .nil, hdir⟩
  | cons field fields ih =>
    obtain ⟨pointers, mention, hleads, hkind, -⟩ := hpending.mentions field (by simp)
    rcases resolve_cases dir owner hleads hkind with
      ⟨v, type, hresolve, hlinked, hkeeps⟩ | ⟨hresolve, hnot⟩
    · have hapart := (List.pairwise_cons.mp hpending.apart).1
      have hv : v.Declares dir := hpending.declares_of_linked hkeeps hdir
      have hsame : v.fact owner = w.fact owner := hpending.fact_of_linked hkeeps howner
      rw [← hsame] at howner
      rcases ih hv howner (hpending.of_linked hkeeps) with
        ⟨w', news, hrest, hall⟩ | ⟨error, hrest, hunknown⟩
      · rw [hsame] at hall
        refine .inl ⟨w', _, ?_, .cons hpending hlinked hkeeps hv hall⟩
        simp [linkFields, hresolve, hrest, bind, Except.bind, pure, Except.pure]
      · refine .inr ⟨error, by simp [linkFields, hresolve, hrest, bind, Except.bind], ?_⟩
        exact .cons hlinked.resolvable (hpending.of_cons.unknown_of_kept hkeeps
          (fun g hg p hp hp' => hapart g hg p hp' hp) hsame hunknown)
    · refine .inr ⟨_, by rw [linkFields, hresolve]; rfl, [], field, fields, pointers, mention, rfl,
        nofun, hnot, hleads, hkind, ?_⟩
      rw [qualifiedName_of_kind howner]

end Universe

end Managed

end TypeBridge
