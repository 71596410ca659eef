import TypeBridge.Proofs.Resolution.InPlace
import TypeBridge.Proofs.Resolution.Innermost
/-!
# TypeBridge — what linking complains of

The names come first: the complaint is of the first type whose name one before
it has, and no field has a new type by then (`directory_eq_error_iff`). When
the names differ, it is of the first field, type after type, whose type names
nothing (`link_complains`).
-/

namespace TypeBridge

namespace Managed

namespace Universe

variable {u : Universe} {declared before : List FactId} {id other : FactId}
variable {error : LinkError}

/-- The first of the declared types whose name one before it has. -/
def IsFirstRepeated (u : Universe) (declared : List FactId) (id : FactId) : Prop :=
  ∃ before after, declared = before ++ id :: after ∧ (before.map u.qualifiedName).Nodup ∧
    u.qualifiedName id ∈ before.map u.qualifiedName

/-- The mention in the first field of a declared type, type after type, that
names nothing, behind whatever pointers. -/
def IsFirstUnknown (u : Universe) (declared : List FactId) (id mention : FactId) : Prop :=
  ∃ before after first field last pointers, declared = before ++ id :: after ∧
    (u.fact id).fields = first ++ field :: last ∧
    (∀ other ∈ before, ∀ f ∈ (u.fact other).fields,
      u.NamesSomething declared (u.fact other).namespaces f) ∧
    (∀ f ∈ first, u.NamesSomething declared (u.fact id).namespaces f) ∧
    u.Leads field.type pointers mention ∧ (u.fact mention).kind = .mention ∧
    ¬ u.NamesSomething declared (u.fact id).namespaces field

/-! ## Names -/

theorem IsFirstRepeated.append (h : u.IsFirstRepeated before id) (after : List FactId) :
    u.IsFirstRepeated (before ++ after) id := by
  obtain ⟨front, back, rfl, hnodup, hmem⟩ := h
  exact ⟨front, back ++ after, by simp, hnodup, hmem⟩

theorem IsFirstRepeated.not_nodup (h : u.IsFirstRepeated declared id) :
    ¬ (declared.map u.qualifiedName).Nodup := by
  obtain ⟨before, after, rfl, -, hmem⟩ := h
  rw [List.map_append, List.map_cons, List.nodup_append]
  rintro ⟨-, -, hdisjoint⟩
  exact hdisjoint _ hmem _ (by simp) rfl

/-- A type that is added is the first with a name a second time if no other is
and its name is there. -/
theorem isFirstRepeated_concat_iff : u.IsFirstRepeated (declared ++ [other]) id ↔
    u.IsFirstRepeated declared id ∨ (declared.map u.qualifiedName).Nodup ∧
      u.qualifiedName other ∈ declared.map u.qualifiedName ∧ id = other := by
  constructor
  · rintro ⟨before, after, hsplit, hnodup, hmem⟩
    induction after using List.reverseRecOn with
    | nil =>
      obtain ⟨rfl, heq⟩ := List.append_inj' hsplit rfl
      obtain rfl : other = id := by simpa using heq
      exact .inr ⟨hnodup, hmem, rfl⟩
    | append_singleton after last =>
      rw [← List.cons_append, ← List.append_assoc] at hsplit
      obtain ⟨rfl, -⟩ := List.append_inj' hsplit rfl
      exact .inl ⟨before, after, rfl, hnodup, hmem⟩
  · rintro (h | ⟨hnodup, hmem, rfl⟩)
    · exact h.append [other]
    · exact ⟨declared, [], rfl, hnodup, hmem⟩

/-- **There is no directory** exactly when some name comes a second time, and
the first such name is told. -/
theorem directory_eq_error_iff : u.directory declared = .error error ↔
    ∃ id, u.IsFirstRepeated declared id ∧ error = .duplicate (u.qualifiedName id) := by
  induction declared using List.reverseRecOn with
  | nil =>
    constructor
    · nofun
    · rintro ⟨id, h, -⟩
      exact absurd List.nodup_nil h.not_nodup
  | append_singleton declared other ih =>
    rw [directory_concat]
    simp only [isFirstRepeated_concat_iff]
    rcases hdir : u.directory declared with error' | dir <;> rw [hdir] at ih
    · -- the name was told before
      rw [Except.bind, ih]
      refine exists_congr fun id => and_congr_left fun herror => ?_
      have hnot : ¬ (declared.map u.qualifiedName).Nodup := fun hnodup => by
        rw [directory_eq_ok_iff.mpr ⟨hnodup, rfl⟩] at hdir
        cases hdir
      simp [hnot]
    · obtain ⟨hnodup, rfl⟩ := directory_eq_ok_iff.mp hdir
      have hnone : ∀ id, ¬ u.IsFirstRepeated declared id := fun id h => h.not_nodup hnodup
      have hlookup : ((u.entries declared).lookup (u.qualifiedName other)).isSome ↔
          u.qualifiedName other ∈ declared.map u.qualifiedName := by
        rw [← names_entries, ← not_iff_not, Bool.not_eq_true, Option.isSome_eq_false_iff,
          Option.isNone_iff_eq_none, lookup_eq_none_iff]
      simp only [Except.bind, hlookup, hnone, hnodup, false_or, true_and]
      split_ifs with hmem
      · simp [hmem, eq_comm]
      · simp [hmem]

/-! ## Mentions -/

/-- An error that is told of is of the first mention that names nothing. -/
theorem exists_isFirstUnknown (hnamed : ∀ id ∈ declared, (u.fact id).kind = .named)
    (h : TypeUnknown (u.entries declared) u declared error) :
    ∃ id mention, u.IsFirstUnknown declared id mention ∧
      error = .unknown (u.fact mention).dottedName (u.qualifiedName id) := by
  obtain ⟨before, id, after, hsplit, hbefore, first, field, last, pointers, mention, hfields,
    hfirst, hnot, hleads, hkind, rfl⟩ := h
  rw [resolvable_iff] at hnot
  refine ⟨id, mention, ⟨before, after, first, field, last, pointers, hsplit, hfields,
    fun other hother f hf => resolvable_iff.mp (hbefore other hother f hf),
    fun f hf => resolvable_iff.mp (hfirst f hf), hleads, hkind, hnot⟩, ?_⟩
  rw [qualifiedName_of_kind (hnamed id (by simp [hsplit]))]

/-! ## Linking -/

/-- **The first complaint** is of a name if a name comes again, and no field has
a new type by then. Else it is of a mention. -/
theorem link_complains (hnamed : ∀ id ∈ declared, (u.fact id).kind = .named)
    (hpending : u.Pending (u.fieldsOf declared)) :
    (u.linkInPlace declared).result = u.link declared ∧
    ((∃ error, u.link declared = .error error) ↔ ¬ (declared.map u.qualifiedName).Nodup ∨
      ∃ id ∈ declared, ∃ field ∈ (u.fact id).fields,
        ¬ u.NamesSomething declared (u.fact id).namespaces field) ∧
    ∀ error, u.link declared = .error error →
      if (declared.map u.qualifiedName).Nodup then
        ∃ id mention, u.IsFirstUnknown declared id mention ∧ error.message =
          "Unknown type " ++ (u.fact mention).dottedName ++ " used by " ++ u.qualifiedName id
      else
        ∃ id, u.IsFirstRepeated declared id ∧
          error.message = u.qualifiedName id ++ " declared more than once" ∧
          (u.linkInPlace declared).table = u := by
  refine ⟨result_linkInPlace hnamed, ?_, fun error herror => ?_⟩
  · have hok := exists_link_iff hnamed hpending
    have hsplit : (∃ error, u.link declared = .error error) ↔ ¬ ∃ v, u.link declared = .ok v := by
      cases u.link declared <;> simp
    rw [hsplit, hok]
    simp only [not_and_or, not_forall, exists_prop]
  · split_ifs with hnodup
    · rcases link_cases hnamed hpending hnodup with ⟨v, hlink, -⟩ | ⟨error', hlink, hunknown⟩
      · rw [hlink] at herror
        cases herror
      · obtain rfl := Except.error.inj (hlink.symm.trans herror)
        obtain ⟨id, mention, hfirst, rfl⟩ := exists_isFirstUnknown hnamed hunknown
        exact ⟨id, mention, hfirst, rfl⟩
    · rcases hdir : u.directory declared with error' | dir
      · obtain ⟨id, hfirst, rfl⟩ := directory_eq_error_iff.mp hdir
        have hlink : u.link declared = .error (.duplicate (u.qualifiedName id)) := by
          rw [link, hdir]
          rfl
        obtain rfl := Except.error.inj (hlink.symm.trans herror)
        exact ⟨id, hfirst, rfl, by rw [linkInPlace, hdir]⟩
      · exact absurd (directory_eq_ok_iff.mp hdir).1 hnodup

/-- A type whose fields mention two types that are not there, the first of them
behind a star, and another type of its name. -/
def holdsGone : Universe where
  facts := #[
    { kind := .named
      name := "Holder"
      isReferenceType := true
      namespaces := ["A"]
      fields := [{ name := "gone", type := 3 }, { name := "lost", type := 4 }] },
    { kind := .named, name := "Holder", isReferenceType := true, namespaces := ["A"] },
    .mention ["B"] "Gone", .pointer "Gone" 2, .mention [] "Lost"]

theorem pending_holdsGone : holdsGone.Pending (holdsGone.fieldsOf [0, 1]) := by
  have hgone : holdsGone.Leads 3 [3] 2 := .pointer rfl (.here 2)
  have hlost : holdsGone.Leads 4 [] 4 := .here 4
  refine ⟨?_, ?_⟩
  · rintro field hfield
    rcases List.mem_pair.mp hfield with rfl | rfl
    · exact ⟨_, _, hgone, rfl, by decide⟩
    · exact ⟨_, _, hlost, rfl, by decide⟩
  · refine List.pairwise_pair.mpr fun p hp hp' => ?_
    rw [hgone.passes_iff rfl] at hp
    rw [hlost.passes_iff rfl] at hp'
    rcases hp with hp | rfl <;> rcases hp' with hp' | hp' <;> simp_all

/-- The name that comes again is told first. Without it, what is told is what the
first of the fields mentions. -/
theorem holdsGone_complains : (holdsGone.linkInPlace [0, 1]).table = holdsGone ∧
    ∃ id mention, holdsGone.IsFirstUnknown [0] id mention ∧
      "Unknown type B.Gone used by A.Holder" =
        "Unknown type " ++ (holdsGone.fact mention).dottedName ++ " used by " ++
          holdsGone.qualifiedName id := by
  have hpending : holdsGone.Pending (holdsGone.fieldsOf [0]) := pending_holdsGone
  have htwo := (link_complains (by decide) pending_holdsGone).2.2 _ rfl
  have hone := (link_complains (by decide) hpending).2.2 _ rfl
  rw [if_neg (by decide)] at htwo
  rw [if_pos (by decide)] at hone
  exact ⟨htwo.choose_spec.2.2, hone⟩

end Universe

end Managed

end TypeBridge
