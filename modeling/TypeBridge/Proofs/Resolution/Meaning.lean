import TypeBridge.Managed.Resolution
import Mathlib.Data.List.Induction
/-!
# TypeBridge — what a mention means

`Means` says what a mention means inside a namespace path when types of some
names are declared: a keyword that stands alone means its special type, and
anything else the declared type of the longest name, where a name is made of a
front of the path and what is mentioned.

Linking looks for the same in its directory. The names are tried one after the
other from the longest on, and the first that is found decides
(`meaning?_eq_some_iff`).
-/

namespace TypeBridge

namespace Managed

/-- What a mention may mean: a special type, or the declared type of a name. -/
inductive Meaning
  | keyword (s : Special)
  | declared (name : String)
deriving DecidableEq

/-- The special type of a mention that is a single keyword. -/
def Fact.keyword? (mention : Fact) : Option Special :=
  if mention.namespaces = [] then Special.ofKeyword? mention.name else none

/-- The name of a mention behind the first namespaces of a path. -/
def Fact.nameBehind (mention : Fact) (path : List String) (depth : ℕ) : String :=
  ".".intercalate (path.take depth ++ mention.namespaces ++ [mention.name])

/-- What a mention means inside a path. -/
inductive Fact.Means (names path : List String) (mention : Fact) : Meaning → Prop
  | keyword {s : Special} : mention.keyword? = some s → Means names path mention (.keyword s)
  | declared (depth : ℕ) : mention.keyword? = none → depth ≤ path.length →
      mention.nameBehind path depth ∈ names →
      (∀ deeper ≤ path.length, depth < deeper → mention.nameBehind path deeper ∉ names) →
      Means names path mention (.declared (mention.nameBehind path depth))

variable {names path : List String} {mention : Fact} {meaning : Meaning} {name : String}

/-! ## From the inside outward -/

/-- The first that is found from the top down is the greatest. -/
theorem findSome?_reverse_range {α : Type} {f : ℕ → Option α} {a : α} {n : ℕ} :
    (List.range n).reverse.findSome? f = some a ↔
      ∃ d < n, f d = some a ∧ ∀ e, d < e → e < n → f e = none := by
  induction n with
  | zero => simp
  | succ n ih =>
    rw [List.range_succ, List.reverse_append, List.reverse_singleton, List.singleton_append,
      List.findSome?_cons]
    rcases hn : f n with _ | b
    · simp only [ih]
      constructor
      · rintro ⟨d, hd, hfd, hrest⟩
        refine ⟨d, by omega, hfd, fun e hde he => ?_⟩
        rcases Nat.lt_succ_iff_lt_or_eq.mp he with he | rfl
        · exact hrest e hde he
        · exact hn
      · rintro ⟨d, hd, hfd, hrest⟩
        rcases Nat.lt_succ_iff_lt_or_eq.mp hd with hd | rfl
        · exact ⟨d, hd, hfd, fun e hde he => hrest e hde (by omega)⟩
        · rw [hn] at hfd
          cases hfd
    · constructor
      · intro h
        exact ⟨n, by omega, hn.trans h, fun e hne he => by omega⟩
      · rintro ⟨d, hd, hfd, hrest⟩
        rcases Nat.lt_succ_iff_lt_or_eq.mp hd with hd | rfl
        · rw [hrest n hd (by omega)] at hn
          cases hn
        · exact hn.symm.trans hfd

theorem Fact.candidates_eq : mention.candidates path =
    (List.range (path.length + 1)).reverse.map (mention.nameBehind path) := by
  simp only [candidates, scopesOutward, List.map_map]
  rfl

/-- A mention has one meaning. -/
theorem Fact.Means.unique {other : Meaning} (h : mention.Means names path meaning)
    (h' : mention.Means names path other) : meaning = other := by
  rcases h with ⟨hs⟩ | ⟨depth, hnone, hle, hmem, hdeeper⟩ <;>
    rcases h' with ⟨hs'⟩ | ⟨depth', hnone', hle', hmem', hdeeper'⟩
  · exact congrArg Meaning.keyword (Option.some.inj (hs.symm.trans hs'))
  · rw [hnone'] at hs
    cases hs
  · rw [hnone] at hs'
    cases hs'
  · rcases Nat.lt_trichotomy depth depth' with hlt | rfl | hlt
    · exact absurd hmem' (hdeeper _ hle' hlt)
    · rfl
    · exact absurd hmem (hdeeper' _ hle hlt)

/-- Which names there are decides what a mention means, and not their order. -/
theorem Fact.Means.of_names {names' : List String} (h : mention.Means names path meaning)
    (hnames : ∀ name, name ∈ names ↔ name ∈ names') : mention.Means names' path meaning := by
  rcases h with ⟨hs⟩ | ⟨depth, hnone, hle, hmem, hdeeper⟩
  · exact .keyword hs
  · exact .declared depth hnone hle ((hnames _).mp hmem) fun deeper hle hlt hmem =>
      hdeeper deeper hle hlt ((hnames _).mpr hmem)

/-! ## The directory -/

variable {dir : Directory} {id : FactId}

theorem lookup_eq_none_iff : dir.lookup name = none ↔ name ∉ dir.map Prod.fst := by
  rw [List.lookup_eq_none_iff]
  simp only [List.mem_map, bne_iff_ne, ne_eq]
  constructor
  · rintro h ⟨entry, hentry, rfl⟩
    exact h entry hentry rfl
  · rintro h entry hentry rfl
    exact h ⟨entry, hentry, rfl⟩

theorem mem_of_lookup (h : dir.lookup name = some id) : (name, id) ∈ dir := by
  obtain ⟨front, back, rfl, -⟩ := List.lookup_eq_some_iff.mp h
  simp

/-- **The name that is found first** is the one that is meant. -/
theorem means_of_findSome? (hnone : mention.keyword? = none)
    (h : (mention.candidates path).findSome? (dir.lookup ·) = some id) :
    ∃ name, (name, id) ∈ dir ∧ mention.Means (dir.map Prod.fst) path (.declared name) := by
  rw [Fact.candidates_eq, List.findSome?_map] at h
  obtain ⟨depth, hdepth, hfound, hdeeper⟩ := findSome?_reverse_range.mp h
  have hmem := mem_of_lookup hfound
  refine ⟨_, hmem, .declared _ hnone (by omega) (List.mem_map_of_mem hmem) fun deeper hle hlt => ?_⟩
  exact lookup_eq_none_iff.mp (hdeeper deeper hlt (by omega))

theorem not_means_of_findSome? (hnone : mention.keyword? = none)
    (h : (mention.candidates path).findSome? (dir.lookup ·) = none) :
    ¬ mention.Means (dir.map Prod.fst) path meaning := by
  rw [Fact.candidates_eq, List.findSome?_map, List.findSome?_eq_none_iff] at h
  rintro (⟨hs⟩ | ⟨depth, -, hle, hmem, -⟩)
  · rw [hnone] at hs
    cases hs
  · exact lookup_eq_none_iff.mp (h _ (by simp; omega)) hmem

namespace Universe

variable {u : Universe} {declared : List FactId}

/-- **A mention is looked up** to what it means, if it means anything. -/
theorem lookUp_cases (u : Universe) (dir : Directory) (owner id : FactId) :
    (∃ s, (u.fact id).Means (dir.map Prod.fst) (u.fact owner).namespaces (.keyword s) ∧
      u.lookUp dir owner id = .ok (u.push (.ofSpecial s), u.size)) ∨
    (∃ name target, (u.fact id).Means (dir.map Prod.fst) (u.fact owner).namespaces
        (.declared name) ∧ (name, target) ∈ dir ∧ u.lookUp dir owner id = .ok (u, target)) ∨
    u.lookUp dir owner id = .error (.unknown (u.fact id).dottedName (u.qualifiedName owner)) ∧
      ∀ meaning, ¬ (u.fact id).Means (dir.map Prod.fst) (u.fact owner).namespaces meaning := by
  rcases hs : (u.fact id).keyword? with _ | s
  · rcases hfound : ((u.fact id).candidates (u.fact owner).namespaces).findSome?
        (dir.lookup ·) with _ | target
    · have hlookUp : u.lookUp dir owner id =
          .error (.unknown (u.fact id).dottedName (u.qualifiedName owner)) := by
        rw [Fact.keyword?] at hs
        simp only [lookUp, hs, hfound]
      exact .inr (.inr ⟨hlookUp, fun _ => not_means_of_findSome? hs hfound⟩)
    · have hlookUp : u.lookUp dir owner id = .ok (u, target) := by
        rw [Fact.keyword?] at hs
        simp only [lookUp, hs, hfound]
      obtain ⟨name, hmem, hmeans⟩ := means_of_findSome? hs hfound
      exact .inr (.inl ⟨name, target, hmeans, hmem, hlookUp⟩)
  · have hlookUp : u.lookUp dir owner id = .ok (u.push (.ofSpecial s), u.size) := by
      rw [Fact.keyword?] at hs
      simp only [lookUp, hs]
    exact .inl ⟨s, .keyword hs, hlookUp⟩

/-- The declared types under their names. -/
def entries (u : Universe) (declared : List FactId) : Directory :=
  declared.map fun id => (u.qualifiedName id, id)

theorem names_entries : (u.entries declared).map Prod.fst = declared.map u.qualifiedName := by
  simp [entries]

theorem ids_entries : (u.entries declared).map Prod.snd = declared := by
  rw [entries, List.map_map]
  exact List.map_id declared

theorem mem_entries : (name, id) ∈ u.entries declared ↔ id ∈ declared ∧ u.qualifiedName id = name := by
  simp only [entries, List.mem_map, Prod.mk.injEq]
  constructor
  · rintro ⟨id, hid, rfl, rfl⟩
    exact ⟨hid, rfl⟩
  · rintro ⟨hid, rfl⟩
    exact ⟨id, hid, rfl, rfl⟩

theorem directory_concat : u.directory (declared ++ [id]) =
    (u.directory declared).bind fun dir =>
      if (dir.lookup (u.qualifiedName id)).isSome then .error (.duplicate (u.qualifiedName id))
      else .ok (dir ++ [(u.qualifiedName id, id)]) := by
  rw [directory, directory, List.foldlM_append]
  simp only [List.foldlM_cons, List.foldlM_nil, bind_pure]
  rfl

/-- **There is a directory** exactly when no two names are the same. -/
theorem directory_eq_ok_iff : u.directory declared = .ok dir ↔
    (declared.map u.qualifiedName).Nodup ∧ u.entries declared = dir := by
  induction declared using List.reverseRecOn generalizing dir with
  | nil => simp [directory, entries, pure, Except.pure]
  | append_singleton declared id ih =>
    have hentries : u.entries (declared ++ [id]) =
        u.entries declared ++ [(u.qualifiedName id, id)] := by
      simp [entries]
    rw [directory_concat, List.map_append, List.map_singleton, List.perm_append_comm.nodup_iff,
      List.singleton_append, List.nodup_cons, hentries, ← names_entries]
    constructor
    · intro h
      rcases hdir : u.directory declared with error | dir'
      · rw [hdir] at h
        cases h
      · obtain ⟨hnodup, rfl⟩ := ih.mp hdir
        rw [hdir, Except.bind] at h
        split_ifs at h with hfound
        rw [Bool.not_eq_true, Option.isSome_eq_false_iff, Option.isNone_iff_eq_none] at hfound
        exact ⟨⟨lookup_eq_none_iff.mp hfound, names_entries ▸ hnodup⟩, Except.ok.inj h⟩
    · rintro ⟨⟨hfresh, hnodup⟩, rfl⟩
      rw [ih.mpr ⟨names_entries ▸ hnodup, rfl⟩, Except.bind, lookup_eq_none_iff.mpr hfresh]
      rfl

end Universe

end Managed

end TypeBridge
