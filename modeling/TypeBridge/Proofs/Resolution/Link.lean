import TypeBridge.Proofs.Resolution.Field
import Mathlib.Data.List.Nodup
/-!
# TypeBridge — linking type after type

A type is linked by new fields in the place of the old ones (`TypeLinked`), and
that leaves every other type, and what the fields of the others pass, as it
was (`PendingTypes`). So types are linked one after the other like fields, and
`link_cases` says what linking comes to: every type is linked, or some field's
type means nothing.
-/

namespace TypeBridge

namespace Managed

namespace Universe

variable {u v w w' : Universe} {dir : Directory} {id p : FactId} {ids : List FactId}

/-! ## All types -/

/-- The fields of some types, in order. -/
def fieldsOf (u : Universe) (ids : List FactId) : List Field :=
  ids.flatMap fun id => (u.fact id).fields

/-- A type is linked: it has other fields, and is what it was otherwise. -/
structure TypeLinked (dir : Directory) (w v : Universe) (id : FactId) : Prop where
  fact_eq : v.fact id = { w.fact id with fields := (v.fact id).fields }
  fields : List.Forall₂ (FieldLinked dir (w.fact id).namespaces w v) (w.fact id).fields
    (v.fact id).fields

structure TypesLinked (dir : Directory) (w v : Universe) (ids : List FactId) : Prop where
  linked : ∀ id ∈ ids, TypeLinked dir w v id
  keeps : w.Keeps v fun p => p ∈ ids ∨ ∃ field ∈ w.fieldsOf ids, w.Passes field.type p
  apart : (v.fieldsOf ids).Pairwise fun f g =>
    ∀ p, v.Passes f.type p → v.Passes g.type p → p ∈ dir.map Prod.snd
  declares : v.Declares dir

/-- **The new fields of a type** are put in their place. -/
theorem FieldsLinked.modify {news : List Field} (hkind : (w.fact id).kind = .named)
    (hpending : w.Pending (w.fact id).fields)
    (h : FieldsLinked dir (w.fact id).namespaces w v (w.fact id).fields news) :
    TypesLinked dir w (v.modify id ({ · with fields := news })) [id] := by
  have hnot : ∀ field ∈ (w.fact id).fields, ¬ w.Passes field.type id :=
    fun field hfield hp => (hpending.of_passes hfield hp).2 hkind
  have hsize : id < w.size := lt_size_of_kind (by simp [hkind])
  have hsame : v.fact id = w.fact id :=
    h.keeps.fact_eq id hsize fun ⟨field, hfield, hp⟩ => hnot field hfield hp
  have hfact : (v.modify id ({ · with fields := news })).fact id =
      { w.fact id with fields := news } := by
    rw [fact_modify_self (Nat.lt_of_lt_of_le hsize h.keeps.size_le), hsame]
  have hkeeps : v.Keeps (v.modify id ({ · with fields := news })) (· = id) := .modify v id _
  -- a type is no pointer, whatever its fields are
  have htarget : ∀ p, (v.fact p).target? =
      ((v.modify id ({ · with fields := news })).fact p).target? := by
    intro p
    by_cases hp : p = id
    · rw [hp, hfact, hsame, Fact.target?_eq_none (by simp [hkind]),
        Fact.target?_eq_none (by simp [hkind])]
    · rw [fact_modify_of_ne hp]
  have hback : ∀ {field : Field} {p},
      (v.modify id ({ · with fields := news })).Passes field.type p → v.Passes field.type p := by
    rintro field p ⟨pointers, hleads⟩
    exact ⟨pointers, hleads.congr fun p _ => htarget p⟩
  refine ⟨?_, ?_, ?_, fun entry hentry => ?_⟩
  · rw [List.forall_mem_singleton]
    refine ⟨by rw [hfact], ?_⟩
    rw [hfact]
    refine forall₂_imp_of_mem h.linked fun field hfield _ _ hlinked => hlinked.of_keeps hkeeps ?_
    rintro p rfl
    exact ⟨hsize, hnot field hfield⟩
  · refine (h.keeps.trans hkeeps).mono ?_
    rintro p (⟨field, hfield, hp⟩ | rfl)
    · exact .inr ⟨field, by simpa [fieldsOf] using hfield, hp⟩
    · exact .inl (List.mem_singleton_self p)
  · rw [fieldsOf, List.flatMap_singleton, hfact]
    exact h.apart.imp fun hfg p hp hp' => hfg p (hback hp) (hback hp')
  · by_cases hid : entry.2 = id
    · rw [hid, hfact]
      exact hkind
    · rw [fact_modify_of_ne hid]
      exact h.declares entry hentry

theorem linkType_cases (hdir : w.Declares dir) (hkind : (w.fact id).kind = .named)
    (hpending : w.Pending (w.fact id).fields) :
    (∃ v, w.linkType dir id = .ok v ∧ TypesLinked dir w v [id]) ∨
    ∃ error, w.linkType dir id = .error error ∧
      FieldUnknown dir w id (w.fact id).fields error := by
  rcases linkFields_cases hdir hkind hpending with ⟨v, news, hlink, h⟩ | ⟨error, hlink, hunknown⟩
  · exact .inl ⟨_, by rw [linkType, hlink]; rfl, h.modify hkind hpending⟩
  · exact .inr ⟨error, by rw [linkType, hlink]; rfl, hunknown⟩

/-- The first of some types with a field that means nothing, and the error that
tells of its first such field. -/
def TypeUnknown (dir : Directory) (u : Universe) (ids : List FactId) (error : LinkError) : Prop :=
  ∃ front id back, ids = front ++ id :: back ∧
    (∀ other ∈ front, ∀ f ∈ (u.fact other).fields,
      Resolvable dir (u.fact other).namespaces u f) ∧
    FieldUnknown dir u id (u.fact id).fields error

theorem TypeUnknown.exists_not_resolvable {error : LinkError} (h : TypeUnknown dir u ids error) :
    ∃ id ∈ ids, ∃ field ∈ (u.fact id).fields, ¬ Resolvable dir (u.fact id).namespaces u field := by
  obtain ⟨front, id, back, rfl, -, _, field, _, _, _, hfields, -, hnot, -⟩ := h
  exact ⟨id, by simp, field, by simp [hfields], hnot⟩

/-- What is unknown behind a type whose fields mean something is the first. -/
theorem TypeUnknown.cons {error : LinkError}
    (hfirst : ∀ f ∈ (w.fact id).fields, Resolvable dir (w.fact id).namespaces w f)
    (h : TypeUnknown dir w ids error) : TypeUnknown dir w (id :: ids) error := by
  obtain ⟨front, other, back, rfl, hfront, hunknown⟩ := h
  exact ⟨id :: front, other, back, rfl, List.forall_mem_cons.mpr ⟨hfirst, hfront⟩, hunknown⟩

theorem TypeLinked.resolvable (h : TypeLinked dir w v id) :
    ∀ f ∈ (w.fact id).fields, Resolvable dir (w.fact id).namespaces w f := by
  intro f hf
  obtain ⟨new, -, hlinked⟩ := exists_of_forall₂ h.fields.flip hf
  exact hlinked.resolvable

/-- Types that are still to be linked. -/
structure PendingTypes (u : Universe) (ids : List FactId) : Prop where
  nodup : ids.Nodup
  named : ∀ id ∈ ids, (u.fact id).kind = .named
  fields : u.Pending (u.fieldsOf ids)

theorem fieldsOf_cons : w.fieldsOf (id :: ids) = (w.fact id).fields ++ w.fieldsOf ids :=
  List.flatMap_cons

theorem fieldsOf_singleton : w.fieldsOf [id] = (w.fact id).fields :=
  List.flatMap_singleton ..

theorem mem_fieldsOf {field : Field} (hid : id ∈ ids) (hfield : field ∈ (w.fact id).fields) :
    field ∈ w.fieldsOf ids :=
  List.mem_flatMap.mpr ⟨id, hid, hfield⟩

namespace PendingTypes

section

variable (h : w.PendingTypes (id :: ids))

include h

theorem head : w.Pending (w.fact id).fields :=
  h.fields.of_sublist (by rw [fieldsOf_cons]; exact List.sublist_append_left _ _)

theorem tail : w.PendingTypes ids where
  nodup := (List.nodup_cons.mp h.nodup).2
  named other hother := h.named other (by simp [hother])
  fields := h.fields.of_sublist (by rw [fieldsOf_cons]; exact List.sublist_append_right _ _)

theorem not_passes {field : Field} (hfield : field ∈ w.fieldsOf (id :: ids)) {other : FactId}
    (hother : other ∈ id :: ids) : ¬ w.Passes field.type other := fun hp =>
  (h.fields.of_passes hfield hp).2 (h.named other hother)

theorem apart {f g : Field} (hf : f ∈ (w.fact id).fields) (hg : g ∈ w.fieldsOf ids)
    (hp : w.Passes f.type p) : ¬ w.Passes g.type p := by
  have hapart := h.fields.apart
  rw [fieldsOf_cons] at hapart
  exact (List.pairwise_append.mp hapart).2.2 f hf g hg p hp

/-- What linking the first type touches, no field of the others passes. -/
theorem untouched {g : Field} (hg : g ∈ w.fieldsOf ids) (hp : w.Passes g.type p) :
    ¬ (p ∈ [id] ∨ ∃ field ∈ w.fieldsOf [id], w.Passes field.type p) := by
  rintro (hid | ⟨f, hf, hp'⟩)
  · obtain rfl := List.mem_singleton.mp hid
    exact h.not_passes (by simp [fieldsOf_cons, hg]) (by simp) hp
  · rw [fieldsOf_singleton] at hf
    exact h.apart hf hg hp' hp

end

variable (h : w.PendingTypes (id :: ids)) (hfirst : TypesLinked dir w v [id])

include h hfirst

theorem fact_of_linked {other : FactId} (hother : other ∈ ids) : v.fact other = w.fact other := by
  have hkind := h.tail.named other hother
  refine hfirst.keeps.fact_eq other (lt_size_of_kind (by simp [hkind])) ?_
  rintro (hid | ⟨field, hfield, hp⟩)
  · obtain rfl := List.mem_singleton.mp hid
    exact (List.nodup_cons.mp h.nodup).1 hother
  · rw [fieldsOf_singleton] at hfield
    exact h.not_passes (by simp [fieldsOf_cons, hfield]) (List.mem_cons_of_mem _ hother) hp

theorem fieldsOf_of_linked : v.fieldsOf ids = w.fieldsOf ids :=
  List.flatMap_congr fun other hother => by rw [h.fact_of_linked hfirst hother]

/-- **The other types stay** to be linked. -/
theorem of_linked : v.PendingTypes ids where
  nodup := h.tail.nodup
  named other hother := by rw [h.fact_of_linked hfirst hother]; exact h.tail.named other hother
  fields := by
    rw [h.fieldsOf_of_linked hfirst]
    exact h.tail.fields.of_keeps hfirst.keeps fun g hg p hp => h.untouched hg hp

/-- What is unknown among the other types was unknown from the start. -/
theorem unknown_of_linked {error : LinkError} (hunknown : TypeUnknown dir v ids error) :
    TypeUnknown dir w ids error := by
  obtain ⟨front, other, back, rfl, hfront, hunknown⟩ := hunknown
  have hsame : ∀ p ∈ front ++ other :: back, v.fact p = w.fact p := fun p hp =>
    h.fact_of_linked hfirst hp
  have huntouched : ∀ g ∈ w.fieldsOf (front ++ other :: back), ∀ p, w.Passes g.type p →
      ¬ (p ∈ [id] ∨ ∃ field ∈ w.fieldsOf [id], w.Passes field.type p) := fun g hg p hp =>
    h.untouched hg hp
  refine ⟨front, other, back, rfl, fun p hp f hf => ?_, ?_⟩
  · have hmem : p ∈ front ++ other :: back := by simp [hp]
    have hresolvable := hfront p hp f (by rwa [hsame p hmem])
    rw [hsame p hmem] at hresolvable
    exact (h.tail.fields.resolvable_keeps_iff hfirst.keeps huntouched
      (mem_fieldsOf hmem hf)).mp hresolvable
  · have hmem : other ∈ front ++ other :: back := by simp
    have hsub : (w.fact other).fields.Sublist (w.fieldsOf (front ++ other :: back)) := by
      rw [fieldsOf, List.flatMap_def]
      exact List.sublist_flatten_of_mem (List.mem_map_of_mem hmem)
    rw [hsame other hmem] at hunknown
    exact (h.tail.fields.of_sublist hsub).unknown_of_kept hfirst.keeps
      (fun g hg => huntouched g (hsub.subset hg)) (hsame other hmem) hunknown

/-- What the others pass, they have passed from the start, and no field of the
first type has. -/
theorem passes_of_linked {f g : Field} (hg : g ∈ w.fieldsOf ids) (hp : v.Passes g.type p) :
    w.Passes g.type p ∧ p < w.size ∧
      (f ∈ (w.fact id).fields → ¬ w.Passes f.type p) := by
  have hp := h.tail.fields.passes_of_keeps hfirst.keeps
    (fun _ hg _ hp => h.untouched hg hp) hg hp
  exact ⟨hp, (h.tail.fields.of_passes hg hp).1, fun hf hp' => h.apart hf hg hp' hp⟩

/-- Nor does linking the others touch what a field of the first type has
passed. -/
theorem untouched_of_linked {f : Field} (hf : f ∈ (w.fact id).fields)
    (hp : p ∈ ids ∨ ∃ g ∈ v.fieldsOf ids, v.Passes g.type p) :
    p < w.size ∧ ¬ w.Passes f.type p := by
  rcases hp with hp | ⟨g, hg, hp⟩
  · exact ⟨lt_size_of_kind (by simp [h.tail.named p hp]),
      h.not_passes (by simp [fieldsOf_cons, hf]) (by simp [hp])⟩
  · rw [h.fieldsOf_of_linked hfirst] at hg
    obtain ⟨-, hsize, hnot⟩ := h.passes_of_linked hfirst (f := f) hg hp
    exact ⟨hsize, hnot hf⟩

variable (hrest : TypesLinked dir v w' ids)

include hrest

/-- The first type stays linked. -/
theorem fact_of_rest : w'.fact id = v.fact id := by
  have hsize : id < w.size := lt_size_of_kind (by simp [h.named id (by simp)])
  refine hrest.keeps.fact_eq id (Nat.lt_of_lt_of_le hsize hfirst.keeps.size_le) ?_
  rintro (hid | ⟨g, hg, hp⟩)
  · exact (List.nodup_cons.mp h.nodup).1 hid
  · rw [h.fieldsOf_of_linked hfirst] at hg
    obtain ⟨hp, -⟩ := h.passes_of_linked hfirst (f := g) hg hp
    exact h.not_passes (by simp [fieldsOf_cons, hg]) (by simp) hp

theorem linked {other : FactId} (hother : other ∈ id :: ids) : TypeLinked dir w w' other := by
  rcases List.mem_cons.mp hother with rfl | hother
  · -- the first type is not touched any more
    have hhead : TypeLinked dir w v other := hfirst.linked other (by simp)
    have hid := h.fact_of_rest hfirst hrest
    refine ⟨by rw [hid]; exact hhead.fact_eq, ?_⟩
    rw [hid]
    exact forall₂_imp_of_mem hhead.fields fun f hf _ _ hlinked =>
      hlinked.of_keeps hrest.keeps fun p => h.untouched_of_linked hfirst hf
  · -- the others were not touched before
    have hlinked := hrest.linked other hother
    have hsame := h.fact_of_linked hfirst hother
    have hfields := hlinked.fields
    rw [hsame] at hfields
    refine ⟨by rw [← hsame]; exact hlinked.fact_eq, ?_⟩
    refine forall₂_imp_of_mem hfields fun g hg _ _ hlinked => ?_
    have hmem : g ∈ w.fieldsOf ids := mem_fieldsOf hother hg
    exact hlinked.of_kept hfirst.keeps
      (h.tail.fields.of_sublist (List.singleton_sublist.mpr hmem))
      fun p hp => h.untouched hmem hp

/-- What a field of the first type passes at the end, it has passed at once. -/
theorem passes_of_rest {f' : Field} (hf' : f' ∈ (v.fact id).fields) (hp : w'.Passes f'.type p) :
    v.Passes f'.type p := by
  obtain ⟨f, hf, hlinked⟩ := exists_of_forall₂ (hfirst.linked id (by simp)).fields hf'
  exact hlinked.passes_of_keeps hfirst.declares hrest.declares hrest.keeps
    (fun p => h.untouched_of_linked hfirst hf)
    (fun p hp => Nat.lt_of_lt_of_le (h.head.of_passes hf hp).1 hfirst.keeps.size_le) hp

/-- **No two fields share** anything but declared types. -/
theorem not_shared : (w'.fieldsOf (id :: ids)).Pairwise fun f g =>
    ∀ p, w'.Passes f.type p → w'.Passes g.type p → p ∈ dir.map Prod.snd := by
  rw [fieldsOf_cons, List.pairwise_append, h.fact_of_rest hfirst hrest]
  refine ⟨?_, hrest.apart, ?_⟩
  · have hapart := hfirst.apart
    rw [fieldsOf_singleton] at hapart
    exact hapart.imp_of_mem fun hf' hg' hfg p hp hp' => hfg p
      (h.passes_of_rest hfirst hrest hf' hp) (h.passes_of_rest hfirst hrest hg' hp')
  · intro f' hf' g' hg' p hp hp'
    obtain ⟨f, hf, hlinked⟩ := exists_of_forall₂ (hfirst.linked id (by simp)).fields hf'
    obtain ⟨other, hother, hg'⟩ := List.mem_flatMap.mp hg'
    obtain ⟨g, hg, hlinked'⟩ := exists_of_forall₂ (hrest.linked other hother).fields hg'
    rw [h.fact_of_linked hfirst hother] at hg
    refine hlinked.not_shared hlinked' hfirst.declares hrest.declares hrest.keeps
      (fun p => h.untouched_of_linked hfirst hf)
      (fun p hp => Nat.lt_of_lt_of_le (h.head.of_passes hf hp).1 hfirst.keeps.size_le)
      (fun p hp => ?_) hp hp'
    obtain ⟨-, hsize, hnot⟩ := h.passes_of_linked hfirst (f := f) (mem_fieldsOf hother hg) hp
    exact ⟨hsize, hnot hf⟩

/-- **One more type is linked** in front of others. -/
theorem cons_linked : TypesLinked dir w w' (id :: ids) where
  linked _ := h.linked hfirst hrest
  apart := h.not_shared hfirst hrest
  declares := hrest.declares
  keeps := by
    refine (hfirst.keeps.trans hrest.keeps).mono ?_
    rintro p ((hp | ⟨f, hf, hp⟩) | hp | ⟨g, hg, hp⟩)
    · obtain rfl := List.mem_singleton.mp hp
      exact .inl (by simp)
    · rw [fieldsOf_singleton] at hf
      exact .inr ⟨f, by simp [fieldsOf_cons, hf], hp⟩
    · exact .inl (by simp [hp])
    · rw [h.fieldsOf_of_linked hfirst] at hg
      exact .inr ⟨g, by simp [fieldsOf_cons, hg],
        (h.passes_of_linked hfirst (f := g) hg hp).1⟩

end PendingTypes

/-- **All types are linked** if every field of theirs means something. If not,
the error tells of the first that does not. -/
theorem linkTypes_cases (hdir : w.Declares dir) (hpending : w.PendingTypes ids) :
    (∃ v, ids.foldlM (linkType dir) w = .ok v ∧ TypesLinked dir w v ids) ∨
    ∃ error, ids.foldlM (linkType dir) w = .error error ∧ TypeUnknown dir w ids error := by
  induction ids generalizing w with
  | nil => exact .inl ⟨w, rfl, nofun, .refl w _, .nil, hdir⟩
  | cons id ids ih =>
    rcases linkType_cases hdir (hpending.named id (by simp)) hpending.head with
      ⟨v, hlink, hfirst⟩ | ⟨error, hlink, hunknown⟩
    · rcases ih hfirst.declares (hpending.of_linked hfirst) with
        ⟨w', hrest, h⟩ | ⟨error, hrest, hunknown⟩
      · exact .inl ⟨w', by rw [List.foldlM_cons, hlink]; exact hrest,
          hpending.cons_linked hfirst h⟩
      · exact .inr ⟨error, by rw [List.foldlM_cons, hlink]; exact hrest,
          .cons (hfirst.linked id (by simp)).resolvable (hpending.unknown_of_linked hfirst hunknown)⟩
    · exact .inr ⟨error, by rw [List.foldlM_cons, hlink]; rfl, [], id, ids, rfl, nofun, hunknown⟩

theorem declares_entries {declared : List FactId}
    (hnamed : ∀ id ∈ declared, (u.fact id).kind = .named) : u.Declares (u.entries declared) := by
  intro entry hentry
  obtain ⟨id, hid, rfl⟩ := List.mem_map.mp hentry
  exact hnamed id hid

/-- **Linking goes through** exactly when the names differ and every field
means something. -/
theorem link_cases {declared : List FactId} (hnamed : ∀ id ∈ declared, (u.fact id).kind = .named)
    (hpending : u.Pending (u.fieldsOf declared)) (hnames : (declared.map u.qualifiedName).Nodup) :
    (∃ v, u.link declared = .ok v ∧ TypesLinked (u.entries declared) u v declared) ∨
    ∃ error, u.link declared = .error error ∧ TypeUnknown (u.entries declared) u declared error := by
  have hdir : u.directory declared = .ok (u.entries declared) :=
    directory_eq_ok_iff.mpr ⟨hnames, rfl⟩
  have hlink : u.link declared = declared.foldlM (linkType (u.entries declared)) u := by
    rw [link, hdir]
    rfl
  rw [hlink]
  exact linkTypes_cases (declares_entries hnamed) ⟨hnames.of_map _, hnamed, hpending⟩

end Universe

end Managed

end TypeBridge
