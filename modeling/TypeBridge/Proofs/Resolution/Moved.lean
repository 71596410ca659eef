import TypeBridge.Proofs.Resolution.Innermost
import TypeBridge.Proofs.Resolution.Revision
/-!
# TypeBridge — linking inside further namespaces

The declared types of a table may all be moved into further namespaces. A
mention is then looked up from further inside: under the names it had before,
each behind the new path, and only then under names that are shorter. So what
was found is found first, at the same place (`findSome?_moved`), and linking
comes to the same table with the types moved (`link_moved`).
-/

namespace TypeBridge

namespace Managed

/-! ## Names behind a path -/

/-- A name behind a path. -/
def nameInside (path : List String) (name : String) : String :=
  ".".intercalate (path ++ [name])

variable {path names : List String} {x y name : String} {dir : Directory}

theorem nameInside_of_ne_nil (h : path ≠ []) (name : String) :
    nameInside path name = ".".intercalate path ++ "." ++ name := by
  rw [nameInside, String.intercalate_append_of_ne_nil h (List.cons_ne_nil _ _),
    String.intercalate_singleton]

theorem nameInside_inj : nameInside path x = nameInside path y ↔ x = y := by
  rcases List.eq_nil_or_concat path with rfl | ⟨_, _, rfl⟩
  · simp [nameInside]
  · rw [nameInside_of_ne_nil (by simp), nameInside_of_ne_nil (by simp), String.append_right_inj]

theorem nameInside_append : nameInside path x ++ y = nameInside path (x ++ y) := by
  rcases List.eq_nil_or_concat path with rfl | ⟨_, _, rfl⟩
  · simp [nameInside]
  · rw [nameInside_of_ne_nil (by simp), nameInside_of_ne_nil (by simp), String.append_assoc]

/-- A dotted name behind a path is a dotted name. -/
theorem nameInside_intercalate (h : names ≠ []) :
    nameInside path (".".intercalate names) = ".".intercalate (path ++ names) := by
  rcases List.eq_nil_or_concat path with rfl | ⟨_, _, rfl⟩
  · simp [nameInside]
  · rw [nameInside_of_ne_nil (by simp), String.intercalate_append_of_ne_nil (by simp) h]

/-- From further inside the scopes are the old ones behind the path, and then
those of the path itself. -/
theorem scopesOutward_append (path inner : List String) :
    ∃ outer, scopesOutward (path ++ inner) = (scopesOutward inner).map (path ++ ·) ++ outer := by
  refine ⟨(List.range path.length).reverse.map (path ++ inner).take, ?_⟩
  rw [scopesOutward, List.length_append, Nat.add_assoc, List.range_add, List.reverse_append,
    List.map_append, scopesOutward, ← List.map_reverse, List.map_map, List.map_map]
  refine congrArg (· ++ _) (List.map_congr_left fun depth _ => ?_)
  exact List.take_length_add_append depth

/-- And so are the names that a mention may have. -/
theorem Fact.candidates_append (mention : Fact) (path inner : List String) :
    ∃ outer, mention.candidates (path ++ inner) =
      (mention.candidates inner).map (nameInside path) ++ outer := by
  obtain ⟨outer, houter⟩ := scopesOutward_append path inner
  refine ⟨outer.map fun scope =>
    ".".intercalate (scope ++ mention.namespaces ++ [mention.name]), ?_⟩
  rw [candidates, houter, List.map_append, List.map_map, candidates, List.map_map]
  refine congrArg (· ++ _) (List.map_congr_left fun scope _ => ?_)
  simp only [Function.comp_apply]
  rw [nameInside_intercalate (by simp), List.append_assoc, List.append_assoc, List.append_assoc]

/-! ## The directory -/

/-- The same types under names behind a path. -/
def movedDirectory (path : List String) (dir : Directory) : Directory :=
  dir.map fun (name, id) => (nameInside path name, id)

theorem lookup_movedDirectory :
    (movedDirectory path dir).lookup (nameInside path name) = dir.lookup name := by
  induction dir with
  | nil => rfl
  | cons entry dir ih =>
    obtain ⟨other, id⟩ := entry
    rw [movedDirectory, List.map_cons, List.lookup_cons, List.lookup_cons]
    by_cases h : name = other
    · simp [h]
    · have h' : nameInside path name ≠ nameInside path other := fun heq => h (nameInside_inj.mp heq)
      rw [beq_eq_false_iff_ne.mpr h, beq_eq_false_iff_ne.mpr h']
      exact ih

/-- **What was found is found first**: no shorter name comes before it. -/
theorem findSome?_moved {mention : Fact} {inner : List String} {found : FactId}
    (h : (mention.candidates inner).findSome? (dir.lookup ·) = some found) :
    (mention.candidates (path ++ inner)).findSome? ((movedDirectory path dir).lookup ·) =
      some found := by
  obtain ⟨outer, houter⟩ := mention.candidates_append path inner
  rw [houter, List.findSome?_append, List.findSome?_map]
  have hsame : ((movedDirectory path dir).lookup ·) ∘ nameInside path = (dir.lookup ·) :=
    funext fun _ => lookup_movedDirectory
  rw [hsame, h, Option.some_or]

namespace Universe

variable {u v w : Universe} {ids declared : List FactId} {owner id p last found : FactId}
variable {pointers : List FactId} {fields news : List Field}

/-! ## Types that are moved -/

theorem fact_moved (hsize : p < u.size) (hp : p ∈ ids) :
    (u.revise (.moved path ids)).fact p = (u.fact p).inside path := by
  rw [fact_revise hsize]
  exact if_pos hp

theorem fact_moved_of_notMem (hp : p ∉ ids) : (u.revise (.moved path ids)).fact p = u.fact p := by
  rcases Nat.lt_or_ge p u.size with h | h
  · rw [fact_revise h]
    exact if_neg hp
  · exact fact_revise_of_le h

/-- A type is called by its old name behind the path. -/
theorem dottedName_inside (fact : Fact) (path : List String) :
    (fact.inside path).dottedName = nameInside path fact.dottedName := by
  rw [Fact.dottedName, Fact.dottedName, nameInside_intercalate (by simp), Fact.inside,
    List.append_assoc]

theorem qualifiedName_moved (hnamed : ∀ id ∈ ids, (u.fact id).kind = .named) (p : FactId) :
    (u.revise (.moved path ids)).qualifiedName p =
      if (u.pointerChain p).1 ∈ ids then nameInside path (u.qualifiedName p)
      else u.qualifiedName p := by
  rw [qualifiedName, pointerChain_revise, qualifiedName]
  obtain ⟨last, stars⟩ := u.pointerChain p
  dsimp only
  split_ifs with hlast
  · have hsize : last < u.size := lt_size_of_kind (by simp [hnamed last hlast])
    rw [fact_moved hsize hlast, dottedName_inside, nameInside_append]
  · rw [fact_moved_of_notMem hlast]

theorem qualifiedName_moved_of_mem (hnamed : ∀ id ∈ ids, (u.fact id).kind = .named)
    (hid : id ∈ ids) :
    (u.revise (.moved path ids)).qualifiedName id = nameInside path (u.qualifiedName id) := by
  have hchain : u.pointerChain id = (id, 0) := pointerChain_of_kind_ne (by simp [hnamed id hid])
  rw [qualifiedName_moved hnamed, hchain, if_pos hid]

/-! ## Linking -/

section

variable (hdir : w.Declares dir)

include hdir

theorem lt_size_of_declares (hp : p ∈ dir.map Prod.snd) : p < w.size := by
  obtain ⟨entry, hentry, rfl⟩ := List.mem_map.mp hp
  exact lt_size_of_kind (by simp [hdir entry hentry])

theorem kind_of_declares (hp : p ∈ dir.map Prod.snd) : (w.fact p).kind = .named := by
  obtain ⟨entry, hentry, rfl⟩ := List.mem_map.mp hp
  exact hdir entry hentry

/-- A mention is looked up to the same place. -/
theorem lookUp_moved (howner : owner ∈ dir.map Prod.snd) (hkind : (w.fact id).kind = .mention)
    (h : w.lookUp dir owner id = .ok (v, found)) :
    (w.revise (.moved path (dir.map Prod.snd))).lookUp (movedDirectory path dir) owner id =
      .ok (v.revise (.moved path (dir.map Prod.snd)), found) := by
  have hmention : id ∉ dir.map Prod.snd := fun hid => by
    rw [kind_of_declares hdir hid] at hkind
    cases hkind
  have hnew : w.size ∉ dir.map Prod.snd := fun hsize =>
    Nat.lt_irrefl _ (lt_size_of_declares hdir hsize)
  simp only [lookUp] at h ⊢
  rw [fact_moved_of_notMem hmention, fact_moved (lt_size_of_declares hdir howner) howner,
    Fact.namespaces_inside]
  split at h
  · obtain ⟨rfl, rfl⟩ := Prod.mk.inj (Except.ok.inj h)
    rw [revise_push, size_revise]
    dsimp only [Revision.moved]
    rw [if_neg hnew]
  · split at h
    · rename_i found' hfound
      obtain ⟨rfl, rfl⟩ := Prod.mk.inj (Except.ok.inj h)
      rw [findSome?_moved hfound]
    · cases h

variable (path) in
theorem resolve_moved (howner : owner ∈ dir.map Prod.snd) (hleads : w.Leads id pointers last)
    (hkind : (w.fact last).kind = .mention) {steps : ℕ} (hsteps : pointers.length ≤ steps)
    (h : w.resolve dir owner steps id = .ok (v, found)) :
    (w.revise (.moved path (dir.map Prod.snd))).resolve (movedDirectory path dir) owner steps id =
      .ok (v.revise (.moved path (dir.map Prod.snd)), found) := by
  have hlast := target?_of_mention hkind
  rw [resolve_eq hleads hlast hsteps] at h
  rw [resolve_eq (leads_revise_iff.mpr hleads) ((target?_revise last).trans hlast) hsteps]
  rcases hlookUp : w.lookUp dir owner last with error | ⟨v', target⟩ <;> rw [hlookUp] at h
  · cases h
  · obtain ⟨rfl, rfl⟩ := Prod.mk.inj (Except.ok.inj h)
    rw [lookUp_moved hdir howner hkind hlookUp, revise_repoint]
    rfl

end

theorem linkFields_moved (hdir : w.Declares dir) (howner : owner ∈ dir.map Prod.snd)
    (hpending : w.Pending fields) (h : w.linkFields dir owner fields = .ok (v, news)) :
    (w.revise (.moved path (dir.map Prod.snd))).linkFields (movedDirectory path dir) owner fields =
      .ok (v.revise (.moved path (dir.map Prod.snd)), news) := by
  induction fields generalizing w news with
  | nil =>
    obtain ⟨rfl, rfl⟩ := Prod.mk.inj (Except.ok.inj h)
    rfl
  | cons field fields ih =>
    obtain ⟨pointers, mention, hleads, hkind, -⟩ := hpending.mentions field (by simp)
    rcases resolve_cases dir owner hleads hkind with
      ⟨w', type, hresolve, -, hkeeps⟩ | ⟨hresolve, -⟩
    · rcases hrest : w'.linkFields dir owner fields with error | ⟨w'', rest⟩
      · simp [linkFields, hresolve, hrest, bind, Except.bind] at h
      · obtain ⟨rfl, rfl⟩ : w'' = v ∧ { field with type } :: rest = news := by
          simpa [linkFields, hresolve, hrest, bind, Except.bind, pure, Except.pure] using h
        have hfirst := resolve_moved path hdir howner hleads hkind
          (hleads.length_le_size (target?_of_mention hkind)) hresolve
        have hothers :=
          ih (hpending.declares_of_linked hkeeps hdir) (hpending.of_linked hkeeps) hrest
        simp [linkFields, hfirst, hothers, bind, Except.bind, pure, Except.pure]
    · rw [linkFields, hresolve] at h
      cases h

theorem linkType_moved (hdir : w.Declares dir) (hid : id ∈ dir.map Prod.snd)
    (hpending : w.Pending (w.fact id).fields) (h : w.linkType dir id = .ok v) :
    (w.revise (.moved path (dir.map Prod.snd))).linkType (movedDirectory path dir) id =
      .ok (v.revise (.moved path (dir.map Prod.snd))) := by
  rw [linkType] at h ⊢
  rw [fact_moved (lt_size_of_declares hdir hid) hid, Fact.fields_inside]
  rcases hfields : w.linkFields dir id (w.fact id).fields with error | ⟨w', news⟩ <;>
    rw [hfields] at h
  · cases h
  · obtain rfl := Except.ok.inj h
    rw [linkFields_moved hdir hid hpending hfields]
    have hmodify : (w'.modify id ({ · with fields := news })).revise
          (.moved path (dir.map Prod.snd)) =
        (w'.revise (.moved path (dir.map Prod.snd))).modify id ({ · with fields := news }) :=
      revise_modify fun fact => by
        dsimp only [Revision.moved]
        split <;> rfl
    rw [hmodify]
    rfl

variable (path) in
theorem linkTypes_moved (hdir : w.Declares dir) (hsub : ids ⊆ dir.map Prod.snd)
    (hpending : w.PendingTypes ids) (h : ids.foldlM (linkType dir) w = .ok v) :
    ids.foldlM (linkType (movedDirectory path dir)) (w.revise (.moved path (dir.map Prod.snd))) =
      .ok (v.revise (.moved path (dir.map Prod.snd))) := by
  induction ids generalizing w with
  | nil =>
    obtain rfl := Except.ok.inj h
    rfl
  | cons id ids ih =>
    rw [List.foldlM_cons] at h ⊢
    rcases linkType_cases hdir (hpending.named id (by simp)) hpending.head with
      ⟨w', hlink, hfirst⟩ | ⟨error, hlink, -⟩ <;> rw [hlink] at h
    · rw [linkType_moved hdir (hsub (by simp)) hpending.head hlink]
      exact ih hfirst.declares (fun p hp => hsub (by simp [hp])) (hpending.of_linked hfirst) h
    · cases h

theorem entries_moved (hnamed : ∀ id ∈ declared, (u.fact id).kind = .named) :
    (u.revise (.moved path declared)).entries declared =
      movedDirectory path (u.entries declared) := by
  simp only [entries, movedDirectory, List.map_map]
  refine List.map_congr_left fun id hid => ?_
  simp [qualifiedName_moved_of_mem hnamed hid]

/-- **Linking comes to the same** inside further namespaces, at the same places. -/
theorem link_moved (hnamed : ∀ id ∈ declared, (u.fact id).kind = .named)
    (hpending : u.Pending (u.fieldsOf declared)) (h : u.link declared = .ok v) :
    (u.revise (.moved path declared)).link declared = .ok (v.revise (.moved path declared)) := by
  have hnames := nodup_of_link h
  have hnames' : (declared.map (u.revise (.moved path declared)).qualifiedName).Nodup := by
    have hmap : declared.map (u.revise (.moved path declared)).qualifiedName =
        (declared.map u.qualifiedName).map (nameInside path) := by
      rw [List.map_map]
      exact List.map_congr_left fun id hid => qualifiedName_moved_of_mem hnamed hid
    rw [hmap]
    exact hnames.map fun _ _ => nameInside_inj.mp
  rw [link, directory_eq_ok_iff.mpr ⟨hnames, rfl⟩] at h
  rw [link, directory_eq_ok_iff.mpr ⟨hnames', rfl⟩, entries_moved hnamed]
  have hmoved := linkTypes_moved path (declares_entries hnamed)
    (by rw [ids_entries]; exact fun _ hp => hp) ⟨hnames.of_map _, hnamed, hpending⟩ h
  rwa [ids_entries] at hmoved

end Universe

end Managed

end TypeBridge
