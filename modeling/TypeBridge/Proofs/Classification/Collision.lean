import TypeBridge.Proofs.Catalogue.Closed
import TypeBridge.Proofs.Classification.Declared
import TypeBridge.Proofs.Native.Place
/-!
# TypeBridge — when two types get one name

The native path of a type is its namespaces inside the base namespace, and a
first segment that would stand there twice is dropped. Which of two types had
it twice is not to be seen any more: a type whose namespaces begin with the base
is found where the type is whose namespaces go on alike without it, and without
a base so are two types of which one repeats the first namespace of the other.

Nothing else is lost. Two declared types of a parsed catalogue that have the
same spelling or the same header differ by such a segment, and in nothing else.
-/

namespace TypeBridge

open Managed Native Description

namespace Managed

variable {base first : String} {path other rest : List String}

/-! ## The dropped segment -/

/-- A first segment that would come twice: with the base in front of it, or
without one with what is behind it. -/
def Repeats (base first : String) (rest : List String) : Prop :=
  first = base ∨ base = "" ∧ rest.head? = some first

instance : Decidable (Repeats base first rest) :=
  inferInstanceAs (Decidable (_ ∨ _))

/-- What a path of namespaces is inside the base. -/
def innerPath (base : String) : List String → List String
  | [] => []
  | first :: rest => if Repeats base first rest then rest else first :: rest

/-- Namespaces that are others with one more segment in front, which is dropped:
the base, or without a base the first of the others. The others lose none. -/
def Doubles (base : String) (long short : List String) : Prop :=
  base ≠ "" ∧ long = base :: short ∧ short.head? ≠ some base ∨
    base = "" ∧ ∃ first rest, short = first :: rest ∧ long = first :: short ∧
      rest.head? ≠ some first

theorem mem_of_mem_innerPath {s : String} (h : s ∈ innerPath base path) : s ∈ path := by
  cases path with
  | nil => exact h
  | cons first rest =>
    rw [innerPath] at h
    split_ifs at h
    · exact List.mem_cons_of_mem _ h
    · exact h

/-- **The native path** of a type, whose namespaces are not empty. -/
theorem Fact.namespacePath_eq {fact : Fact} {settings : Settings}
    (h : ∀ s ∈ fact.namespaces, s ≠ "") : fact.namespacePath settings =
      pathIn settings.baseNamespace (innerPath settings.baseNamespace fact.namespaces) := by
  have hall : fact.namespaces.filter (· ≠ "") = fact.namespaces :=
    List.filter_eq_self.mpr fun s hs => by simpa using h s hs
  by_cases hbase : settings.baseNamespace = ""
  · rw [namespacePath, reverse_outwardPath, List.filter_cons_of_neg (by simpa using hbase), hall,
      pathIn, if_pos hbase, hbase]
    rcases hpath : fact.namespaces with _ | ⟨first, _ | ⟨second, rest⟩⟩
    · rfl
    · have hfirst : first ≠ "" := h first (by simp [hpath])
      simp [innerPath, Repeats, hfirst]
    · have hfirst : first ≠ "" := h first (by simp [hpath])
      simp [innerPath, Repeats, hfirst, eq_comm]
  · rw [namespacePath, reverse_outwardPath, List.filter_cons_of_pos (by simpa using hbase), hall,
      pathIn, if_neg hbase]
    rcases fact.namespaces with _ | ⟨first, rest⟩
    · rfl
    · by_cases hfirst : first = settings.baseNamespace
      · simp [innerPath, Repeats, hfirst]
      · simp [innerPath, Repeats, hfirst, Ne.symm hfirst, hbase]

/-- A path loses no segment if its first one repeats nothing. -/
theorem innerPath_eq_self_iff : innerPath base path = path ↔
    ∀ first rest, path = first :: rest → ¬ Repeats base first rest := by
  rcases path with _ | ⟨first, rest⟩
  · simp [innerPath]
  · by_cases hrepeats : Repeats base first rest <;> simp [innerPath, hrepeats]

/-- A path loses its first segment, or none. -/
theorem innerPath_cases (base : String) (path : List String) : innerPath base path = path ∨
    ∃ first, path = first :: innerPath base path ∧ Repeats base first (innerPath base path) := by
  rcases path with _ | ⟨first, rest⟩
  · exact .inl rfl
  · by_cases hrepeats : Repeats base first rest
    · have hrest : innerPath base (first :: rest) = rest := by simp [innerPath, hrepeats]
      exact .inr ⟨first, by rw [hrest], hrest.symm ▸ hrepeats⟩
    · exact .inl (by simp [innerPath, hrepeats])

/-- What is behind a segment tells if it is one that comes twice. -/
theorem Repeats.unique {second : String} (h : Repeats base first rest)
    (h' : Repeats base second rest) (hfirst : first ≠ "") (hsecond : second ≠ "") :
    first = second := by
  rcases h with rfl | ⟨rfl, h⟩ <;> rcases h' with rfl | ⟨hbase, h'⟩
  · rfl
  · exact absurd hbase hfirst
  · exact absurd rfl hsecond
  · exact Option.some.inj (h.symm.trans h')

/-- A path doubles the one it is found with if that one loses nothing. -/
theorem doubles_iff (h : ∀ s ∈ path, s ≠ "") : Doubles base path other ↔
    path ≠ other ∧ innerPath base path = other ∧ innerPath base other = other := by
  constructor
  · rintro (⟨hbase, rfl, hhead⟩ | ⟨rfl, first, rest, rfl, rfl, hhead⟩)
    · refine ⟨List.cons_ne_self _ _, by simp [innerPath, Repeats],
        innerPath_eq_self_iff.mpr ?_⟩
      rintro first rest rfl (rfl | ⟨hnone, -⟩)
      · exact hhead rfl
      · exact hbase hnone
    · refine ⟨List.cons_ne_self _ _, by simp [innerPath, Repeats],
        innerPath_eq_self_iff.mpr ?_⟩
      rintro first' rest' heq (rfl | ⟨-, hrepeats⟩)
      · obtain ⟨rfl, rfl⟩ := List.cons.inj heq
        exact h _ List.mem_cons_self rfl
      · obtain ⟨rfl, rfl⟩ := List.cons.inj heq
        exact hhead hrepeats
  · rintro ⟨hne, rfl, hself⟩
    obtain hpath | ⟨first, hpath, hrepeats⟩ := innerPath_cases base path
    · exact absurd hpath.symm hne
    · have hfirst : first ≠ "" := h first (by rw [hpath]; exact List.mem_cons_self)
      rw [innerPath_eq_self_iff] at hself
      by_cases hbase : base = ""
      · obtain ⟨rest, hrest⟩ : ∃ rest, innerPath base path = first :: rest := by
          rcases hrepeats with rfl | ⟨-, hhead⟩
          · exact absurd hbase hfirst
          · exact List.head?_eq_some_iff.mp hhead
        refine .inr ⟨hbase, first, rest, hrest, hpath, fun hhead => ?_⟩
        exact hself first rest hrest (.inr ⟨hbase, hhead⟩)
      · obtain rfl : first = base := hrepeats.resolve_right fun hnone => hbase hnone.1
        refine .inl ⟨hbase, hpath, fun hhead => ?_⟩
        obtain ⟨rest, hrest⟩ := List.head?_eq_some_iff.mp hhead
        exact hself first rest hrest (.inl rfl)

/-- **Two paths are found in one place** only if they are one, or if one of them
doubles the other. -/
theorem innerPath_inj (hpath : ∀ s ∈ path, s ≠ "") (hother : ∀ s ∈ other, s ≠ "") :
    innerPath base path = innerPath base other ↔
      path = other ∨ Doubles base path other ∨ Doubles base other path := by
  rw [doubles_iff hpath, doubles_iff hother]
  constructor
  · intro h
    by_cases heq : path = other
    · exact .inl heq
    · right
      obtain hself | ⟨first, hfirst, hrepeats⟩ := innerPath_cases base path
      · exact .inr ⟨Ne.symm heq, h.symm.trans hself, hself⟩
      · obtain hself | ⟨second, hsecond, hrepeats'⟩ := innerPath_cases base other
        · exact .inl ⟨heq, h.trans hself, hself⟩
        · -- both lose a segment, and what is left tells which
          rw [h] at hfirst hrepeats
          have hne : first ≠ "" := hpath first (by rw [hfirst]; exact List.mem_cons_self)
          have hne' : second ≠ "" := hother second (by rw [hsecond]; exact List.mem_cons_self)
          have hsame : first = second := hrepeats.unique hrepeats' hne hne'
          exact absurd (hfirst.trans (hsame ▸ hsecond.symm)) heq
  · rintro (rfl | ⟨-, h, hself⟩ | ⟨-, h, hself⟩)
    · rfl
    · exact h.trans hself.symm
    · exact hself.trans h.symm

/-- Two types that are found in one place: they have one name, and the
namespaces of one double those of the other. -/
def Fact.Collides (settings : Settings) (fact other : Fact) : Prop :=
  fact.name = other.name ∧
    (Doubles settings.baseNamespace fact.namespaces other.namespaces ∨
      Doubles settings.baseNamespace other.namespaces fact.namespaces)

end Managed

namespace Catalogue

variable {enumBase : Option String} {text : String} {settings : Settings} {c : Catalogue}
variable {a b id : FactId} {s t : Descriptor}

namespace Linked

variable (h : c.Linked enumBase)

include h

/-- A declared type has a name, and so have its namespaces. -/
theorem isName_of_declared (hid : id ∈ c.declared) :
    IsName (c.fact id).name.toList ∧ ∀ s ∈ (c.fact id).namespaces, IsName s.toList := by
  obtain ⟨d, hd, hfact⟩ := h.declaration id hid
  rw [hfact, Declared.name_fact, Declared.namespaces_fact]
  exact ⟨hd.name, hd.namespaces⟩

/-- Two declared types of one name are in different namespaces. -/
theorem namespaces_ne (ha : a ∈ c.declared) (hb : b ∈ c.declared) (hab : a ≠ b)
    (hname : (c.fact a).name = (c.fact b).name) :
    (c.fact a).namespaces ≠ (c.fact b).namespaces := by
  intro hnamespaces
  refine hab (List.inj_on_of_nodup_map h.names_nodup ha hb ?_)
  rw [Universe.qualifiedName_of_kind (h.kind_of_declared ha),
    Universe.qualifiedName_of_kind (h.kind_of_declared hb), Fact.dottedName, Fact.dottedName, hname,
    hnamespaces]

/-- **A declared type is found** under its name, in its namespaces inside the
base. -/
theorem declaredIn_of_classify (hid : id ∈ c.declared)
    (hok : c.classify settings id = .ok t) :
    t.DeclaredIn settings.baseNamespace ∧ t.name = (c.fact id).name ∧
      t.scope.segments = pathIn settings.baseNamespace
        (innerPath settings.baseNamespace (c.fact id).namespaces) := by
  obtain ⟨hname, hnamespaces⟩ := h.isName_of_declared hid
  rw [Universe.classify_of_kind_named (h.kind_of_declared hid)] at hok
  obtain ⟨kind, hne, hkind, rfl⟩ := Universe.exists_of_classifyDeclared hok
  have hscope : (Scope.ofSegments ((c.fact id).namespacePath settings)).segments =
      pathIn settings.baseNamespace
        (innerPath settings.baseNamespace (c.fact id).namespaces) := by
    rw [Scope.segments_ofSegments,
      Fact.namespacePath_eq fun s hs => ne_empty_of_isName (hnamespaces s hs)]
  have hinner : ∀ s ∈ innerPath settings.baseNamespace (c.fact id).namespaces, IsName s.toList :=
    fun s hs => hnamespaces s (mem_of_mem_innerPath hs)
  refine ⟨⟨?_, rfl, rfl, hname, _, hinner, hscope⟩, rfl, hscope⟩
  exact Universe.kind_ne_primitive_of_surveyKind hkind

/-- Two declared types are in one place if they collide. -/
theorem samePlace_iff_collides (ha : a ∈ c.declared) (hb : b ∈ c.declared) (hab : a ≠ b)
    (hs : c.classify settings a = .ok s) (ht : c.classify settings b = .ok t) :
    s.SamePlace t ↔ (c.fact a).Collides settings (c.fact b) := by
  obtain ⟨-, hname, hscope⟩ := h.declaredIn_of_classify ha hs
  obtain ⟨-, hname', hscope'⟩ := h.declaredIn_of_classify hb ht
  have hne {id : FactId} (hid : id ∈ c.declared) : ∀ s ∈ (c.fact id).namespaces, s ≠ "" :=
    fun s hs => ne_empty_of_isName ((h.isName_of_declared hid).2 s hs)
  rw [Descriptor.SamePlace, hname, hname', hscope, hscope', pathIn_inj,
    innerPath_inj (hne ha) (hne hb), Fact.Collides, and_comm]
  refine and_congr_right fun hsame => ?_
  have hdifferent := h.namespaces_ne ha hb hab hsame
  tauto

end Linked

/-- **Names collide only through the dropped segment.** Two declared types have
one spelling, or one header, if they collide. The lines that declare them ahead
are the same if they also begin with the same word. -/
theorem collides_iff (hparse : parse enumBase text = .ok c) (ha : a ∈ c.declared)
    (hb : b ∈ c.declared) (hab : a ≠ b) (hs : c.classify settings a = .ok s)
    (ht : c.classify settings b = .ok t) :
    (∀ rooted, s.spelling rooted = t.spelling rooted ↔ (c.fact a).Collides settings (c.fact b)) ∧
      (s.includePath = t.includePath ↔ (c.fact a).Collides settings (c.fact b)) ∧
      (s.forwardDeclaration? = t.forwardDeclaration? ↔
        (c.fact a).Collides settings (c.fact b) ∧
          s.kind.declarationKeyword = t.kind.declarationKeyword) := by
  have hlinked := linked_of_parse hparse
  obtain ⟨hs', -⟩ := hlinked.declaredIn_of_classify ha hs
  obtain ⟨ht', -⟩ := hlinked.declaredIn_of_classify hb ht
  have hbase : ':' ∉ settings.baseNamespace.toList := settings.baseNamespace_single.2
  rw [← hlinked.samePlace_iff_collides ha hb hab hs ht]
  exact ⟨fun rooted => hs'.spelling_inj hbase ht', hs'.includePath_inj ht',
    hs'.forwardDeclaration?_inj hbase ht'⟩

/-- A class and a struct of one name; the namespaces of the class begin with
the base and go on like those of the struct. -/
def twins : Outline :=
  (Outline.empty.block ⟨["DotNet"], "Shapes"⟩
    (Outline.empty.type (.referenceType "Widget" none))).block ⟨[], "Shapes"⟩
      (Outline.empty.type (.valueType "Widget" []))

/-- They share their spelling and their header, but are declared ahead by
different words. -/
theorem twins_collide : ∃ c s t, parse (some "System.Enum") twins.written = .ok c ∧
    c.classify {} 0 = .ok s ∧ c.classify {} 1 = .ok t ∧ s.rootedSpelling = t.rootedSpelling ∧
    s.includePath = t.includePath ∧ s.forwardDeclaration? ≠ t.forwardDeclaration? := by
  obtain ⟨c, s, t, hlink, hdeclared, hs, ht, hcollides, hwords⟩ :
      ∃ c s t, (ofOutline (some "System.Enum") twins.preferred).link = .ok c ∧
        c.declared = [0, 1] ∧ c.classify {} 0 = .ok s ∧ c.classify {} 1 = .ok t ∧
        (c.fact 0).Collides {} (c.fact 1) ∧
        s.kind.declarationKeyword ≠ t.kind.declarationKeyword :=
    ⟨_, _, _, rfl, rfl, rfl, rfl, ⟨rfl, .inl (.inl ⟨by decide, rfl, by decide⟩)⟩, by decide⟩
  have hparse : parse (some "System.Enum") twins.written = .ok c :=
    parse_written_of_link (by decide) hlink
  obtain ⟨hspelling, hheader, hahead⟩ := collides_iff hparse (by simp [hdeclared])
    (by simp [hdeclared]) (by decide) hs ht
  refine ⟨c, s, t, hparse, hs, ht, (hspelling true).mpr hcollides, hheader.mpr hcollides, ?_⟩
  exact fun h => hwords (hahead.mp h).2

end Catalogue

end TypeBridge
