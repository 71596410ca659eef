import TypeBridge.Native.Include
import TypeBridge.Proofs.Description.Named
import TypeBridge.Proofs.Text.Separated
/-!
# TypeBridge — where a declared type is found

A declared type stands under its name in a path of namespaces. Its spelling, the
path of its header and the line that declares it ahead are all made from the
segments of that path and from the name, and each of them tells the path and the
name again.

The segments are names but for the first one, which is the base namespace and
may be any text without a colon. So the colons of a spelling always separate,
but a slash or a blank may come from the base; the other two forms are compared
behind it.
-/

namespace TypeBridge

namespace Native

open Description Text

/-! ## Paths behind a base -/

/-- A path inside a base namespace, if there is one. -/
def pathIn (base : String) (inner : List String) : List String :=
  if base = "" then inner else base :: inner

variable {base sep : String} {xs ys : List String}

@[simp] theorem pathIn_inj : pathIn base xs = pathIn base ys ↔ xs = ys := by
  unfold pathIn
  split_ifs <;> simp

theorem pathIn_append : pathIn base xs ++ ys = pathIn base (xs ++ ys) := by
  unfold pathIn
  split_ifs <;> rfl

theorem mem_pathIn {x : String} : x ∈ pathIn base xs ↔ base ≠ "" ∧ x = base ∨ x ∈ xs := by
  unfold pathIn
  split_ifs with hbase <;> simp [hbase]

/-- The base is in front of the text of a path. -/
theorem intercalate_pathIn :
    sep.intercalate (pathIn base xs) = base ++ sep.intercalate (led (base ≠ "") xs) := by
  by_cases hbase : base = ""
  · simp [pathIn, led, hbase]
  · simpa [pathIn, hbase] using intercalate_cons_eq base xs

namespace Descriptor

/-- A type that is declared under a name inside a base namespace: no scalar,
without marks, and without a header of its own. -/
structure DeclaredIn (base : String) (t : Descriptor) : Prop where
  kind : t.kind ≠ .primitive
  header : t.header = none
  qualifiers : t.qualifiers = {}
  name : IsName t.name.toList
  scope : ∃ inner, (∀ s ∈ inner, IsName s.toList) ∧ t.scope.segments = pathIn base inner

/-- Two types of one name in one path. -/
def SamePlace (s t : Descriptor) : Prop :=
  s.scope.segments = t.scope.segments ∧ s.name = t.name

variable {s t : Descriptor} {rooted : Bool} {c : Char}

theorem samePlace_iff :
    s.SamePlace t ↔ s.scope.segments ++ [s.name] = t.scope.segments ++ [t.name] := by
  rw [SamePlace, List.append_singleton_inj]

/-- A spelling without marks is the path with the name, opened if it begins at
the root and there is a path. -/
theorem spelling_of_ne_empty (hqualifiers : t.qualifiers = {})
    (hsegments : ∀ x ∈ t.scope.segments, x ≠ "") : t.spelling rooted =
      "::".intercalate
        (led (rooted && t.scope.segments ≠ []) (t.scope.segments ++ [t.name])) := by
  by_cases hnil : t.scope.segments = []
  · simp [spelling, Scope.spelling, hqualifiers, hnil, led]
  · have hjoin : "::".intercalate (t.scope.segments ++ [t.name]) =
        "::".intercalate t.scope.segments ++ "::" ++ t.name := by
      rw [String.intercalate_append_of_ne_nil hnil (List.cons_ne_nil _ _),
        String.intercalate_singleton]
    have hpath : "::".intercalate t.scope.segments ≠ "" :=
      mt (intercalate_eq_empty_iff hsegments).mp hnil
    cases rooted
    · simp [spelling, Scope.spelling, hqualifiers, hnil, hpath, led, hjoin]
    · rw [show (true && decide (t.scope.segments ≠ [])) = true by simp [hnil],
        intercalate_led (by simp), hjoin]
      simp [spelling, Scope.spelling, hqualifiers, hpath, String.append_assoc]

namespace DeclaredIn

section

variable (h : t.DeclaredIn base)

include h

theorem ne_empty_of_mem {x : String} (hx : x ∈ t.scope.segments) : x ≠ "" := by
  obtain ⟨inner, hinner, hscope⟩ := h.scope
  rw [hscope, mem_pathIn] at hx
  rcases hx with ⟨hbase, rfl⟩ | hx
  · exact hbase
  · exact ne_empty_of_isName (hinner x hx)

/-- What is neither in the base nor part of names is in no segment. -/
theorem notMem_of_mem (hbase : c ∉ base.toList) (hc : isNameChar c = false) :
    ∀ x ∈ t.scope.segments ++ [t.name], c ∉ x.toList := by
  obtain ⟨inner, hinner, hscope⟩ := h.scope
  intro x hx
  rw [hscope, pathIn_append, mem_pathIn] at hx
  rcases hx with ⟨-, rfl⟩ | hx
  · exact hbase
  · exact notMem_of_names (forall_mem_concat hinner h.name) hc x hx

theorem spelling_scope_eq_empty_iff :
    "::".intercalate t.scope.segments = "" ↔ t.scope.segments = [] :=
  intercalate_eq_empty_iff fun _ => h.ne_empty_of_mem

/-- Behind the base no namespace has a blank. -/
theorem exists_behind : ∃ rest : String, ' ' ∉ rest.toList ∧
    "::".intercalate t.scope.segments = base ++ rest := by
  obtain ⟨inner, hinner, hscope⟩ := h.scope
  refine ⟨_, ?_, by rw [hscope, intercalate_pathIn]⟩
  exact notMem_intercalate (by decide) (forall_mem_led (notMem_of_names hinner rfl))

/-! ### The three forms -/

theorem spelling_eq : t.spelling rooted =
    "::".intercalate (led (rooted && t.scope.segments ≠ []) (t.scope.segments ++ [t.name])) :=
  spelling_of_ne_empty h.qualifiers fun _ => h.ne_empty_of_mem

theorem includePath_eq : t.includePath =
    "<" ++ "/".intercalate (t.scope.segments ++ [t.name]) ++ ".h>" := by
  have hempty : "/".intercalate t.scope.segments = "" ↔ t.scope.segments = [] :=
    intercalate_eq_empty_iff fun _ => h.ne_empty_of_mem
  rw [includePath, h.header]
  by_cases hnil : t.scope.segments = []
  · simp [hnil]
  · simp [hempty, hnil, String.intercalate_append_of_ne_nil hnil (List.cons_ne_nil _ _),
      String.append_assoc]

theorem forwardDeclaration?_eq : t.forwardDeclaration? =
    some (if t.scope.segments = [] then t.kind.declarationKeyword ++ " " ++ t.name ++ ";"
      else "namespace " ++ ("::".intercalate t.scope.segments ++ " " ++
        ("\x7b " ++ (t.kind.declarationKeyword ++ " " ++ t.name ++ ";") ++ " \x7d"))) := by
  have hempty := h.spelling_scope_eq_empty_iff
  have hahead : ¬ (t.kind = .primitive ∨ ¬ t.canBeDeclaredAhead) := by
    simp [h.kind, canBeDeclaredAhead, h.header]
  rw [forwardDeclaration?, if_neg hahead]
  by_cases hnil : t.scope.segments = []
  · simp [Scope.spelling, hnil]
  · have hblank (s : String) : " \x7b " ++ s = " " ++ ("\x7b " ++ s) := by
      rw [← String.append_assoc]
      rfl
    simp [Scope.spelling, hempty, hnil, String.append_assoc, hblank]

end

/-! ### What they tell -/

/-- **The spelling tells the place**, from the root or not. -/
theorem spelling_inj (hbase : ':' ∉ base.toList) (hs : s.DeclaredIn base)
    (ht : t.DeclaredIn base) : s.spelling rooted = t.spelling rooted ↔ s.SamePlace t := by
  have hcolon {t : Descriptor} (ht : t.DeclaredIn base) :
      ∀ x ∈ t.scope.segments ++ [t.name], ':' ∉ x.toList := ht.notMem_of_mem hbase rfl
  rw [hs.spelling_eq, ht.spelling_eq, intercalate_inj (c := ':') rfl (forall_mem_led (hcolon hs))
    (forall_mem_led (hcolon ht)) (led_ne_nil (by simp)) (led_ne_nil (by simp))]
  constructor
  · intro h
    rw [← led_append, ← led_append, List.append_singleton_inj, led_ne_nil_inj] at h
    exact h
  · rintro ⟨hscope, hname⟩
    rw [hscope, hname]

/-- **The path of the header tells the place.** The base is the same in front
of both, and behind it only separators are slashes. -/
theorem includePath_inj (hs : s.DeclaredIn base) (ht : t.DeclaredIn base) :
    s.includePath = t.includePath ↔ s.SamePlace t := by
  obtain ⟨inner, hinner, hscope⟩ := hs.scope
  obtain ⟨inner', hinner', hscope'⟩ := ht.scope
  have hslash : ∀ x ∈ inner ++ [s.name], '/' ∉ x.toList :=
    notMem_of_names (forall_mem_concat hinner hs.name) rfl
  have hslash' : ∀ x ∈ inner' ++ [t.name], '/' ∉ x.toList :=
    notMem_of_names (forall_mem_concat hinner' ht.name) rfl
  rw [hs.includePath_eq, ht.includePath_eq, String.append_left_inj, String.append_right_inj,
    samePlace_iff, hscope, hscope', pathIn_append, pathIn_append, intercalate_pathIn,
    intercalate_pathIn, String.append_right_inj, pathIn_inj,
    intercalate_inj (c := '/') rfl (forall_mem_led hslash) (forall_mem_led hslash')
      (led_ne_nil (by simp)) (led_ne_nil (by simp)), led_inj]

/-- A declaration tells its word and the name: no two words begin alike. -/
theorem declaration_inj {k l : Kind} {x y : String} :
    k.declarationKeyword ++ " " ++ x ++ ";" = l.declarationKeyword ++ " " ++ y ++ ";" ↔
      k.declarationKeyword = l.declarationKeyword ∧ x = y := by
  constructor
  · intro h
    have hword : k.declarationKeyword = l.declarationKeyword := by
      have hfirst := congrArg (·.toList.head?) h
      cases k <;> cases l <;> first | rfl | simp [Kind.declarationKeyword] at hfirst
    rw [hword, String.append_left_inj, String.append_right_inj] at h
    exact ⟨hword, h⟩
  · rintro ⟨hword, rfl⟩
    rw [hword]

/-- No word of a declaration begins like a namespace. -/
theorem declaration_ne_namespace {k : Kind} {x y : String} :
    k.declarationKeyword ++ " " ++ x ++ ";" ≠ "namespace " ++ y := by
  intro h
  have hfirst := congrArg (·.toList.head?) h
  cases k <;> simp [Kind.declarationKeyword] at hfirst

/-- Namespaces are told in front of a blank, as only the base may have one. -/
theorem namespace_inj {u v : String} (hbase : ':' ∉ base.toList) (hs : s.DeclaredIn base)
    (ht : t.DeclaredIn base) (hnil : s.scope.segments ≠ []) (hnil' : t.scope.segments ≠ []) :
    "::".intercalate s.scope.segments ++ " " ++ u =
        "::".intercalate t.scope.segments ++ " " ++ v ↔
      s.scope.segments = t.scope.segments ∧ u = v := by
  have hcolon {t : Descriptor} (ht : t.DeclaredIn base) : ∀ x ∈ t.scope.segments, ':' ∉ x.toList :=
    fun x hx => ht.notMem_of_mem hbase rfl x (List.mem_append_left _ hx)
  have hjoin : "::".intercalate s.scope.segments = "::".intercalate t.scope.segments ↔
      s.scope.segments = t.scope.segments :=
    intercalate_inj (c := ':') rfl (hcolon hs) (hcolon ht) hnil hnil'
  obtain ⟨rest, hrest, hscope⟩ := hs.exists_behind
  obtain ⟨rest', hrest', hscope'⟩ := ht.exists_behind
  have hcut : rest ++ " " ++ u = rest' ++ " " ++ v ↔ rest = rest' ∧ u = v :=
    append_sep_inj (c := ' ') rfl hrest hrest'
  have hbehind : base ++ rest ++ " " ++ u = base ++ rest' ++ " " ++ v ↔
      rest ++ " " ++ u = rest' ++ " " ++ v := by
    simp [String.append_assoc]
  rw [← hjoin, hscope, hscope', hbehind, hcut, String.append_right_inj]

/-- **The line that declares a type ahead tells the place** and the word of the
declaration. -/
theorem forwardDeclaration?_inj (hbase : ':' ∉ base.toList) (hs : s.DeclaredIn base)
    (ht : t.DeclaredIn base) : s.forwardDeclaration? = t.forwardDeclaration? ↔
      s.SamePlace t ∧ s.kind.declarationKeyword = t.kind.declarationKeyword := by
  rw [hs.forwardDeclaration?_eq, ht.forwardDeclaration?_eq, Option.some_inj]
  by_cases hnil : s.scope.segments = [] <;> by_cases hnil' : t.scope.segments = []
  · rw [if_pos hnil, if_pos hnil', declaration_inj, SamePlace, hnil, hnil']
    tauto
  · rw [if_pos hnil, if_neg hnil', SamePlace, hnil]
    exact iff_of_false declaration_ne_namespace fun h => hnil' h.1.1.symm
  · rw [if_neg hnil, if_pos hnil', SamePlace, hnil']
    exact iff_of_false declaration_ne_namespace.symm fun h => hnil h.1.1
  · rw [if_neg hnil, if_neg hnil', String.append_right_inj, namespace_inj hbase hs ht hnil hnil',
      String.append_left_inj, String.append_right_inj, declaration_inj, SamePlace]
    tauto

end DeclaredIn

end Descriptor

end Native

end TypeBridge
