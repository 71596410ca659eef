import TypeBridge.Proofs.Classification.Declared
/-!
# TypeBridge — the handle class as a declared class

The settings name the class that owns raw handles, and its descriptor is made
from them alone. The same class may also be declared, in the namespaces that the
settings give it, and is classified then like any other.

Both put it inside the base namespace and leave out namespaces without a name,
the settings in order and a class from the inside outwards. But only a declared
class has a first namespace dropped that comes twice (`namespacePath_eq_self_iff`),
so the two descriptors agree unless the path begins with the same namespace
twice, and then they differ by that one (`handleType_eq_classify_iff`).
-/

namespace TypeBridge

open Managed Native

/-- A path whose first two segments are the same. -/
def BeginsTwice (path : List String) : Prop :=
  ∃ first rest, path = first :: first :: rest

namespace Managed.Fact

variable {fact : Fact} {settings : Settings} {namespaces path rest : List String}
variable {name first : String}

/-- The class of some name in some namespaces. -/
structure IsClass (fact : Fact) (namespaces : List String) (name : String) : Prop where
  kind : fact.kind = .named
  isReferenceType : fact.isReferenceType = true
  baseType : fact.baseType = none
  namespaces : fact.namespaces = namespaces
  name : fact.name = name

/-- A class has no base type that could mark it as an enum. -/
theorem IsClass.isEnum_eq (h : fact.IsClass namespaces name) (enumBase : Option String) :
    fact.isEnum enumBase = false := by
  simp [isEnum, h.baseType]

/-! ## The dropped namespace -/

theorem namespacePath_of_twice
    (h : (settings.baseNamespace :: fact.namespaces).filter (· ≠ "") = first :: first :: rest) :
    fact.namespacePath settings = first :: rest := by
  rw [namespacePath, reverse_outwardPath, h]
  exact if_pos rfl

/-- **A path keeps its first namespace** unless it begins with it twice. -/
theorem namespacePath_eq_self_iff
    (h : (settings.baseNamespace :: fact.namespaces).filter (· ≠ "") = path) :
    fact.namespacePath settings = path ↔ ¬ BeginsTwice path := by
  constructor
  · rintro hself ⟨first, rest, rfl⟩
    rw [namespacePath_of_twice h] at hself
    exact List.cons_ne_self _ _ (List.cons.inj hself).2.symm
  · intro hnot
    rw [namespacePath, reverse_outwardPath, h]
    rcases path with _ | ⟨first, _ | ⟨second, rest⟩⟩
    · rfl
    · rfl
    · refine if_neg ?_
      rintro rfl
      exact hnot ⟨first, rest, rfl⟩

end Managed.Fact

namespace Managed.Universe

variable {u : Universe} {settings : Settings} {id : FactId} {namespaces : List String}
variable {name dotted : String}

/-- A class is a class wrapper, wherever its path is. -/
theorem classify_of_isClass (h : (u.fact id).IsClass namespaces name) (hname : name ≠ "") :
    u.classify settings id = .ok
      { kind := .classWrapper, scope := .ofSegments ((u.fact id).namespacePath settings), name
        name_ne_empty := hname } := by
  have hkind : (u.surveyKind settings id).2 = .ok .classWrapper := by
    rw [surveyKind, if_neg (by simp [h.isEnum_eq]), if_pos h.isReferenceType]
  have hnamed := h.name
  subst hnamed
  rw [classify_of_kind_named h.kind, classifyDeclared, hkind]
  simp only [Except.mapError, bind, Except.bind, Descriptor.named, dif_neg hname]

/-- **The handle class is placed like a declared class**, with one exception. The
class that is declared under the same name in the same namespaces has the same
descriptor if and only if the path inside the base namespace, without segments
that have no name, does not begin with the same segment twice. If it does, the
path of the handle class is longer by exactly this first segment. -/
theorem handleType_eq_classify_iff (hnamespace : settings.handleNamespace = some dotted)
    (hname : settings.handleName = some name) (hne : name ≠ "")
    (hclass : (u.fact id).IsClass (Text.dottedSegments dotted) name) :
    ∃ handle t, settings.handleType = .ok handle ∧ u.classify settings id = .ok t ∧
      (handle = t ↔ ¬ BeginsTwice
        ((settings.baseNamespace :: Text.dottedSegments dotted).filter (· ≠ ""))) ∧
      ∀ first rest,
        (settings.baseNamespace :: Text.dottedSegments dotted).filter (· ≠ "") =
            first :: first :: rest →
          t.scope.segments = first :: rest ∧
          handle = { t with scope := .ofSegments (first :: t.scope.segments) } := by
  have hpath : (settings.baseNamespace :: (u.fact id).namespaces).filter (· ≠ "") =
      settings.handlePath dotted := by
    rw [hclass.namespaces, Settings.handlePath]
  refine ⟨_, _, Settings.handleType_of_name hnamespace hname hne, classify_of_isClass hclass hne,
    ?_, fun first rest htwice => ?_⟩
  · rw [Descriptor.mk.injEq]
    simp only [Scope.ofSegments_inj, true_and, and_true]
    exact eq_comm.trans (Fact.namespacePath_eq_self_iff hpath)
  · have hhandle : settings.handlePath dotted = first :: first :: rest := htwice
    have hshort := Fact.namespacePath_of_twice (hpath.trans hhandle)
    rw [hshort, hhandle]
    simp

/-- A handle class in a namespace that repeats the base, and a segment without a
name in front of it. -/
def nestedHandle : Settings :=
  { Settings.standard with handleNamespace := some ".DotNet.Reinterop" }

/-- The same class, declared. -/
def nestedHandleClass : Universe :=
  ⟨#[{ kind := .named, name := "ObjectHandle", isReferenceType := true
       namespaces := ["", "DotNet", "Reinterop"] }]⟩

/-- The repeated base stays in front of the handle class only. -/
theorem nestedHandle_longer :
    nestedHandle.handleNamespace = some ".DotNet.Reinterop" ∧
    nestedHandle.handleName = some "ObjectHandle" ∧
    (nestedHandleClass.fact 0).IsClass (Text.dottedSegments ".DotNet.Reinterop") "ObjectHandle" ∧
    ∃ handle t, nestedHandle.handleType = .ok handle ∧
      nestedHandleClass.classify nestedHandle 0 = .ok t ∧ handle ≠ t ∧
      t.scope.segments = ["DotNet", "Reinterop"] ∧
      handle.scope.segments = ["DotNet", "DotNet", "Reinterop"] := by
  have hsegments : Text.dottedSegments ".DotNet.Reinterop" = ["", "DotNet", "Reinterop"] :=
    Text.dottedSegments_eq_iff.mpr ⟨by decide, by decide, by decide⟩
  have hclass : (nestedHandleClass.fact 0).IsClass (Text.dottedSegments ".DotNet.Reinterop")
      "ObjectHandle" := ⟨rfl, rfl, rfl, hsegments.symm, rfl⟩
  have htwice : (nestedHandle.baseNamespace :: Text.dottedSegments ".DotNet.Reinterop").filter
      (· ≠ "") = ["DotNet", "DotNet", "Reinterop"] := by
    rw [hsegments]
    decide
  have hnamespace : nestedHandle.handleNamespace = some ".DotNet.Reinterop" := rfl
  obtain ⟨handle, t, hhandle, ht, hiff, hlonger⟩ :=
    handleType_eq_classify_iff hnamespace rfl (by decide) hclass
  obtain ⟨hshort, hlong⟩ := hlonger _ _ htwice
  refine ⟨hnamespace, rfl, hclass, handle, t, hhandle, ht, fun heq => ?_, hshort, ?_⟩
  · exact hiff.mp heq ⟨_, _, htwice⟩
  · rw [hlong, hshort]
    rfl

end Managed.Universe

end TypeBridge
