import TypeBridge.Proofs.Description.Exchange
/-!
# TypeBridge — where a type is declared

A declaration occurs in an outline behind some tokens and inside some namespace
blocks. `Declares` follows the way to it down the outline, one block at a time,
and knows of no list.

`occurrences` lists what occurs. It holds each occurrence (`mem_occurrences_iff`)
and each ends before the next begins (`pairwise_occurrences`), so it holds each
once, in the order of the text. `Outline.declared` is that list with the names
of the blocks put together (`declared_eq_map`).
-/

namespace TypeBridge

namespace Description

/-- A declaration at its place in an outline. -/
structure Occurrence where
  /-- The tokens in front of it. -/
  front : List Token
  /-- The paths of the blocks around it, outermost first. -/
  around : List DottedName
  decl : TypeDecl

namespace Occurrence

/-- The occurrence with one more block around it, behind some tokens. -/
def within (front : List Token) (path : DottedName) (occ : Occurrence) : Occurrence :=
  ⟨front ++ occ.front, path :: occ.around, occ.decl⟩

/-- The text up to the end of the declaration. -/
def upTo (occ : Occurrence) : List Token :=
  occ.front ++ occ.decl.tokens

/-- One declaration ends before the other begins. -/
def Precedes (occ other : Occurrence) : Prop :=
  occ.upTo <+: other.front

/-- The declared type, under the names of the blocks one after the other. -/
def declared (occ : Occurrence) : Declared :=
  ⟨occ.around.flatMap DottedName.segments, occ.decl⟩

end Occurrence

/-- A declaration occurs in an outline. -/
inductive Outline.Declares : Outline → Occurrence → Prop
  | last (before : Outline) (decl : TypeDecl) :
      Declares (before.type decl) ⟨before.tokens, [], decl⟩
  | beforeType {before : Outline} {decl : TypeDecl} {occ : Occurrence} :
      Declares before occ → Declares (before.type decl) occ
  | beforeBlock {before inner : Outline} {path : DottedName} {occ : Occurrence} :
      Declares before occ → Declares (before.block path inner) occ
  | inside {before inner : Outline} {path : DottedName} {occ : Occurrence} :
      Declares inner occ →
        Declares (before.block path inner) (occ.within (before.tokens ++ path.opening) path)

namespace Outline

/-- The declarations of an outline with their places. -/
def occurrences : Outline → List Occurrence
  | empty => []
  | type before decl => before.occurrences ++ [⟨before.tokens, [], decl⟩]
  | block before path inner =>
    before.occurrences ++
      inner.occurrences.map (Occurrence.within (before.tokens ++ path.opening) path)

variable {o : Outline} {occ : Occurrence}

theorem declares_of_mem (h : occ ∈ o.occurrences) : o.Declares occ := by
  induction o generalizing occ with
  | empty => cases h
  | type before decl ih =>
    rcases List.mem_append.mp h with h | h
    · exact .beforeType (ih h)
    · obtain rfl := List.mem_singleton.mp h
      exact .last before decl
  | block before path inner ih ih' =>
    rcases List.mem_append.mp h with h | h
    · exact .beforeBlock (ih h)
    · obtain ⟨occ, hocc, rfl⟩ := List.mem_map.mp h
      exact .inside (ih' hocc)

/-- **What occurs is listed**, and nothing else. -/
theorem mem_occurrences_iff : occ ∈ o.occurrences ↔ o.Declares occ := by
  refine ⟨declares_of_mem, fun h => ?_⟩
  induction h with
  | last => simp [occurrences]
  | beforeType _ ih => exact List.mem_append_left _ ih
  | beforeBlock _ ih => exact List.mem_append_left _ ih
  | inside _ ih => exact List.mem_append_right _ (List.mem_map_of_mem ih)

/-- **A declaration stands at its place** in the outline as it is written. -/
theorem Declares.upTo_isPrefix (h : o.Declares occ) : occ.upTo <+: o.tokens := by
  induction h with
  | last => exact List.prefix_rfl
  | beforeType _ ih => exact ih.trans (List.prefix_append _ _)
  | @beforeBlock before inner path occ _ ih =>
    rw [tokens_block, List.append_assoc, List.append_assoc]
    exact ih.trans (List.prefix_append _ _)
  | @inside before inner path occ _ ih =>
    rw [tokens_block, Occurrence.upTo, Occurrence.within, List.append_assoc]
    exact ((List.prefix_append_right_inj _).mpr ih).trans (List.prefix_append _ _)

/-- **They are listed in the order of the text.** -/
theorem pairwise_occurrences (o : Outline) : o.occurrences.Pairwise Occurrence.Precedes := by
  induction o with
  | empty => exact .nil
  | type before decl ih =>
    refine List.pairwise_append.mpr ⟨ih, List.pairwise_singleton _ _, fun occ hocc other hother => ?_⟩
    obtain rfl := List.mem_singleton.mp hother
    exact (declares_of_mem hocc).upTo_isPrefix
  | block before path inner ih ih' =>
    refine List.pairwise_append.mpr ⟨ih, ?_, fun occ hocc other hother => ?_⟩
    · refine List.pairwise_map.mpr (ih'.imp fun {occ other} h => ?_)
      rw [Occurrence.Precedes, Occurrence.upTo, Occurrence.within, List.append_assoc]
      exact (List.prefix_append_right_inj _).mpr h
    · obtain ⟨other, -, rfl⟩ := List.mem_map.mp hother
      rw [Occurrence.Precedes, Occurrence.within, List.append_assoc]
      exact (declares_of_mem hocc).upTo_isPrefix.trans (List.prefix_append _ _)

/-- Names handed down to the declarations are the names that each block puts in
front of what it holds, innermost block first. -/
theorem declaredBefore_eq (o : Outline) (namespaces : List String) (after : List Declared) :
    o.declaredBefore namespaces after =
      o.occurrences.map (fun occ => ⟨namespaces ++ occ.declared.namespaces, occ.decl⟩) ++ after := by
  induction o generalizing namespaces after with
  | empty => rfl
  | type before decl ih => simp [declaredBefore, occurrences, ih, Occurrence.declared]
  | block before path inner ih ih' =>
    rw [declaredBefore, ih, ih', occurrences, List.map_append, List.map_map, List.append_assoc]
    simp [Function.comp_def, Occurrence.declared, Occurrence.within]

/-- **The types of an outline** are what occurs in it. -/
theorem declared_eq_map (o : Outline) : o.declared = o.occurrences.map Occurrence.declared := by
  rw [declared, declaredBefore_eq, List.append_nil]
  rfl

end Outline

end Description

end TypeBridge
