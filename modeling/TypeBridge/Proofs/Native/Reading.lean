import TypeBridge.Proofs.Description.Named
import TypeBridge.Proofs.Text.Separated
/-!
# TypeBridge — reading expressions

A conversion is generated as text, and what it does is decided when the text is
read again. `Reads` has a rule for each form that is needed: a variable, a type
with an argument in parentheses, and a method called without arguments.
Expressions stand in no namespace, so a path means the same with the root in front.

Where the last parenthesis opens tells a call from a construction, a path ends
at the first parenthesis and a receiver at the last dot. So no text is read in
two ways (`Reads.unique`), and every text that is read is well bracketed
(`Reads.wellBracketed`).
-/

namespace TypeBridge

namespace Native

open Description Text

/-! ## Brackets -/

/-- The brackets of code, each with the one that closes it. -/
def brackets : List (Char × Char) :=
  [('(', ')'), ('[', ']'), ('\x7b', '\x7d')]

/-- A character that is no bracket. -/
def IsPlain (c : Char) : Prop :=
  ∀ pair ∈ brackets, c ≠ pair.1 ∧ c ≠ pair.2

instance : DecidablePred IsPlain :=
  fun _ => inferInstanceAs (Decidable (∀ pair ∈ brackets, _))

/-- Text in which every bracket is closed by its own, the innermost first. -/
inductive WellBracketed : List Char → Prop
  | nil : WellBracketed []
  | plain {c : Char} {rest : List Char} (hc : IsPlain c) (hrest : WellBracketed rest) :
      WellBracketed (c :: rest)
  | enclosed {opening closing : Char} {inner rest : List Char}
      (hpair : (opening, closing) ∈ brackets) (hinner : WellBracketed inner)
      (hrest : WellBracketed rest) : WellBracketed (opening :: inner ++ closing :: rest)

namespace WellBracketed

variable {text more inner : List Char}

theorem append (h : WellBracketed text) (hmore : WellBracketed more) :
    WellBracketed (text ++ more) := by
  induction h with
  | nil => exact hmore
  | plain hc _ ih => exact .plain hc ih
  | @enclosed opening closing inner rest hpair hinner _ _ ih =>
    have heq : opening :: inner ++ closing :: rest ++ more =
        opening :: inner ++ closing :: (rest ++ more) := by simp
    rw [heq]
    exact .enclosed hpair hinner ih

theorem of_plain (h : ∀ c ∈ text, IsPlain c) : WellBracketed text := by
  induction text with
  | nil => exact .nil
  | cons c text ih =>
    rw [List.forall_mem_cons] at h
    exact .plain h.1 (ih h.2)

/-- Parentheses around text. -/
theorem parenthesized (h : WellBracketed inner) : WellBracketed ('(' :: inner ++ [')']) :=
  .enclosed (by decide) h .nil

end WellBracketed

theorem isPlain_of_isNameChar {c : Char} (h : isNameChar c = true) : IsPlain c := by
  have hnone : ∀ pair ∈ brackets, isNameChar pair.1 = false ∧ isNameChar pair.2 = false := by
    decide
  refine fun pair hpair => ⟨?_, ?_⟩
  · rintro rfl
    rw [(hnone pair hpair).1] at h
    cases h
  · rintro rfl
    rw [(hnone pair hpair).2] at h
    cases h

/-! ## Expressions -/

/-- An expression as it is read. A type is known by the path of its name. -/
inductive Term
  | operand (name : String)
  /-- A type constructed from, or cast from, its argument. -/
  | construct (path : List String) (argument : Term)
  /-- A method without arguments, called on a receiver. -/
  | call (receiver : Term) (method : String)

/-- What a text is read as. A path may begin at the root. -/
inductive Reads : String → Term → Prop
  | operand {name : String} (hname : IsName name.toList) : Reads name (.operand name)
  | construct {rooted : Bool} {path : List String} {text : String} {argument : Term}
      (hnil : path ≠ []) (hpath : ∀ s ∈ path, IsName s.toList) (hargument : Reads text argument) :
      Reads ("::".intercalate (led rooted path) ++ "(" ++ text ++ ")") (.construct path argument)
  | call {text : String} {receiver : Term} {method : String} (hreceiver : Reads text receiver)
      (hmethod : IsName method.toList) :
      Reads (text ++ "." ++ method ++ "()") (.call receiver method)

namespace Reads

variable {text text' name method method' : String} {path path' : List String}
variable {rooted rooted' : Bool} {term term' : Term}

/-! ### No two readings -/

/-- The path ends where a parenthesis opens. -/
theorem paren_notMem_path (hpath : ∀ s ∈ path, IsName s.toList) :
    '(' ∉ ("::".intercalate (led rooted path)).toList :=
  notMem_intercalate (by decide) (forall_mem_led (notMem_of_names hpath rfl))

/-- Paths are told from the root or not, as none begins with an empty name. -/
theorem path_inj (hnil : path ≠ []) (hnil' : path' ≠ []) (hpath : ∀ s ∈ path, IsName s.toList)
    (hpath' : ∀ s ∈ path', IsName s.toList)
    (h : "::".intercalate (led rooted path) = "::".intercalate (led rooted' path')) :
    path = path' := by
  have hled : led rooted path = led rooted' path' :=
    (intercalate_inj (c := ':') rfl (forall_mem_led (notMem_of_names hpath rfl))
      (forall_mem_led (notMem_of_names hpath' rfl)) (led_ne_nil hnil) (led_ne_nil hnil')).mp h
  cases rooted <;> cases rooted'
  · exact hled
  · have hempty : path = "" :: path' := hled
    exact absurd rfl (ne_empty_of_isName (hpath _ (hempty ▸ List.mem_cons_self)))
  · have hempty : "" :: path = path' := hled
    exact absurd rfl (ne_empty_of_isName (hpath' _ (hempty ▸ List.mem_cons_self)))
  · exact (List.cons.inj hled).2

/-- What is read does not end where a parenthesis opens. -/
theorem exists_last (h : Reads text term) :
    ∃ front last, text.toList = front ++ [last] ∧ last ≠ '(' := by
  cases h with
  | operand hname =>
    have hnil : text.toList ≠ [] := by
      intro hnil
      rw [hnil] at hname
      exact hname
    exact ⟨_, _, (List.dropLast_append_getLast hnil).symm,
      ne_of_mem_of_not_mem (List.getLast_mem hnil) (notMem_of_isName hname rfl)⟩
  | construct hnil hpath hargument =>
    exact ⟨_, ')', by rw [String.toList_append]; rfl, by decide⟩
  | @call text _ method =>
    exact ⟨(text ++ "." ++ method).toList ++ ['('], ')', by simp, by decide⟩

/-- A construction has something in its parentheses, and a call has not. -/
theorem construct_ne_call {front : String} (h : Reads text term) :
    front ++ "(" ++ text ++ ")" ≠ text' ++ "." ++ method ++ "()" := by
  intro heq
  obtain ⟨inner, last, htext, hlast⟩ := h.exists_last
  have hends : some last = some '(' := by
    have hchars := congrArg (fun s : String => s.toList.dropLast.getLast?) heq
    simpa [String.toList_append, htext, ← List.append_assoc] using hchars
  exact hlast (Option.some.inj hends)

/-- A receiver ends at the last dot. -/
theorem call_inj (hmethod : IsName method.toList) (hmethod' : IsName method'.toList)
    (h : text ++ "." ++ method ++ "()" = text' ++ "." ++ method' ++ "()") :
    text = text' ∧ method = method' := by
  rw [String.append_left_inj] at h
  have hchars : text.toList ++ '.' :: method.toList = text'.toList ++ '.' :: method'.toList := by
    simpa using congrArg String.toList h
  obtain ⟨htext, hname⟩ := (append_cons_inj_of_last (notMem_of_isName hmethod rfl)
    (notMem_of_isName hmethod' rfl)).mp hchars
  exact ⟨String.toList_inj.mp htext, String.toList_inj.mp hname⟩

/-- A name is read as a variable only, as anything else has a parenthesis. -/
theorem eq_operand (hname : IsName text.toList) (h : Reads text term) : term = .operand text := by
  have hparen : '(' ∉ text.toList := notMem_of_isName hname rfl
  cases h with
  | operand => rfl
  | construct => exact absurd (by simp) hparen
  | call => exact absurd (by simp) hparen

/-- **A text is read in one way.** The induction is on the first reading, and the
second is compared with it form by form. -/
theorem unique (h : Reads text term) (h' : Reads text term') : term = term' := by
  induction h generalizing term' with
  | operand hname => exact (eq_operand hname h').symm
  | @construct rooted path text argument hnil hpath hargument ih =>
    generalize heq : "::".intercalate (led rooted path) ++ "(" ++ text ++ ")" = whole at h'
    cases h' with
    | operand hname =>
      exact absurd (by simp [← heq]) (notMem_of_isName hname (c := '(') rfl)
    | @construct rooted' path' text' argument' hnil' hpath' hargument' =>
      have hassoc (front inner : String) : front ++ "(" ++ inner ++ ")" =
          front ++ "(" ++ (inner ++ ")") := String.append_assoc
      rw [hassoc, hassoc, append_sep_inj (c := '(') rfl (paren_notMem_path hpath)
        (paren_notMem_path hpath'), String.append_left_inj] at heq
      obtain ⟨hpaths, rfl⟩ := heq
      rw [path_inj hnil hnil' hpath hpath' hpaths, ih hargument']
    | call => exact absurd heq hargument.construct_ne_call
  | @call text receiver method hreceiver hmethod ih =>
    generalize heq : text ++ "." ++ method ++ "()" = whole at h'
    cases h' with
    | operand hname =>
      exact absurd (by simp [← heq]) (notMem_of_isName hname (c := '(') rfl)
    | construct _ _ hargument' => exact absurd heq.symm hargument'.construct_ne_call
    | call hreceiver' hmethod' =>
      obtain ⟨rfl, rfl⟩ := call_inj hmethod hmethod' heq
      rw [ih hreceiver']

theorem iff_eq (h : Reads text term) : Reads text term' ↔ term' = term :=
  ⟨fun h' => h'.unique h, fun heq => heq ▸ h⟩

/-! ### Brackets -/

/-- **What is read is well bracketed.** -/
theorem wellBracketed (h : Reads text term) : WellBracketed text.toList := by
  have hplain {name : String} (hname : IsName name.toList) : ∀ c ∈ name.toList, IsPlain c :=
    fun _ hc => isPlain_of_isNameChar (isNameChar_of_mem hname hc)
  induction h with
  | operand hname => exact .of_plain (hplain hname)
  | @construct rooted path text _ _ hpath _ ih =>
    have hcolon : IsPlain ':' := by decide
    have hfront : ∀ c ∈ ("::".intercalate (led rooted path)).toList, IsPlain c :=
      forall_mem_intercalate (by simpa using hcolon)
        (forall_led nofun fun s hs => hplain (hpath s hs))
    have htext := WellBracketed.append (.of_plain hfront) ih.parenthesized
    simpa using htext
  | @call text _ method _ hmethod ih =>
    have hcall : WellBracketed (method.toList ++ ['(', ')']) :=
      .append (.of_plain (hplain hmethod)) (.parenthesized .nil)
    have htext := WellBracketed.append ih (.plain (c := '.') (by decide) hcall)
    simpa using htext

end Reads

end Native

end TypeBridge
