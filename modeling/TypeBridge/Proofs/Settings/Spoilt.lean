import TypeBridge.Settings.Load
/-!
# TypeBridge — configurations without a report

A configuration that is no JSON text is reported, and so is a base namespace
that is no single name. What is left are texts that JSON can be read from, and
still no settings: `Spoilt` says which, and `load_eq_error_iff` that there are
no others.
-/

namespace TypeBridge

namespace Settings

variable {file text : String} {error : SettingsError} {members : List (String × Json)}

/-- The text of a configuration that makes no settings and is not reported. -/
inductive Spoilt (text : List Char) : SettingsError → Prop
  | longInteger {digits : Nat} {rest : List Char} :
      Json.ofText text = .error ⟨.longInteger digits, rest⟩ → Spoilt text (.longInteger digits)
  | noObject {value : Json} : Json.ofText text = .ok value →
      (∀ members, value ≠ .object members) → Spoilt text .noObject
  | noBaseNamespace {members : List (String × Json)} : Json.ofText text = .ok (.object members) →
      members.lookup "base_namespace" = some .null → Spoilt text .noBaseNamespace

theorem Spoilt.isReported {text : List Char} (h : Spoilt text error) :
    error.isReported = false := by
  cases h <;> rfl

/-- A member with a default is lacking only if it is null. -/
theorem member_eq_none_iff (key default : String) :
    member members key (some default) = none ↔ members.lookup key = some .null := by
  rw [member]
  rcases members.lookup key with _ | value
  · simp
  · cases value <;> simp [Json.text?]

/-- A namespace that is given is at fault only as a path, which is reported. -/
theorem rebase_ne_error {settings : Settings} {baseNamespace : String}
    (hunreported : error.isReported = false) : settings.rebase baseNamespace ≠ .error error := by
  rw [rebase]
  rcases settings.withBase? baseNamespace with _ | settings
  · intro h
    cases h
    cases hunreported
  · nofun

theorem ofMembers_eq_error_iff (hunreported : error.isReported = false) :
    ofMembers members = .error error ↔
      error = .noBaseNamespace ∧ members.lookup "base_namespace" = some .null := by
  rw [← member_eq_none_iff "base_namespace" standard.baseNamespace, ofMembers]
  rcases member members "base_namespace" (some standard.baseNamespace) with _ | baseNamespace
  · simp [eq_comm]
  · simp [rebase_ne_error hunreported]

/-- **What spoils a configuration** without a report. -/
theorem load_eq_error_iff (hunreported : error.isReported = false) :
    load file text = .error error ↔ Spoilt (Text.unifyNewlines text.toList) error := by
  constructor
  · intro h
    rw [load] at h
    rcases hjson : Json.ofText (Text.unifyNewlines text.toList) with ⟨problem, rest⟩ | value <;>
      rw [hjson] at h
    · cases problem with
      | longInteger digits =>
        obtain rfl := Except.error.inj h
        exact .longInteger hjson
      | _ => cases h; cases hunreported
    · cases value with
      | object members =>
        obtain ⟨rfl, hnull⟩ := (ofMembers_eq_error_iff hunreported).mp h
        exact .noBaseNamespace hjson hnull
      | _ => cases h; exact .noObject hjson nofun
  · intro h
    rw [load]
    cases h with
    | longInteger hjson => rw [hjson]
    | noObject hjson hnot =>
      rw [hjson]
      split
      · rename_i heq
        cases heq
      · rename_i heq
        cases heq
      · rename_i members heq
        exact absurd (Except.ok.inj heq) (hnot members)
      · rfl
    | noBaseNamespace hjson hnull =>
      rw [hjson]
      exact (ofMembers_eq_error_iff rfl).mpr ⟨rfl, hnull⟩

end Settings

end TypeBridge
