import OpenApi.Loading
import OpenApi.Proofs.Enumerators
import OpenApi.Schema.Keywords

/-
Values that cannot be written, as defaults and as members of enumerations.

A default that has no text is left out; only an integer with too many digits is a failure
(`exists_literalOf_iff`).  A member is made of the text of its value, and a value that has none is a
failure whatever its kind (`exists_ofValues_singleton_iff`).  So neither fails just if the value has
a text with sorted members, and in YAML there are values that have none.
-/
namespace OpenApi

/-! ### Defaults -/

namespace Schema

/-- Whether a value is an integer with too many digits. -/
def IsLongInt (v : Node) : Prop := ∃ n, v = .int n ∧ Number.isLong n = true

theorem isLongInt_int_iff {n : Int} : IsLongInt (.int n) ↔ Number.isLong n = true := by
  constructor
  · intro ⟨m, heq, h⟩
    cases heq
    exact h
  · exact fun h => ⟨n, rfl, h⟩

theorem not_isLongInt_of_hasText {style : Json.Style} {v : Node} (h : Json.HasText style v) :
    ¬ IsLongInt v := by
  rintro ⟨n, rfl, hlong⟩
  rw [Json.hasText_int_iff, hlong] at h
  cases h

theorem intLiteral_nil (n : Int) :
    intLiteral [] n = Failure.orTooLong (Number.literal? (.int n)) := by
  rw [intLiteral, List.getElem?_nil, ite_self]

theorem exists_orTooLong_iff {text : Option String} :
    (∃ literal, (Failure.orTooLong text).map some = .ok literal) ↔ ∃ s, text = some s := by
  rw [Except.exists_map_iff]
  cases text with
  | none => exact ⟨nofun, nofun⟩
  | some s => exact ⟨fun _ => ⟨s, rfl⟩, fun _ => ⟨s, rfl⟩⟩

/-- Outside of enumerations the only default without a literal is an integer that is too long. -/
theorem exists_literalOf_iff {v : Node} :
    (∃ literal, literalOf [] v = .ok literal) ↔ ¬ IsLongInt v := by
  cases v with
  | scalar s =>
    cases s with
    | int n =>
      rw [literalOf, intLiteral_nil, exists_orTooLong_iff, Number.exists_literal?_int_iff,
        isLongInt_int_iff, Bool.not_eq_true]
    | float x =>
      rw [literalOf, exists_orTooLong_iff]
      exact ⟨fun _ => nofun, fun _ => Number.exists_literal?_float x⟩
    | _ => exact ⟨fun _ => nofun, fun _ => ⟨_, rfl⟩⟩
  | _ => exact ⟨fun _ => nofun, fun _ => ⟨_, rfl⟩⟩

theorem exists_render?_iff {style : Json.Style} {v : Node} :
    (∃ text, Json.render? style v = some text) ↔ Json.HasText style v := by
  rw [← Json.exists_render_iff_hasText, Json.render?]
  cases Json.render style v with
  | error cause => exact ⟨nofun, nofun⟩
  | ok text => exact ⟨fun _ => ⟨text, rfl⟩, fun _ => ⟨text, rfl⟩⟩

theorem render?_eq_none {style : Json.Style} {v : Node} (h : ¬ Json.HasText style v) :
    Json.render? style v = none := by
  rw [← exists_render?_iff] at h
  rw [Option.eq_none_iff_forall_ne_some]
  exact fun text heq => h ⟨text, heq⟩

theorem exists_some_literalOf {v : Node} (h : Json.HasText literalStyle v)
    (single : ∀ x y, v ≠ .pair x y) : ∃ text, literalOf [] v = .ok (some text) := by
  cases v with
  | scalar s =>
    cases s with
    | int n =>
      obtain ⟨text, htext⟩ := Number.exists_literal?_int_iff.mpr (Json.hasText_int_iff.mp h)
      exact ⟨text, by rw [literalOf, intLiteral_nil, htext]; rfl⟩
    | float x =>
      obtain ⟨text, htext⟩ := Number.exists_literal?_float x
      exact ⟨text, by rw [literalOf, htext]; rfl⟩
    | moment | bytes => cases Json.hasText_scalar_iff.mp h
    | _ => exact ⟨_, rfl⟩
  | list items =>
    obtain ⟨text, htext⟩ := exists_render?_iff.mpr h
    exact ⟨text, by rw [literalOf, htext]⟩
  | map entries =>
    obtain ⟨text, htext⟩ := exists_render?_iff.mpr h
    exact ⟨text, by rw [literalOf, htext]⟩
  | pair x y => exact absurd rfl (single x y)
  | set | endless => cases h

theorem literalOf_eq_none {v : Node} (h : ¬ Json.HasText literalStyle v) (short : ¬ IsLongInt v) :
    literalOf [] v = .ok none := by
  cases v with
  | scalar s =>
    cases s with
    | int n =>
      rw [Json.hasText_int_iff, Bool.not_eq_false, ← isLongInt_int_iff] at h
      exact absurd h short
    | moment | bytes => rfl
    | _ => exact absurd (.scalar rfl) h
  | list items => rw [literalOf, render?_eq_none h]
  | map entries => rw [literalOf, render?_eq_none h]
  | _ => rfl

/-- A default is left out just if it has no text.  Entries that are items of a list are the
exception: they have texts as parts of lists, but no literals of their own. -/
theorem literalOf_eq_none_iff {v : Node} : literalOf [] v = .ok none ↔
    ¬ IsLongInt v ∧ (¬ Json.HasText literalStyle v ∨ ∃ x y, v = .pair x y) := by
  constructor
  · intro hnone
    refine ⟨exists_literalOf_iff.mp ⟨none, hnone⟩, ?_⟩
    by_contra hkept
    rw [not_or, not_not] at hkept
    obtain ⟨text, hsome⟩ := exists_some_literalOf hkept.1 fun x y heq => hkept.2 ⟨x, y, heq⟩
    cases hnone.symm.trans hsome
  · rintro ⟨short, hdropped | ⟨x, y, rfl⟩⟩
    · exact literalOf_eq_none hdropped short
    · rfl

/-! ### Both -/

/-- A schema that has a default and nothing else. -/
def withOnlyDefault (v : Node) : Node := .map [(.str "default", v)]

theorem defaultLiteral_withOnlyDefault (v : Node) :
    defaultLiteral (withOnlyDefault v) none = literalOf [] v := rfl

/-- As a default, a value fails only if it is an integer that is too long, and is left out where it
has no text; neither the default nor the members for it fail just if it has a text with sorted
members. -/
theorem both_ok_iff_hasText (v : Node) :
    ((∃ literal, defaultLiteral (withOnlyDefault v) none = .ok literal) ∧
        (∃ members, Enumerator.ofValues (.list [v]) = .ok members) ↔
      Json.HasText .sortedLine v) ∧
    ((∃ literal, defaultLiteral (withOnlyDefault v) none = .ok literal) ↔ ¬ IsLongInt v) ∧
    (defaultLiteral (withOnlyDefault v) none = .ok none ↔
      ¬ IsLongInt v ∧ (¬ Json.HasText literalStyle v ∨ ∃ x y, v = .pair x y)) := by
  rw [defaultLiteral_withOnlyDefault, exists_literalOf_iff, literalOf_eq_none_iff,
    Enumerator.exists_ofValues_singleton_iff]
  exact ⟨⟨fun h => h.2, fun h => ⟨not_isLongInt_of_hasText h, h⟩⟩, .rfl, .rfl⟩

def datedText : List Char := "since: 2020-01-01".toList

theorem exists_date : ∃ document date, readDocument (some .yaml) datedText = .ok document ∧
    document.get? "since" = some date ∧ date.kind = .date := by
  have hread : ((readDocument (some .yaml) datedText).toOption.map (·.get? "since")).map
      (·.map Node.kind) = some (some .date) := by decide +kernel
  obtain ⟨found, hfound, hkind⟩ := Option.map_eq_some_iff.mp hread
  obtain ⟨document, hdocument, hget⟩ := Except.exists_of_toOption_map hfound
  obtain ⟨date, hdate, hkind⟩ := Option.map_eq_some_iff.mp hkind
  exact ⟨document, date, hdocument, hget.trans hdate, hkind⟩

theorem not_hasText_of_date {style : Json.Style} {v : Node} (h : v.kind = .date) :
    ¬ Json.HasText style v := by
  intro htext
  cases htext with
  | @scalar s written =>
    cases s with
    | moment m => cases written
    | _ => cases h
  | list _ => cases h
  | map _ _ _ => cases h
  | pair _ _ => cases h

/-- Dates are left out as defaults, but not as values of an enumeration. -/
theorem not_both_ok_of_date :
    ¬ ∀ (format : Option Format) (text : List Char) (document v : Node),
      readDocument format text = .ok document → v.OccursIn document →
        (∃ literal, defaultLiteral (withOnlyDefault v) none = .ok literal) ∧
          ∃ members, Enumerator.ofValues (.list [v]) = .ok members := by
  intro h
  obtain ⟨document, date, hread, hget, hkind⟩ := exists_date
  obtain ⟨_, members, hmembers⟩ := h _ _ _ _ hread (Node.occursIn_of_get? hget)
  have htext := Enumerator.exists_ofValues_singleton_iff.mp ⟨members, hmembers⟩
  exact not_hasText_of_date hkind htext

end Schema
end OpenApi
