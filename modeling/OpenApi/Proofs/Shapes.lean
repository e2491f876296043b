import OpenApi.Schema.Shape

/-
The kinds of models, told from the keywords of their schemas.

The keywords of compositions are looked at in one order, and each stands for a kind of its own.  A
schema becomes an enumeration for the members that it lists or describes, and for nothing else
(`kind_eq_enumeration_iff`).
-/
namespace OpenApi.Schema

/-- The keywords of compositions. -/
def compositions : List (String × ModelKind) :=
  [("oneOf", .oneOf), ("anyOf", .anyOf), ("allOf", .allOf)]

section
variable {schema : Node} {kind : ModelKind} {members : List Node}

theorem composed?_eq_some_iff {keyword : String} {kind kind' : ModelKind} :
    composed? schema keyword kind = some (kind', members) ↔
      kind = kind' ∧ members ≠ [] ∧ schema.get? keyword = some (.list members) := by
  unfold composed?
  split
  · rename_i x xs hfound
    rw [hfound]
    constructor
    · intro h
      cases h
      exact ⟨rfl, List.cons_ne_nil _ _, rfl⟩
    · rintro ⟨rfl, -, h⟩
      cases h
      rfl
  · rename_i hother
    constructor
    · intro h
      cases h
    · rintro ⟨-, hne, h⟩
      cases members with
      | nil => exact absurd rfl hne
      | cons x xs => exact absurd h (hother x xs)

theorem exists_keyword_of_composition? (h : composition? schema = some (kind, members)) :
    ∃ keyword, (keyword, kind) ∈ compositions ∧ schema.get? keyword = some (.list members) := by
  unfold composition? at h
  simp only [Option.or_eq_some_iff, composed?_eq_some_iff] at h
  rcases h with ⟨rfl, _, h⟩ | ⟨_, ⟨rfl, _, h⟩ | ⟨_, rfl, _, h⟩⟩
  · exact ⟨"oneOf", by decide, h⟩
  · exact ⟨"anyOf", by decide, h⟩
  · exact ⟨"allOf", by decide, h⟩

theorem kind_ne_of_composition? {other : ModelKind} (h : composition? schema = some (kind, members))
    (hother : ∀ e ∈ compositions, e.2 ≠ other) : kind ≠ other := by
  obtain ⟨keyword, hkeyword, _⟩ := exists_keyword_of_composition? h
  exact hother _ hkeyword

end

/-- No part of a schema makes it an enumeration. -/
theorem kind_structure?_ne (schema : Node) :
    ((structure? schema).getD .unknown).kind ≠ .enumeration := by
  unfold structure?
  cases arrayItems? schema with
  | some items => exact nofun
  | none =>
    cases dictionaryValues? schema with
    | some values => exact nofun
    | none =>
      cases hcomposed : composition? schema with
      | some composed =>
        exact kind_ne_of_composition? hcomposed (by decide)
      | none =>
        cases isRecord schema with
        | true => exact nofun
        | false =>
          cases schema.get? "type" with
          | some type => exact nofun
          | none => exact nofun

theorem kind_eq_enumeration_iff {schema : Node} {found : Shape} (h : shape schema = .ok found) :
    found.kind = .enumeration ↔ schema.get? "$ref" = none ∧
      (listedMembers schema ≠ .ok [] ∨ describedMembers schema ≠ .ok []) := by
  cases told_of_shape h with
  | referenced href hfound =>
    subst hfound
    exact ⟨nofun, fun hnone => nomatch href.symm.trans hnone.1⟩
  | listed href hlisted hfound =>
    subst hfound
    rw [hlisted]
    exact ⟨fun _ => ⟨href, .inl nofun⟩, fun _ => rfl⟩
  | described href _ hdescribed hfound =>
    subst hfound
    rw [hdescribed]
    exact ⟨fun _ => ⟨href, .inr nofun⟩, fun _ => rfl⟩
  | structured _ hlisted hdescribed hfound =>
    subst hfound
    refine ⟨fun hkind => absurd hkind (kind_structure?_ne schema), ?_⟩
    rintro ⟨_, hne | hne⟩
    · exact absurd hlisted hne
    · exact absurd hdescribed hne

end OpenApi.Schema
