import OpenApi.Operation.Content
import OpenApi.Proofs.Except
import Mathlib.Data.ENat.Basic

/-
The content that is selected.

A body may come in several media types, and one of them is selected.  The preferences rank the media
types: the one that stands first among them is the best, and all that do not occur among them are
alike the worst.  The theorem this file exists for is `select_best`: what is selected is the first
of the best that hold a schema, and something is selected as soon as one of them does.  Entries
without a schema never stand in the way, whatever their rank.

The preferences are gone through one by one, and with each of them the whole content map.  The
induction is on the preferences: the first one either decides, or is of no use to any of the media
types, and then the ranks of all of them go up by one.
-/
namespace OpenApi.Content

/-! ### The rank of a media type -/

section
variable {preferred : List String} {first mediaType : String}

/-- The place of a media type among the preferences, infinite if it has none. -/
def rank (preferred : List String) (mediaType : String) : ℕ∞ :=
  match preferred.idxOf? (baseType mediaType) with
  | some place => place
  | none => ⊤

theorem rank_cons_of_eq (h : baseType mediaType = first) :
    rank (first :: preferred) mediaType = 0 := by
  rw [rank, List.idxOf?_cons, h, if_pos (beq_self_eq_true first)]
  rfl

theorem rank_cons_of_ne (h : baseType mediaType ≠ first) :
    rank (first :: preferred) mediaType = rank preferred mediaType + 1 := by
  have apart : ¬ (first == baseType mediaType) = true := fun heq => h (beq_iff_eq.mp heq).symm
  rw [rank, List.idxOf?_cons, if_neg apart, rank]
  cases preferred.idxOf? (baseType mediaType) <;> rfl

end

/-! ### Choosing among media types with a schema -/

/-- The first media type that the first preference of use to any of them names; without such a
preference, the first media type. -/
def choose? (preferred : List String) (choices : List (String × Node)) : Option (String × Node) :=
  (preferred.findSome? fun wanted =>
    choices.find? fun (mediaType, _) => baseType mediaType == wanted).or choices.head?

theorem choose?_eq_none_iff {preferred : List String} {choices : List (String × Node)} :
    choose? preferred choices = none ↔ choices = [] := by
  rw [choose?, Option.or_eq_none_iff, List.head?_eq_none_iff]
  constructor
  · exact And.right
  · rintro rfl
    exact ⟨List.findSome?_eq_none_iff.mpr fun _ _ => rfl, rfl⟩

/-- What is chosen is better than all before it and no worse than what comes behind it. -/
theorem exists_split_of_choose? {preferred : List String} {choices : List (String × Node)}
    {choice : String × Node} (h : choose? preferred choices = some choice) :
    ∃ before after, choices = before ++ choice :: after ∧
      (∀ other ∈ before, rank preferred choice.1 < rank preferred other.1) ∧
      ∀ other ∈ after, rank preferred choice.1 ≤ rank preferred other.1 := by
  induction preferred with
  | nil =>
    obtain ⟨after, rfl⟩ := List.head?_eq_some_iff.mp h
    exact ⟨[], after, rfl, nofun, fun other _ => le_top⟩
  | cons first preferred ih =>
    rw [choose?, List.findSome?_cons] at h
    cases hfirst : choices.find? fun (mediaType, _) => baseType mediaType == first with
    | some decided =>
      rw [hfirst] at h
      cases h
      obtain ⟨hchoice, before, after, hsplit, hbefore⟩ := List.find?_eq_some_iff_append.mp hfirst
      rw [rank_cons_of_eq (beq_iff_eq.mp hchoice)]
      refine ⟨before, after, hsplit, fun other hother => ?_, fun other _ => zero_le⟩
      have hne : baseType other.1 ≠ first := by simpa using hbefore other hother
      rw [rank_cons_of_ne hne]
      exact lt_of_lt_of_le one_pos le_add_self
    | none =>
      rw [hfirst] at h
      have hrank : ∀ other ∈ choices,
          rank (first :: preferred) other.1 = rank preferred other.1 + 1 := by
        intro other hother
        have hne := List.find?_eq_none.mp hfirst other hother
        exact rank_cons_of_ne fun heq => hne (beq_iff_eq.mpr heq)
      obtain ⟨before, after, rfl, hbefore, hafter⟩ := ih h
      have hsame := hrank choice (List.mem_append_right _ List.mem_cons_self)
      refine ⟨before, after, rfl, fun other hother => ?_, fun other hother => ?_⟩
      · rw [hsame, hrank other (List.mem_append_left _ hother)]
        exact (ENat.add_lt_add_iff_right ENat.one_ne_top).mpr (hbefore other hother)
      · rw [hsame, hrank other (List.mem_append_right _ (List.mem_cons_of_mem _ hother))]
        exact add_le_add_left (hafter other hother) 1

/-! ### The entries of a content map -/

section
variable {entry : Scalar × Node} {entries : Entries} {mediaType : String} {schema : Node}

/-- Whether an entry of a content map holds a schema. -/
def HoldsSchema (entry : Scalar × Node) (schema : Node) : Prop :=
  entry.2.get? "schema" = some schema ∧ schema.isMap = true

/-- Whether an entry of a content map holds a schema for a media type. -/
def Offers (entry : Scalar × Node) (mediaType : String) (schema : Node) : Prop :=
  entry.1.written = .ok mediaType ∧ HoldsSchema entry schema

/-- Whether a media type with its schema is the first of the best in a content map: better than all
that is held before it, and no worse than what comes behind it. -/
def IsBest (preferred : List String) (entries : Entries) (mediaType : String) (schema : Node) :
    Prop :=
  ∃ before entry after, entries = before ++ entry :: after ∧ Offers entry mediaType schema ∧
    (∀ other ∈ before, ∀ mediaType' schema', Offers other mediaType' schema' →
      rank preferred mediaType < rank preferred mediaType') ∧
    ∀ other ∈ after, ∀ mediaType' schema', Offers other mediaType' schema' →
      rank preferred mediaType ≤ rank preferred mediaType'

theorem filter_isMap_eq_some_iff :
    (entry.2.get? "schema").filter Node.isMap = some schema ↔ HoldsSchema entry schema :=
  Option.filter_eq_some_iff

theorem choice?_eq_ok_some_iff :
    choice? entry = .ok (some (mediaType, schema)) ↔ Offers entry mediaType schema := by
  rw [choice?, Offers, ← filter_isMap_eq_some_iff]
  cases (entry.2.get? "schema").filter Node.isMap with
  | none => exact ⟨nofun, nofun⟩
  | some found => simp [Except.map_eq_ok_iff]

theorem choice?_eq_ok_none_iff :
    choice? entry = .ok none ↔ ∀ schema, ¬ HoldsSchema entry schema := by
  simp only [choice?, ← filter_isMap_eq_some_iff]
  cases (entry.2.get? "schema").filter Node.isMap with
  | none => exact ⟨nofun, fun _ => rfl⟩
  | some found => simp [Except.map_eq_ok_iff]

theorem exists_choice?_iff : (∃ choice, choice? entry = .ok choice) ↔
    ∀ schema, HoldsSchema entry schema → ∃ mediaType, entry.1.written = .ok mediaType := by
  simp only [choice?, ← filter_isMap_eq_some_iff]
  cases (entry.2.get? "schema").filter Node.isMap with
  | none => exact ⟨nofun, fun _ => ⟨none, rfl⟩⟩
  | some found => simp [Except.exists_map_iff]

/-- What an entry offers, if its key has a text. -/
theorem join_choice?_eq_some_iff :
    (choice? entry).toOption.join = some (mediaType, schema) ↔ Offers entry mediaType schema := by
  rw [← choice?_eq_ok_some_iff]
  cases choice? entry with
  | ok choice => simp [Except.toOption]
  | error failure => exact ⟨nofun, nofun⟩

variable {preferences : Preferences} {preferred : List String}

theorem exists_choices {choice : Option (String × Node)}
    (h : select preferences (.map entries) = .ok choice) :
    ∃ found, entries.mapM choice? = .ok found ∧
      choose? preferences.mediaTypes (found.filterMap id) = choice := by
  obtain ⟨choices, hchoices, h⟩ := Except.bind_eq_ok_iff.mp h
  obtain ⟨found, hfound, rfl⟩ := Except.map_eq_ok_iff.mp hchoices
  exact ⟨found, hfound, Except.pure_eq_ok_iff.mp h⟩

theorem isBest_of_select
    (h : select preferences (.map entries) = .ok (some (mediaType, schema))) :
    IsBest preferences.mediaTypes entries mediaType schema := by
  obtain ⟨found, hfound, hchosen⟩ := exists_choices h
  rw [Except.filterMap_of_mapM hfound] at hchosen
  obtain ⟨before, after, hsplit, hbefore, hafter⟩ := exists_split_of_choose? hchosen
  obtain ⟨front, back, rfl, rfl, hback⟩ := List.filterMap_eq_append_iff.mp hsplit
  obtain ⟨skipped, entry, rest, rfl, hskipped, hentry, rfl⟩ := List.filterMap_eq_cons_iff.mp hback
  refine ⟨front ++ skipped, entry, rest, by rw [List.append_assoc],
    join_choice?_eq_some_iff.mp hentry, fun other hother mediaType' schema' offers => ?_,
    fun other hother mediaType' schema' offers => ?_⟩
  · have hother' := join_choice?_eq_some_iff.mpr offers
    obtain hfront | hskip := List.mem_append.mp hother
    · exact hbefore (mediaType', schema') (List.mem_filterMap.mpr ⟨other, hfront, hother'⟩)
    · rw [hskipped other hskip] at hother'
      cases hother'
  · have hother' := join_choice?_eq_some_iff.mpr offers
    exact hafter (mediaType', schema') (List.mem_filterMap.mpr ⟨other, hother, hother'⟩)

theorem select_eq_none_iff : select preferences (.map entries) = .ok none ↔
    ∀ entry ∈ entries, ∀ schema, ¬ HoldsSchema entry schema := by
  constructor
  · intro h entry hentry
    obtain ⟨found, hfound, hchosen⟩ := exists_choices h
    obtain ⟨choice, hmem, hchoice⟩ := Except.exists_result_of_mapM hfound hentry
    have hnone := List.filterMap_eq_nil_iff.mp (choose?_eq_none_iff.mp hchosen) choice hmem
    rw [show choice = none from hnone] at hchoice
    exact choice?_eq_ok_none_iff.mp hchoice
  · intro h
    have hfound : entries.mapM choice? = .ok (entries.map fun _ => none) :=
      Except.mapM_eq_ok_map fun entry hentry => choice?_eq_ok_none_iff.mpr (h entry hentry)
    have hchoices : withSchema (.map entries) = .ok [] := by
      rw [withSchema, hfound]
      exact congrArg Except.ok (List.filterMap_eq_nil_iff.mpr (by simp))
    have hchosen : choose? preferences.mediaTypes [] = none := choose?_eq_none_iff.mpr rfl
    rw [select, hchoices]
    exact congrArg Except.ok hchosen

theorem exists_select_iff : (∃ choice, select preferences (.map entries) = .ok choice) ↔
    ∀ entry ∈ entries, ∀ schema, HoldsSchema entry schema →
      ∃ mediaType, entry.1.written = .ok mediaType := by
  constructor
  · rintro ⟨choice, h⟩ entry hentry
    obtain ⟨found, hfound, -⟩ := exists_choices h
    exact exists_choice?_iff.mp (Except.exists_of_mapM hfound hentry)
  · intro h
    obtain ⟨found, hfound⟩ :=
      Except.exists_mapM fun entry hentry => exists_choice?_iff.mpr (h entry hentry)
    refine ⟨choose? preferences.mediaTypes (found.filterMap id), ?_⟩
    rw [select, withSchema, hfound]
    rfl

/-- What is selected is the first of the best; nothing is selected just if there is no schema, and
there is always a choice unless a key of one that holds a schema has no text. -/
theorem select_best (preferences : Preferences) (entries : Entries) :
    (∀ mediaType schema, select preferences (.map entries) = .ok (some (mediaType, schema)) →
      IsBest preferences.mediaTypes entries mediaType schema) ∧
    (select preferences (.map entries) = .ok none ↔
      ∀ entry ∈ entries, ∀ schema, ¬ HoldsSchema entry schema) ∧
    ((∃ choice, select preferences (.map entries) = .ok choice) ↔
      ∀ entry ∈ entries, ∀ schema, HoldsSchema entry schema →
        ∃ mediaType, entry.1.written = .ok mediaType) :=
  ⟨fun _ _ => isBest_of_select, select_eq_none_iff, exists_select_iff⟩

end

end OpenApi.Content
