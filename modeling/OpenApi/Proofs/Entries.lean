import OpenApi.Document.Node

/-
The members of maps whose entries are put together or picked out.

A member is the value at the first entry with its key, so entries that are put behind others count
only where the others have none.
-/
namespace OpenApi.Entries

section
variable (key : String) (entries : Entries)

theorem get?_append (more : Entries) :
    get? key (entries ++ more) = (get? key entries).or (get? key more) := by
  induction entries with
  | nil => rfl
  | cons e rest ih =>
    obtain ⟨k, value⟩ := e
    rw [List.cons_append, get?, get?]
    by_cases hk : k = .str key
    · rw [if_pos hk, if_pos hk]
      rfl
    · rw [if_neg hk, if_neg hk, ih]

theorem get?_filter (p : Scalar × Node → Bool) (hp : ∀ value, p (.str key, value) = true) :
    get? key (entries.filter p) = get? key entries := by
  induction entries with
  | nil => rfl
  | cons e rest ih =>
    obtain ⟨k, value⟩ := e
    rw [get?]
    by_cases hk : k = .str key
    · subst hk
      rw [if_pos rfl, List.filter_cons_of_pos (hp value), get?, if_pos rfl]
    · rw [if_neg hk, ← ih]
      by_cases hkept : p (k, value) = true
      · rw [List.filter_cons_of_pos hkept, get?, if_neg hk]
      · rw [List.filter_cons_of_neg hkept]

theorem get?_filter_eq_none (p : Scalar × Node → Bool)
    (hp : ∀ value, p (.str key, value) = false) :
    get? key (entries.filter p) = none := by
  induction entries with
  | nil => rfl
  | cons e rest ih =>
    obtain ⟨k, value⟩ := e
    by_cases hkept : p (k, value) = true
    · have hk : k ≠ .str key := by
        rintro rfl
        rw [hp value] at hkept
        cases hkept
      rw [List.filter_cons_of_pos hkept, get?, if_neg hk, ih]
    · rw [List.filter_cons_of_neg hkept, ih]

end

section
variable {key : String} {entries : Entries}

theorem same_str_iff {k : Scalar} : k.same (.str key) = true ↔ k = .str key := by
  cases k with
  | str s =>
    show (s == key) = true ↔ _
    rw [beq_iff_eq, Scalar.str.injEq]
  | _ => exact ⟨nofun, nofun⟩

theorem get?_insert_self (value : Node) :
    get? key (insert (.str key) value entries) = some value := by
  induction entries with
  | nil => exact get?_cons_self key value []
  | cons e rest ih =>
    obtain ⟨k, found⟩ := e
    rw [insert]
    by_cases hk : k = .str key
    · rw [if_pos (same_str_iff.mpr hk), get?, if_pos hk]
    · rw [if_neg fun h => hk (same_str_iff.mp h), get?, if_neg hk, ih]

theorem get?_insert_of_ne {other : String} (h : other ≠ key) (value : Node) :
    get? other (insert (.str key) value entries) = get? other entries := by
  induction entries with
  | nil => exact if_neg fun heq => h (Scalar.str.inj heq).symm
  | cons e rest ih =>
    obtain ⟨k, found⟩ := e
    rw [insert]
    by_cases hk : k = .str key
    · have hother : ¬ k = .str other := fun heq => h (Scalar.str.inj (heq.symm.trans hk))
      rw [if_pos (same_str_iff.mpr hk), get?, get?, if_neg hother, if_neg hother]
    · rw [if_neg fun heq => hk (same_str_iff.mp heq), get?, get?, ih]

end

end OpenApi.Entries
