import Mathlib.Data.List.Nodup
import OpenApi.Client.Basic

/-
When the operations of one service have different names.

An operation whose name was met before gets the number of its earlier namesakes appended.  The count
looks at the declared names only, so a numbered name may be one that another operation declares.
Nothing else can go wrong: the names in a tidy service are distinct exactly when no numbered name is
a declared one.

Two numbered names can be the same text without being the same pair of name and number: `a` with 12
and `a1` with 2.  But then `a1` is a declared name and `a` has more than 12 namesakes, so `a` with 1
has met the declared name already.  This is `numbered_eq_numbered`, and it is where decimal numerals
enter: what is cut from the end of a numeral leaves a smaller numeral.
-/
namespace OpenApi

/-! ### Numerals -/

/-- The front of a numeral, if anything is left in it, is a numeral of a positive number that is no
greater. -/
theorem exists_toDigits_of_append {front back : List Char} {n : Nat} (hn : 0 < n)
    (hf : front ≠ []) (h : Nat.toDigits 10 n = front ++ back) :
    ∃ j, 0 < j ∧ j ≤ n ∧ front = Nat.toDigits 10 j := by
  induction n using Nat.strongRecOn generalizing back with
  | ind n ih =>
    rcases List.eq_nil_or_concat' back with rfl | ⟨rest, last, rfl⟩
    · exact ⟨n, hn, Nat.le_refl n, by rw [h, List.append_nil]⟩
    · rcases Nat.lt_or_ge n 10 with hlt | hge
      · -- A single digit has no room for both parts.
        rw [Nat.toDigits_of_lt_base hlt] at h
        have hlen := congrArg List.length h
        have hpos := List.length_pos_of_ne_nil hf
        simp only [List.length_cons, List.length_nil, List.length_append] at hlen
        omega
      · rw [Nat.toDigits_of_base_le (by decide) hge, ← List.append_assoc] at h
        have hfront := (List.append_inj' h rfl).1
        obtain ⟨j, hj, hle, rfl⟩ := ih (n / 10) (by omega) (by omega) hfront
        exact ⟨j, hj, by omega, rfl⟩

namespace Operation

/-- What is appended to a name: nothing for the first operation of that name. -/
def numberChars (number : Nat) : List Char :=
  if number = 0 then [] else Nat.toDigits 10 number

theorem toList_numbered (name : String) (number : Nat) :
    (numbered name number).toList = name.toList ++ numberChars number := by
  unfold numbered numberChars
  by_cases h : number = 0
  · rw [if_pos h, if_pos h, List.append_nil]
  · rw [if_neg h, if_neg h, String.toList_append, Nat.toString_eq_repr, Nat.toList_repr]

theorem numbered_zero (name : String) : numbered name 0 = name := rfl

theorem numberChars_inj {k l : Nat} (h : numberChars k = numberChars l) : k = l := by
  unfold numberChars at h
  by_cases hk : k = 0 <;> by_cases hl : l = 0
  · rw [hk, hl]
  · rw [if_pos hk, if_neg hl] at h
    exact absurd h.symm Nat.toDigits_ne_nil
  · rw [if_neg hk, if_pos hl] at h
    exact absurd h Nat.toDigits_ne_nil
  · rw [if_neg hk, if_neg hl] at h
    have hread := congrArg (Nat.ofDigitChars 10 · 0) h
    simpa only [Nat.ofDigitChars_ten_toDigits] using hread

/-- If a name with a number is a longer name with another number, the longer name is the shorter
one with a number that is no greater. -/
theorem numbered_of_append {name longer : String} {extra : List Char} {k l : Nat}
    (hname : longer.toList = name.toList ++ extra) (hextra : extra ≠ [])
    (hk : numberChars k = extra ++ numberChars l) :
    ∃ j, 0 < j ∧ j ≤ k ∧ longer = numbered name j := by
  have hne : k ≠ 0 := by
    rintro rfl
    exact hextra (List.append_eq_nil_iff.mp hk.symm).1
  have hdigits : Nat.toDigits 10 k = extra ++ numberChars l := by
    rw [← hk, numberChars, if_neg hne]
  obtain ⟨j, hj, hle, rfl⟩ := exists_toDigits_of_append (by omega) hextra hdigits
  refine ⟨j, hj, hle, String.toList_inj.mp ?_⟩
  rw [hname, toList_numbered, numberChars, if_neg (by omega)]

/-- Two names with numbers that are one text: either they are the same pair, or one of the two names
is the other with a number that is no greater than the other's own. -/
theorem numbered_eq_numbered {name name' : String} {k l : Nat}
    (h : numbered name k = numbered name' l) :
    (name = name' ∧ k = l) ∨ (∃ j, 0 < j ∧ j ≤ k ∧ name' = numbered name j) ∨
      ∃ j, 0 < j ∧ j ≤ l ∧ name = numbered name' j := by
  have hlists := congrArg String.toList h
  rw [toList_numbered, toList_numbered] at hlists
  rcases List.append_eq_append_iff.mp hlists with ⟨extra, hname, hk⟩ | ⟨extra, hname, hl⟩
  · by_cases hextra : extra = []
    · subst hextra
      rw [List.append_nil] at hname
      exact .inl ⟨(String.toList_inj.mp hname).symm, numberChars_inj hk⟩
    · exact .inr (.inl (numbered_of_append hname hextra hk))
  · by_cases hextra : extra = []
    · subst hextra
      rw [List.append_nil] at hname
      exact .inl ⟨String.toList_inj.mp hname, (numberChars_inj hl).symm⟩
    · exact .inr (.inr (numbered_of_append hname hextra hl))

/-! ### The numbers that a list of names is given -/

/-- Each name with the number of its earlier namesakes; `earlier` are the names so far. -/
def occurrences (earlier : List String) : List String → List (String × Nat)
  | [] => []
  | name :: rest => (name, earlier.count name) :: occurrences (name :: earlier) rest

/-- The names of tidy operations are the declared names with their numbers. -/
theorem map_name_tidyFrom (earlier : List String) (operations : List Operation) :
    (tidyFrom earlier operations).map (·.name) =
      (occurrences earlier (operations.map (·.name))).map fun o => numbered o.1 o.2 := by
  induction operations generalizing earlier with
  | nil => rfl
  | cons operation rest ih =>
    simp only [tidyFrom, List.map_cons, occurrences, ih]

/-- The numbers of a name begin after its earlier namesakes, one for each occurrence. -/
theorem mem_occurrences {name : String} {number : Nat} {earlier names : List String} :
    (name, number) ∈ occurrences earlier names ↔
      earlier.count name ≤ number ∧ number < earlier.count name + names.count name := by
  induction names generalizing earlier with
  | nil =>
    simp only [occurrences, List.not_mem_nil, List.count_nil, false_iff]
    omega
  | cons head rest ih =>
    simp only [occurrences, List.mem_cons, Prod.mk.injEq, ih]
    by_cases hh : head = name
    · subst hh
      rw [List.count_cons_self, List.count_cons_self]
      simp only [true_and]
      omega
    · have hne : ¬ name = head := fun e => hh e.symm
      rw [List.count_cons_of_ne hh, List.count_cons_of_ne hh]
      simp only [hne, false_and, false_or]

theorem nodup_occurrences (earlier names : List String) : (occurrences earlier names).Nodup := by
  induction names generalizing earlier with
  | nil => exact List.nodup_nil
  | cons name rest ih =>
    refine List.nodup_cons.mpr ⟨fun h => ?_, ih (name :: earlier)⟩
    have hlow := (mem_occurrences.mp h).1
    rw [List.count_cons_self] at hlow
    omega

/-- Names that are not numbered yet get distinct numbered names exactly when none of the numbered
names is among them. -/
theorem nodup_map_numbered_iff (names : List String) :
    ((occurrences [] names).map fun o => numbered o.1 o.2).Nodup ↔
      ∀ name number, 0 < number → number < names.count name → numbered name number ∉ names := by
  have hmem : ∀ name number, (name, number) ∈ occurrences [] names ↔ number < names.count name := by
    intro name number
    rw [mem_occurrences, List.count_nil, Nat.zero_add]
    exact ⟨And.right, fun h => ⟨Nat.zero_le _, h⟩⟩
  rw [List.nodup_map_iff_inj_on (nodup_occurrences [] names)]
  constructor
  · intro hinj name number hpos hlt hdeclared
    have hfirst : (numbered name number, 0) ∈ occurrences [] names :=
      (hmem _ _).mpr (List.count_pos_iff.mpr hdeclared)
    have hsame := hinj _ ((hmem name number).mpr hlt) _ hfirst (numbered_zero _).symm
    exact absurd (congrArg Prod.snd hsame) (Nat.ne_of_gt hpos)
  · intro hfree ⟨name, k⟩ hk ⟨name', l⟩ hl h
    rw [hmem] at hk hl
    have hdeclared : name ∈ names := List.count_pos_iff.mp (by omega)
    have hdeclared' : name' ∈ names := List.count_pos_iff.mp (by omega)
    rcases numbered_eq_numbered h with ⟨hname, hnumber⟩ | ⟨j, hj, hle, rfl⟩ | ⟨j, hj, hle, rfl⟩
    · exact Prod.ext hname hnumber
    · exact absurd hdeclared' (hfree name j hj (by omega))
    · exact absurd hdeclared (hfree name' j hj (by omega))

/-- Whether no operation declares a name that numbering gives to another one. -/
def KeptApart (operations : List Operation) : Prop :=
  ∀ name number, 0 < number → number < (operations.map (·.name)).count name →
    numbered name number ∉ operations.map (·.name)

/-- The operations of a tidy service have different names exactly when no numbered name is
declared. -/
theorem nodup_names_tidyAll_iff (operations : List Operation) :
    ((tidyAll operations).map (·.name)).Nodup ↔ KeptApart operations := by
  rw [tidyAll, map_name_tidyFrom]
  exact nodup_map_numbered_iff _

/-- The second `list` is numbered, and its name is declared by the third operation. -/
theorem not_nodup_names_of_declared_number :
    ¬ ((tidyAll (["list", "list", "list1"].map fun name =>
      { service := "Pets", name := name, method := "GET", path := "/" })).map (·.name)).Nodup := by
  decide

end Operation
end OpenApi
