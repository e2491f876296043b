import Mathlib.Data.List.Perm.Subperm
import OpenApi.Proofs.JsonTexts
import OpenApi.Proofs.JsonValues

/-
Values that are equal without being the same.

Numbers are equal whatever their notation, truth values count as one and zero, and maps are equal
whatever the order of their entries.  So equal values may have different texts: `[1]`, `[1.0]` and
`[true]` are equal.  What they do have in common is that none of them holds an integer too long to
be written if one of them holds none (`intsFit_of_same`), and equal numbers of one kind have one
literal (`literal?_eq_of_equals`).
-/
namespace OpenApi

/-! ### Doubles -/

namespace Double

/-- Of two representations of one value, the one with the greater exponent has the smaller
mantissa, but a mantissa is small only at the smallest exponent. -/
theorem Canonical.not_lt {m n : Nat} {e f : Int} (hm : Canonical m e) (hn : Canonical n f)
    (h : m * 2 ^ e.toNat * 2 ^ (-f).toNat = n * 2 ^ f.toNat * 2 ^ (-e).toNat) : ¬ e < f := by
  intro hlt
  obtain ⟨hsize, hleast, _⟩ := hm
  obtain ⟨_, _, _, hfull⟩ := hn
  have hn : leastFull ≤ n := hfull.resolve_right (by omega)
  obtain ⟨k, hk⟩ : ∃ k, (f - e).toNat = k + 1 := ⟨(f - e).toNat - 1, by omega⟩
  have hexponents : f.toNat + (-e).toNat = (e.toNat + (-f).toNat) + (k + 1) := by omega
  have heq : m * 2 ^ (e.toNat + (-f).toNat) = n * 2 ^ (k + 1) * 2 ^ (e.toNat + (-f).toNat) := by
    calc m * 2 ^ (e.toNat + (-f).toNat)
        = m * 2 ^ e.toNat * 2 ^ (-f).toNat := by rw [Nat.pow_add, Nat.mul_assoc]
      _ = n * 2 ^ (f.toNat + (-e).toNat) := by rw [h, Nat.pow_add, Nat.mul_assoc]
      _ = n * 2 ^ (k + 1) * 2 ^ (e.toNat + (-f).toNat) := by
        rw [hexponents, Nat.pow_add _ _ (k + 1), Nat.mul_assoc, Nat.mul_comm (2 ^ (k + 1))]
  have hm : m = n * 2 ^ (k + 1) := Nat.eq_of_mul_eq_mul_right (Nat.two_pow_pos _) heq
  have htwo : 2 ≤ 2 ^ (k + 1) := by
    rw [Nat.pow_succ]
    have := Nat.two_pow_pos k
    omega
  have := Nat.mul_le_mul hn htwo
  omega

/-- A value has one representation. -/
theorem Canonical.unique {m n : Nat} {e f : Int} (hm : Canonical m e) (hn : Canonical n f)
    (h : m * 2 ^ e.toNat * 2 ^ (-f).toNat = n * 2 ^ f.toNat * 2 ^ (-e).toNat) :
    m = n ∧ e = f := by
  obtain rfl : e = f := by
    have := hm.not_lt hn h
    have := hn.not_lt hm h.symm
    omega
  rw [Nat.mul_assoc, Nat.mul_assoc] at h
  have hpos : 0 < 2 ^ e.toNat * 2 ^ (-e).toNat :=
    Nat.mul_pos (Nat.two_pow_pos _) (Nat.two_pow_pos _)
  exact ⟨Nat.eq_of_mul_eq_mul_right hpos h, rfl⟩

theorem toInt?_of_quotient? {x : Double} {n : Int} {den : Nat} (hden : 0 < den)
    (h : x.quotient? = some (n * den, den)) : x.toInt? = some n := by
  rw [toInt?, h]
  dsimp only
  rw [if_pos (Int.mul_emod_left n den), Int.mul_ediv_cancel n (Int.natCast_ne_zero.mpr hden.ne')]

theorem toInt?_of_equalsInt {x : Double} {n : Int} (h : x.equalsInt n = true) :
    x.toInt? = some n := by
  cases x with
  | finite negative mantissa exponent canonical =>
    rw [equalsInt, beq_iff_eq, compareInt?, quotient?, Option.map_some, Option.some.injEq,
      compare_eq_iff_eq] at h
    exact toInt?_of_quotient? (Nat.two_pow_pos _) (by rw [quotient?, h]; rfl)
  | nan => cases h
  | infinite negative => cases negative <;> cases h

theorem toInt?_zero (negative : Bool) {exponent : Int} (canonical : Canonical 0 exponent) :
    (finite negative 0 exponent canonical).toInt? = some 0 := by
  refine toInt?_of_quotient? (Nat.two_pow_pos (-exponent).toNat) ?_
  rw [quotient?, Int.zero_mul, Nat.zero_mul, Int.natCast_zero, Int.neg_zero, ite_self]
  rfl

theorem natAbs_signed_mul (negative : Bool) (size scale : Nat) :
    ((if negative then -(size : Int) else size) * (scale : Int)).natAbs = size * scale := by
  rw [Int.natAbs_mul, Int.natAbs_natCast]
  cases negative with
  | true => rw [if_pos rfl, Int.natAbs_neg, Int.natAbs_natCast]
  | false => rfl

theorem eq_of_signed_mul_eq {negative negative' : Bool} {size scale : Nat} (h : 0 < size * scale)
    (heq : (if negative then -(size : Int) else size) * (scale : Int) =
      (if negative' then -(size : Int) else size) * (scale : Int)) : negative = negative' := by
  have hpos : (0 : Int) < size * scale := by exact_mod_cast h
  cases negative <;> cases negative'
  · rfl
  · rw [if_pos rfl, if_neg Bool.false_ne_true, Int.neg_mul] at heq
    omega
  · rw [if_pos rfl, if_neg Bool.false_ne_true, Int.neg_mul] at heq
    omega
  · rfl

/-- Equal doubles are the same, zeros apart. -/
theorem eq_or_zero_of_equals {x y : Double} (h : x.equals y = true) :
    x = y ∨ x.toInt? = some 0 ∧ y.toInt? = some 0 := by
  rw [equals, beq_iff_eq] at h
  cases x with
  | nan => cases h
  | infinite negative =>
    cases y with
    | nan => cases h
    | infinite negative' => revert h; cases negative <;> cases negative' <;> decide
    | finite => revert h; cases negative <;> exact nofun
  | finite negative mantissa exponent canonical =>
    cases y with
    | nan => cases h
    | infinite negative' => revert h; cases negative' <;> exact nofun
    | finite negative' mantissa' exponent' canonical' =>
      simp only [compare?, quotient?, Option.some.injEq, compare_eq_iff_eq] at h
      have habs := congrArg Int.natAbs h
      rw [natAbs_signed_mul, natAbs_signed_mul] at habs
      obtain ⟨rfl, rfl⟩ := canonical.unique canonical' habs
      by_cases hzero : mantissa = 0
      · subst hzero
        exact .inr ⟨toInt?_zero negative canonical, toInt?_zero negative' canonical'⟩
      · have hpos : 0 < mantissa * 2 ^ exponent.toNat * 2 ^ (-exponent).toNat :=
          Nat.mul_pos (Nat.mul_pos (Nat.pos_of_ne_zero hzero) (Nat.two_pow_pos _))
            (Nat.two_pow_pos _)
        obtain rfl := eq_of_signed_mul_eq hpos h
        exact .inl rfl

end Double

/-- Equal doubles have one literal. -/
theorem Number.literal?_eq_of_equals {x y : Double} (h : x.equals y = true) :
    literal? (.float x) = literal? (.float y) := by
  rcases Double.eq_or_zero_of_equals h with rfl | ⟨hx, hy⟩
  · rfl
  · rw [literal?, literal?, hx, hy]

namespace Number

theorem not_isLong_of_natAbs_le_one {n : Int} (h : n.natAbs ≤ 1) : isLong n = false := by
  have hlong : Nat.pow 2 1 ≤ leastLong := by
    unfold leastLong
    exact two_pow_le_ten_pow (by decide)
  exact decide_eq_false (Nat.not_le.mpr (Nat.lt_of_le_of_lt h hlong))

end Number

/-! ### Lists and maps -/

theorem Entries.find?_str (key : String) (entries : Entries) :
    find? (.str key) entries = get? key entries := by
  induction entries with
  | nil => rfl
  | cons e rest ih =>
    obtain ⟨k, value⟩ := e
    rw [find?, get?, ih]
    by_cases hk : k = .str key
    · rw [if_pos hk, if_pos (same_str_iff.mpr hk)]
    · rw [if_neg hk, if_neg fun h => hk (same_str_iff.mp h)]

namespace Node

theorem intsFit_list_iff {items : List Node} :
    (Node.list items).IntsFit ↔ ∀ x ∈ items, x.IntsFit :=
  ⟨fun fits _ hx n hn => fits n (.item hx hn), intsFit_list⟩

theorem intsFit_map_iff {entries : Entries} :
    (Node.map entries).IntsFit ↔ ∀ e ∈ entries, e.2.IntsFit :=
  ⟨fun fits _ he n hn => fits n (.entry he hn), intsFit_map⟩

theorem exists_item_of_sameItems {xs ys : List Node} (h : sameItems xs ys = true) {y : Node}
    (hy : y ∈ ys) : ∃ x ∈ xs, x.same y = true := by
  induction ys generalizing xs with
  | nil => cases hy
  | cons first ys ih =>
    cases xs with
    | nil => cases h
    | cons x xs =>
      rw [sameItems, Bool.and_eq_true] at h
      rcases List.mem_cons.mp hy with rfl | hy
      · exact ⟨x, List.mem_cons_self, h.1⟩
      · obtain ⟨x', hx', hsame⟩ := ih h.2 hy
        exact ⟨x', List.mem_cons_of_mem x hx', hsame⟩

theorem exists_entry_of_sameEntries {xs ys : Entries} (h : sameEntries xs ys = true) {key : String}
    {x : Node} (hx : (.str key, x) ∈ xs) : ∃ y, (.str key, y) ∈ ys ∧ x.same y = true := by
  induction xs with
  | nil => cases hx
  | cons e rest ih =>
    obtain ⟨k, v⟩ := e
    rw [sameEntries, Bool.and_eq_true] at h
    rcases List.mem_cons.mp hx with heq | hx
    · cases heq
      have hfound := h.1
      rw [Entries.find?_str] at hfound
      split at hfound
      · rename_i y hy
        exact ⟨y, mem_of_get?_entries hy, hfound⟩
      · cases hfound
    · exact ih h.2 hx

/-- Each entry of a map has its equal in an equal map: no fewer keys are found than there are. -/
theorem exists_entry_of_same {xs ys : Entries} (texts : ∀ e ∈ xs, ∃ key, e.1 = .str key)
    (distinct : (xs.map Prod.fst).Nodup) (distinct' : (ys.map Prod.fst).Nodup)
    (h : (Node.map xs).same (.map ys) = true) {e : Scalar × Node} (he : e ∈ ys) :
    ∃ x, (e.1, x) ∈ xs ∧ x.same e.2 = true := by
  rw [same, Bool.and_eq_true, beq_iff_eq] at h
  obtain ⟨hlength, hentries⟩ := h
  have hsubset : xs.map Prod.fst ⊆ ys.map Prod.fst := by
    intro k hk
    obtain ⟨⟨k, x⟩, hx, rfl⟩ := List.mem_map.mp hk
    obtain ⟨key, rfl⟩ := texts _ hx
    obtain ⟨y, hy, _⟩ := exists_entry_of_sameEntries hentries hx
    exact List.mem_map.mpr ⟨_, hy, rfl⟩
  have hperm : (xs.map Prod.fst).Perm (ys.map Prod.fst) :=
    (List.subperm_of_subset distinct hsubset).perm_of_length_le (by simp [hlength])
  obtain ⟨⟨k, x⟩, hx, hk⟩ := List.mem_map.mp (hperm.mem_iff.mpr (List.mem_map_of_mem he))
  obtain ⟨key, rfl⟩ := texts _ hx
  obtain ⟨y, hy, hsame⟩ := exists_entry_of_sameEntries hentries hx
  have hsame_entry : (.str key, y) = e :=
    List.inj_on_of_nodup_map distinct' hy he hk
  exact ⟨x, hk ▸ hx, hsame_entry ▸ hsame⟩

/-- Whether a value has integers that are too long to be written does not depend on its notation. -/
theorem intsFit_of_same {x y : Node} (plain : x.HasNotation) (plain' : y.HasNotation)
    (h : x.same y = true) (fits : x.IntsFit) : y.IntsFit := by
  induction plain' generalizing x with
  | int n =>
    have hshort : Number.isLong n = false := by
      cases plain with
      | int m =>
        obtain rfl : m = n := beq_iff_eq.mp h
        exact fits m .whole
      | bool b =>
        obtain rfl : (if b then 1 else 0) = n := beq_iff_eq.mp h
        exact Number.not_isLong_of_natAbs_le_one (by cases b <;> decide)
      | float x => exact Number.not_isLong_of_toInt? (Double.toInt?_of_equalsInt h)
      | null => cases h
      | str s => cases h
      | list => cases h
      | map => cases h
    intro m hm
    cases hm
    exact hshort
  | @list ys _ ih =>
    cases plain with
    | @list xs parts =>
      rw [intsFit_list_iff] at fits ⊢
      rw [same] at h
      intro y hy
      obtain ⟨x, hx, hsame⟩ := exists_item_of_sameItems h hy
      exact ih y hy (parts x hx) hsame (fits x hx)
    | _ => cases h
  | @map ys _ distinct' _ ih =>
    cases plain with
    | @map xs texts distinct parts =>
      rw [intsFit_map_iff] at fits ⊢
      intro e he
      obtain ⟨x, hx, hsame⟩ := exists_entry_of_same texts distinct distinct' h he
      exact ih e he (parts _ hx) hsame (fits _ hx)
    | _ => cases h
  | _ =>
    intro n hn
    cases hn

end Node
end OpenApi
