import Mathlib.Data.List.TakeWhile
import OpenApi.Number.Numeral
import OpenApi.Proofs.JsonValues
import OpenApi.Proofs.ShortestText

/-
Numerals that are written with digits alone.

A text may consist of characters that look like digits and yet be no numeral: a superscript two has
a digit value, but does not stand for a place.  A text of digits names an integer exactly when each
of them does.  Whatever the notation, marks like the number sign have no place in a numeral.
-/
namespace OpenApi

namespace Text

/-- The code points of white space. -/
def blankCodes : List Nat :=
  [9, 10, 11, 12, 13, 28, 29, 30, 31, 32, 0x85, 0xA0, 0x1680, 0x2000, 0x2001, 0x2002, 0x2003,
    0x2004, 0x2005, 0x2006, 0x2007, 0x2008, 0x2009, 0x200A, 0x2028, 0x2029, 0x202F, 0x205F, 0x3000]

theorem mem_blankCodes {c : Char} (h : isBlank c = true) : c.toNat ∈ blankCodes := by
  simp only [isBlank, Bool.or_eq_true, Bool.and_eq_true, decide_eq_true_eq, beq_iff_eq] at h
  simp only [blankCodes, List.mem_cons, List.not_mem_nil, or_false]
  omega

theorem isBlank_of_isDigitLike {c : Char} (h : isDigitLike c = true) : isBlank c = false := by
  have hnone : ∀ n ∈ blankCodes, inRuns digitRuns n = false := by decide +kernel
  cases hblank : isBlank c with
  | false => rfl
  | true =>
    rw [isDigitLike, hnone _ (mem_blankCodes hblank)] at h
    cases h

theorem ne_of_isDigitLike {c d : Char} (h : isDigitLike c = true) (hd : isDigitLike d = false) :
    c ≠ d := by
  rintro rfl
  rw [hd] at h
  cases h

theorem dropRightWhile_append (p : Char → Bool) (cs : List Char) :
    ∃ back, dropRightWhile p cs ++ back = cs := by
  refine ⟨(cs.reverse.takeWhile p).reverse, ?_⟩
  rw [dropRightWhile, ← List.reverse_append, List.takeWhile_append_dropWhile, List.reverse_reverse]

/-- What is left of a text without its ends stands in the text. -/
theorem trim_infix (cs : List Char) : ∃ front back, front ++ (trim cs ++ back) = cs := by
  obtain ⟨back, hback⟩ := dropRightWhile_append isBlank (cs.dropWhile isBlank)
  refine ⟨cs.takeWhile isBlank, back, ?_⟩
  rw [trim, trimBy, hback, List.takeWhile_append_dropWhile]

theorem trimBy_eq_self {p : Char → Bool} {cs : List Char} (h : ∀ c ∈ cs, p c = false) :
    trimBy p cs = cs := by
  have hkeep : ∀ ds : List Char, (∀ c ∈ ds, p c = false) → ds.dropWhile p = ds := by
    intro ds hds
    cases ds with
    | nil => rfl
    | cons c rest => rw [List.dropWhile_cons_of_neg (by simp [hds c List.mem_cons_self])]
  have hback : cs.reverse.dropWhile p = cs.reverse :=
    hkeep cs.reverse fun c hc => h c (List.mem_reverse.mp hc)
  rw [trimBy, hkeep cs h, dropRightWhile, hback, List.reverse_reverse]

theorem length_trim_of_digitsFit {cs : List Char} (fit : digitsFit cs = true)
    (h : ∀ c ∈ trim cs, isDigitLike c = true) : (trim cs).length ≤ Number.longest := by
  obtain ⟨front, back, heq⟩ := trim_infix cs
  have hrun := length_digits_le (digitsFit_of_suffix fit heq)
  rw [List.takeWhile_append_of_pos h, List.length_append] at hrun
  omega

end Text

namespace Numeral
open Text

variable {cs : List Char}

theorem digits?_cons {base : Nat} {c d : Char} {rest : List Char} (hd : d ≠ '_') :
    digits? base (c :: d :: rest) = match place? base c, digits? base (d :: rest) with
      | some v, some vs => some (v :: vs)
      | _, _ => none := by
  rewrite [digits?]
  · rfl
  · exact List.cons_ne_nil d rest
  · intro more heq
    exact hd (List.cons.inj heq).1

/-- Digits without underscores between them have a value each, or there is no numeral. -/
theorem digits?_cases (base : Nat) {c : Char} {rest : List Char}
    (h : ∀ d ∈ c :: rest, isDigitLike d = true) :
    ((∀ d ∈ c :: rest, (place? base d).isSome = true) ∧
        ∃ ds, digits? base (c :: rest) = some ds ∧ ds.length = (c :: rest).length) ∨
      (¬ ∀ d ∈ c :: rest, (place? base d).isSome = true) ∧ digits? base (c :: rest) = none := by
  induction rest generalizing c with
  | nil =>
    rw [digits?, List.forall_mem_singleton]
    cases place? base c with
    | none => exact .inr ⟨Bool.false_ne_true, rfl⟩
    | some v => exact .inl ⟨rfl, [v], rfl, rfl⟩
  | cons d rest ih =>
    rw [List.forall_mem_cons] at h
    have hd : d ≠ '_' := ne_of_isDigitLike (h.2 d List.mem_cons_self) (by decide +kernel)
    rw [List.forall_mem_cons, digits?_cons hd]
    cases place? base c with
    | none => exact .inr ⟨fun hall => Bool.false_ne_true hall.1, rfl⟩
    | some v =>
      rcases ih h.2 with ⟨hall, ds, hds, hlength⟩ | ⟨hnot, hnone⟩
      · exact .inl ⟨⟨rfl, hall⟩, v :: ds, by rw [hds], congrArg (· + 1) hlength⟩
      · exact .inr ⟨fun hall => hnot hall.2, by rw [hnone]⟩

theorem sign_of_isDigitLike {c : Char} {rest : List Char} (h : isDigitLike c = true) :
    sign (c :: rest) = (false, c :: rest) := by
  have hminus : c ≠ '-' := ne_of_isDigitLike h (by decide +kernel)
  have hplus : c ≠ '+' := ne_of_isDigitLike h (by decide +kernel)
  rw [sign]
  · simpa using hminus
  · simpa using hplus

theorem unmark_ten (cs : List Char) : unmark 10 cs = cs := by
  unfold unmark
  split
  · rw [if_neg (by simp)]
  · rfl

/-- A text of digits alone is a numeral when all of them are decimal. -/
theorem exists_signed?_iff (hne : cs ≠ []) (h : ∀ c ∈ cs, isDigitLike c = true)
    (short : cs.length ≤ Number.longest) :
    (∃ n, signed? cs = some n) ↔ ∀ c ∈ cs, (place? 10 c).isSome = true := by
  obtain ⟨c, rest, rfl⟩ := List.exists_cons_of_ne_nil hne
  have hunpad : unpad (c :: rest) = c :: rest := by
    refine trimBy_eq_self fun d hd => ?_
    rw [isPadding, isBlank_of_isDigitLike (h d hd)]
    rfl
  have hsign : sign (c :: rest) = (false, c :: rest) := sign_of_isDigitLike (h c List.mem_cons_self)
  rw [signed?, signedIn?, hunpad, hsign]
  dsimp only
  rw [unmark_ten]
  rcases digits?_cases 10 h with ⟨hall, ds, hds, hlength⟩ | ⟨hnot, hnone⟩
  · rw [hds]
    dsimp only
    rw [if_neg (by omega)]
    exact ⟨fun _ => hall, fun _ => ⟨_, rfl⟩⟩
  · rw [hnone]
    constructor
    · rintro ⟨n, hn⟩
      cases hn
    · exact fun hall => absurd hall hnot

/-! ### Numerals as they are written -/

theorem place?_of_isDigit {c : Char} (h : c.isDigit = true) :
    place? 10 c = some (c.toNat - '0'.toNat) := by
  have hrange : 48 ≤ c.toNat ∧ c.toNat ≤ 57 := by
    simpa [Char.isDigit, UInt32.le_iff_toNat_le] using h
  have hvalue : decimalValue? c = some (c.toNat - '0'.toNat) := by
    have hzero : (decide (48 ≤ c.toNat) && decide (c.toNat < 48 + 10)) = true := by
      simp only [Bool.and_eq_true, decide_eq_true_eq]
      omega
    have hzeros : decimalZeros = 48 :: decimalZeros.tail := rfl
    rw [decimalValue?, hzeros, List.find?_cons, hzero]
    rfl
  have hsmall : c.toNat - '0'.toNat < 10 := by
    show c.toNat - 48 < 10
    omega
  rw [place?, hvalue]
  simpa using hsmall

theorem digits?_of_isDigit {c : Char} {rest : List Char}
    (h : ∀ d ∈ c :: rest, d.isDigit = true) :
    digits? 10 (c :: rest) = some ((c :: rest).map fun d => d.toNat - '0'.toNat) := by
  induction rest generalizing c with
  | nil =>
    rw [digits?, place?_of_isDigit (h c List.mem_cons_self)]
    rfl
  | cons d rest ih =>
    rw [List.forall_mem_cons] at h
    have hd : d ≠ '_' := by
      rintro rfl
      exact absurd (h.2 '_' List.mem_cons_self) (by decide)
    rw [digits?_cons hd, place?_of_isDigit h.1, ih h.2]
    rfl

/-- A text of ASCII digits names its value, unless there are too many of them. -/
theorem signed?_of_isDigit (hne : cs ≠ []) (h : ∀ c ∈ cs, c.isDigit = true) :
    signed? cs = if Number.longest < cs.length then none else some (value cs : Int) := by
  obtain ⟨c, rest, rfl⟩ := List.exists_cons_of_ne_nil hne
  have hlike : ∀ d ∈ c :: rest, isDigitLike d = true := fun d hd =>
    isDigitLike_of_isDigit (h d hd)
  have hunpad : unpad (c :: rest) = c :: rest := by
    refine trimBy_eq_self fun d hd => ?_
    rw [isPadding, isBlank_of_isDigitLike (hlike d hd)]
    rfl
  have hvalue : (c :: rest).foldl (fun n d => n * 10 + (d.toNat - '0'.toNat)) 0 =
      value (c :: rest) := by
    refine List.foldl_ext _ _ _ fun n d hd => ?_
    rw [digit?_of_isDigit (h d hd)]
    rfl
  rw [signed?, signedIn?, hunpad, sign_of_isDigitLike (hlike c List.mem_cons_self)]
  dsimp only
  rw [unmark_ten, digits?_of_isDigit h]
  dsimp only
  rw [List.length_map, List.foldl_map, hvalue]
  by_cases hlong : Number.longest < (c :: rest).length
  · rw [if_pos ⟨rfl, hlong⟩, if_pos hlong]
  · rw [if_neg fun hboth => hlong hboth.2, if_neg hlong]
    rfl

/-- A natural number is read from the digits that it is written with. -/
theorem signed?_toDigits {n : Nat} (short : Number.isLong n = false) :
    signed? (Nat.toDigits 10 n) = some (n : Int) := by
  have hlength : (Nat.toDigits 10 n).length ≤ Number.longest := Number.length_toDigits_le short
  rw [signed?_of_isDigit Nat.toDigits_ne_nil isDigit_of_mem_toDigits, if_neg (Nat.not_lt.mpr hlength),
    value_toDigits]

theorem signed?_toDigits_of_isLong {n : Nat} (long : Number.isLong n = true) :
    signed? (Nat.toDigits 10 n) = none := by
  have hexceeds {k : Nat} (hk : 0 < k) (h : Nat.pow 10 k ≤ n) : k < (Nat.toDigits 10 n).length :=
    Nat.lt_of_not_le fun hle =>
      Nat.not_le.mpr ((Nat.length_toDigits_le_iff (by decide) hk).mp hle) h
  have hlength : Number.longest < (Nat.toDigits 10 n).length := by
    rw [Number.isLong, decide_eq_true_eq] at long
    unfold Number.leastLong at long
    exact hexceeds (by decide) long
  rw [signed?_of_isDigit Nat.toDigits_ne_nil isDigit_of_mem_toDigits, if_pos hlength]

/-! ### How long a numeral is -/

theorem lt_of_place? {base v : Nat} {c : Char} (h : place? base c = some v) : v < base :=
  of_decide_eq_true (Option.filter_eq_some_iff.mp h).2

theorem lt_of_mem_digits? {base : Nat} {ds : List Nat} (h : digits? base cs = some ds) :
    ∀ d ∈ ds, d < base := by
  fun_induction digits? base cs generalizing ds with
  | case1 => cases h
  | case2 c =>
    obtain ⟨v, hv, rfl⟩ := Option.map_eq_some_iff.mp h
    exact List.forall_mem_singleton.mpr (lt_of_place? hv)
  | case3 c rest v vs hvs hv ih =>
    cases h
    exact List.forall_mem_cons.mpr ⟨lt_of_place? hv, ih hvs⟩
  | case5 c rest _ _ v vs hvs hv ih =>
    cases h
    exact List.forall_mem_cons.mpr ⟨lt_of_place? hv, ih hvs⟩
  | case4 | case6 => cases h

/-- Digits name less than the power of the base for their number. -/
theorem foldl_digits_lt {base : Nat} (ds : List Nat) (h : ∀ d ∈ ds, d < base) (start : Nat) :
    ds.foldl (fun n d => n * base + d) start < (start + 1) * Nat.pow base ds.length := by
  induction ds generalizing start with
  | nil => exact Nat.lt_of_lt_of_eq (Nat.lt_succ_self start) (Nat.mul_one _).symm
  | cons d rest ih =>
    obtain ⟨hd, hrest⟩ := List.forall_mem_cons.mp h
    calc (d :: rest).foldl (fun n d => n * base + d) start
        < (start * base + d + 1) * Nat.pow base rest.length := ih hrest _
      _ ≤ ((start + 1) * base) * Nat.pow base rest.length :=
          Nat.mul_le_mul_right _ (by rw [Nat.add_mul]; omega)
      _ = (start + 1) * Nat.pow base (d :: rest).length := by
          rw [Nat.mul_assoc, Nat.mul_comm base]
          rfl

/-- A numeral that is read is short enough to be written. -/
theorem isLong_of_signed? {n : Int} (h : signed? cs = some n) : Number.isLong n = false := by
  unfold signed? signedIn? at h
  dsimp only at h
  split at h
  · cases h
  · rename_i ds hds
    obtain ⟨hshort, h⟩ := Option.ite_none_left_eq_some.mp h
    have hlength : ds.length ≤ Number.longest := Nat.le_of_not_lt fun hlt => hshort ⟨rfl, hlt⟩
    have hpower {k m : Nat} (h : k ≤ m) : Nat.pow 10 k ≤ Nat.pow 10 m :=
      Nat.pow_le_pow_right (by decide) h
    have hlt := foldl_digits_lt ds (lt_of_mem_digits? hds) 0
    rw [Nat.zero_add, Nat.one_mul] at hlt
    have hsmall : ds.foldl (fun n d => n * 10 + d) 0 < Number.leastLong := by
      unfold Number.leastLong
      exact Nat.lt_of_lt_of_le hlt (hpower hlength)
    have habs (negative : Bool) (n : Nat) : (negateIf negative n).natAbs = n := by
      cases negative <;> simp [negateIf]
    cases h
    rw [Number.isLong, habs]
    exact decide_eq_false (Nat.not_le_of_lt hsmall)

/-! ### What a numeral cannot have in it -/

theorem not_mem_of_digits? {base : Nat} {ds : List Nat} {m : Char} (hplace : place? base m = none)
    (hm : m ≠ '_') (h : digits? base cs = some ds) : m ∉ cs := by
  have hne {c : Char} {v : Nat} (hc : place? base c = some v) : m ≠ c := by
    rintro rfl
    cases hplace.symm.trans hc
  fun_induction digits? base cs generalizing ds with
  | case1 => cases h
  | case2 c =>
    obtain ⟨v, hv, _⟩ := Option.map_eq_some_iff.mp h
    exact fun hmem => hne hv (List.mem_singleton.mp hmem)
  | case3 c rest v vs hvs hv ih =>
    simp only [List.mem_cons, not_or]
    exact ⟨hne hv, hm, ih hvs⟩
  | case5 c rest _ _ v vs hvs hv ih =>
    rw [List.mem_cons, not_or]
    exact ⟨hne hv, ih hvs⟩
  | case4 | case6 => cases h

theorem mem_sign {m : Char} (hm : m ∉ ['-', '+']) (h : m ∈ cs) : m ∈ (sign cs).2 := by
  unfold sign
  split
  · exact (List.mem_cons.mp h).resolve_left fun heq => hm (heq ▸ List.mem_cons_self)
  · exact (List.mem_cons.mp h).resolve_left fun heq =>
      hm (heq ▸ List.mem_cons_of_mem _ List.mem_cons_self)
  · exact h

theorem mem_dropWhile {p : Char → Bool} {m : Char} (hm : ¬ p m = true) (h : m ∈ cs) :
    m ∈ cs.dropWhile p := by
  rw [← List.takeWhile_append_dropWhile (p := p) (l := cs), List.mem_append] at h
  exact h.resolve_left fun hmem => hm (List.mem_takeWhile_imp hmem)

theorem mem_trimBy {p : Char → Bool} {m : Char} (hm : ¬ p m = true) (h : m ∈ cs) :
    m ∈ trimBy p cs :=
  List.mem_reverse.mpr (mem_dropWhile hm (List.mem_reverse.mpr (mem_dropWhile hm h)))

/-- A character that is no digit and no part of the notation stands in no numeral. -/
theorem not_mem_of_signed? {n : Int} {m : Char} (hplace : place? 10 m = none)
    (hmarks : m ∉ ['_', '-', '+']) (hpadding : ¬ isPadding m = true) (h : signed? cs = some n) :
    m ∉ cs := by
  rw [List.mem_cons, not_or] at hmarks
  intro hmem
  have hsigned := mem_sign hmarks.2 (mem_trimBy hpadding hmem)
  unfold signed? signedIn? at h
  dsimp only at h
  split at h
  · cases h
  · rename_i ds hds
    rw [unmark_ten] at hds
    exact not_mem_of_digits? hplace hmarks.1 hds hsigned

end Numeral
end OpenApi
