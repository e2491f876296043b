import Mathlib.Data.List.TakeWhile
import OpenApi.Json.Token
import OpenApi.Proofs.JsonValues
import OpenApi.Proofs.ShortestText
import OpenApi.Proofs.Texts

/-
Numbers in JSON text.

A numeral has parts: a sign, digits before and after the point, and an exponent.  Reading takes a
numeral apart in just this way, as long as nothing follows that could belong to it
(`number?_text`).  What is written for a number are such parts, and they name the number: an integer
has all its digits, and a double has digits in its interval (`number?_intText`, `number?_write`).
-/
namespace OpenApi

theorem Numeral.negateIf_natAbs (n : Int) : negateIf (n < 0) n.natAbs = n := by
  unfold negateIf
  split
  · rename_i h
    have hneg : n < 0 := of_decide_eq_true h
    omega
  · rename_i h
    have hpos : ¬ n < 0 := fun hneg => h (decide_eq_true hneg)
    omega

namespace Json

/-- Digits before the point: a zero, or digits of which the first is no zero. -/
inductive IsWhole : List Char → Prop where
  | zero : IsWhole ['0']
  | digits {first : Char} {rest : List Char} (nonzero : first ≠ '0')
      (digit : ∀ c ∈ first :: rest, c.isDigit = true) : IsWhole (first :: rest)

/-- The parts of a numeral: its sign, the digits before and after the point, and the sign and the
digits of its exponent. -/
structure NumberParts where
  negative : Bool
  whole : List Char
  fraction : List Char := []
  exponent : Option (Bool × List Char) := none

/-- Whether a text goes on with nothing that could belong to a numeral before it. -/
def EndsNumber (rest : List Char) : Prop :=
  ∀ c ∈ rest.head?, c.isDigit = false ∧ c ≠ '.' ∧ c ≠ 'e' ∧ c ≠ 'E'

namespace NumberParts

/-- The point and what stands behind it. -/
def point (p : NumberParts) : List Char :=
  match p.fraction with
  | [] => []
  | digits => '.' :: digits

/-- The exponent with its mark. -/
def power (p : NumberParts) : List Char :=
  match p.exponent with
  | none => []
  | some (negative, digits) => 'e' :: (if negative then '-' else '+') :: digits

def text (p : NumberParts) : List Char :=
  Double.signed p.negative (p.whole ++ (p.point ++ p.power))

/-- The exponent as a number. -/
def shift (p : NumberParts) : Int :=
  match p.exponent with
  | none => 0
  | some (negative, digits) => Numeral.negateIf negative (Numeral.value digits)

/-- The double that the parts name. -/
def double (p : NumberParts) : Double := Numeral.double p.negative p.whole p.fraction p.shift

/-- Whether the parts are digits where they should be. -/
structure WellFormed (p : NumberParts) : Prop where
  whole : IsWhole p.whole
  fraction : ∀ c ∈ p.fraction, c.isDigit = true
  exponent : ∀ e ∈ p.exponent, e.2 ≠ [] ∧ ∀ c ∈ e.2, c.isDigit = true

end NumberParts

/-! ### Reading the parts -/

theorem whole?_append {whole rest : List Char} (h : IsWhole whole)
    (ends : ∀ c ∈ rest.head?, c.isDigit = false) : whole? (whole ++ rest) = some (whole, rest) := by
  cases h with
  | zero => rfl
  | @digits first digits nonzero digit =>
    obtain ⟨htake, hdrop⟩ := Text.takeWhile_dropWhile_append digit ends
    unfold whole?
    split
    · rename_i heq
      exact absurd (List.cons.inj heq).1 nonzero
    · rw [htake, hdrop]
      rfl

variable {p : NumberParts} {rest : List Char}

theorem fraction_append (h : p.WellFormed)
    (ends : ∀ c ∈ rest.head?, c.isDigit = false ∧ c ≠ '.') :
    fraction (p.point ++ rest) = (p.fraction, rest) := by
  unfold NumberParts.point
  cases hfraction : p.fraction with
  | nil =>
    rw [List.nil_append]
    unfold fraction
    split
    · exact absurd rfl (ends '.' rfl).2
    · rfl
  | cons c digits =>
    obtain ⟨htake, hdrop⟩ :=
      Text.takeWhile_dropWhile_append (hfraction ▸ h.fraction) fun c hc => (ends c hc).1
    rw [List.cons_append, fraction, htake, hdrop]
    rfl

theorem exponent?_append (h : p.WellFormed) (ends : EndsNumber rest) :
    exponent? (p.power ++ rest) = if p.exponent.isNone then none else some (p.shift, rest) := by
  unfold NumberParts.power NumberParts.shift
  cases hexponent : p.exponent with
  | none =>
    rw [List.nil_append]
    unfold exponent?
    split
    · rename_i mark rest
      obtain ⟨_, _, he, hE⟩ := ends mark rfl
      rw [if_neg (by simp [he, hE])]
      rfl
    · rfl
  | some exponent =>
    obtain ⟨negative, digits⟩ := exponent
    obtain ⟨hne, hdigits⟩ := h.exponent _ hexponent
    obtain ⟨htake, hdrop⟩ := Text.takeWhile_dropWhile_append hdigits fun c hc => (ends c hc).1
    have hsign : Numeral.sign ((if negative then '-' else '+') :: (digits ++ rest)) =
        (negative, digits ++ rest) := by cases negative <;> rfl
    have hmark : ('e' == 'e' || 'e' == 'E') = true := rfl
    rw [List.cons_append, List.cons_append, exponent?, if_pos hmark, hsign]
    dsimp only
    rw [htake, hdrop, if_neg (by simpa using hne)]
    rfl

/-- What may follow each part, if nothing that belongs to the numeral follows the whole. -/
theorem NumberParts.ends_power (p : NumberParts) (ends : EndsNumber rest) :
    ∀ c ∈ (p.power ++ rest).head?, c.isDigit = false ∧ c ≠ '.' := by
  unfold power
  cases p.exponent with
  | none => exact fun c hc => ⟨(ends c hc).1, (ends c hc).2.1⟩
  | some exponent =>
    intro c hc
    cases hc
    decide

theorem NumberParts.ends_point (p : NumberParts) (ends : EndsNumber rest) :
    ∀ c ∈ (p.point ++ (p.power ++ rest)).head?, c.isDigit = false := by
  unfold point
  cases p.fraction with
  | nil => exact fun c hc => (p.ends_power ends c hc).1
  | cons d digits =>
    intro c hc
    cases hc
    decide

/-- The token of a numeral. -/
def NumberParts.token (p : NumberParts) : Token :=
  if p.exponent.isNone && p.fraction.isEmpty then
    if p.whole.length > Number.longest then .long
    else .plain (.int (Numeral.negateIf p.negative (Numeral.value p.whole)))
  else .plain (.float p.double)

theorem IsWhole.head_ne {whole : List Char} (h : IsWhole whole) (rest : List Char) :
    (whole ++ rest).head? ≠ some '-' := by
  intro heq
  cases h with
  | zero => cases heq
  | digits nonzero digit =>
    cases heq
    exact absurd (digit '-' List.mem_cons_self) (by decide)

/-- A sign before digits is told apart from them. -/
theorem unsigned_of_head_ne {cs : List Char} (h : cs.head? ≠ some '-') (negative : Bool) :
    (match Double.signed negative cs with
      | '-' :: rest => (true, rest)
      | _ => (false, Double.signed negative cs)) = (negative, cs) := by
  cases negative with
  | true => rfl
  | false =>
    simp only [Double.signed, Bool.false_eq_true, if_false]
    split
    · exact absurd rfl h
    · rfl

/-- A numeral is read with all its parts. -/
theorem number?_text (h : p.WellFormed) (ends : EndsNumber rest) :
    number? (p.text ++ rest) = some (p.token, rest) := by
  have htext : p.text ++ rest =
      Double.signed p.negative (p.whole ++ (p.point ++ (p.power ++ rest))) := by
    unfold NumberParts.text
    cases p.negative <;> simp [Double.signed]
  unfold number?
  split
  rename_i negative unsigned heq
  rw [htext] at heq
  obtain ⟨rfl, rfl⟩ : negative = p.negative ∧ unsigned = p.whole ++ (p.point ++ (p.power ++ rest)) :=
    Prod.mk.injEq .. ▸ heq.symm.trans (unsigned_of_head_ne (h.whole.head_ne _) p.negative)
  rw [whole?_append h.whole (p.ends_point ends)]
  dsimp only
  rw [fraction_append h (p.ends_power ends)]
  dsimp only
  rw [exponent?_append h ends]
  unfold NumberParts.token NumberParts.double
  cases hexponent : p.exponent with
  | some exponent => rfl
  | none =>
    have hshift : p.shift = 0 := by rw [NumberParts.shift, hexponent]
    have hpower : p.power = [] := by rw [NumberParts.power, hexponent]
    simp only [hshift, hpower, List.nil_append, Option.isNone_none, if_true, Bool.true_and]
    split
    · split <;> rfl
    · rfl

/-! ### Integers -/

/-- The first digit of a number is zero for zero only. -/
theorem exists_toDigits_eq_cons {n : Nat} (h : 0 < n) :
    ∃ first rest, Nat.toDigits 10 n = first :: rest ∧ first ≠ '0' := by
  obtain ⟨first, rest, heq⟩ := List.exists_cons_of_ne_nil (Nat.toDigits_ne_nil (n := n) (b := 10))
  refine ⟨first, rest, heq, ?_⟩
  rintro rfl
  have hvalue := Numeral.value_toDigits n
  rw [heq, ← List.singleton_append, Numeral.value_append] at hvalue
  have hsmall := Numeral.value_lt rest
  have hlarge := Double.pow_width_le h
  have hwidth : Double.width n - 1 = rest.length := by
    rw [Double.width, heq, List.length_cons, Nat.add_sub_cancel]
  have hzero : Numeral.value ['0'] = 0 := rfl
  rw [hwidth] at hlarge
  rw [hzero, Nat.zero_mul, Nat.zero_add] at hvalue
  omega

theorem isWhole_toDigits (n : Nat) : IsWhole (Nat.toDigits 10 n) := by
  rcases Nat.eq_zero_or_pos n with rfl | h
  · exact .zero
  · obtain ⟨first, rest, heq, nonzero⟩ := exists_toDigits_eq_cons h
    have hdigits := Numeral.isDigit_of_mem_toDigits (n := n)
    rw [heq] at hdigits ⊢
    exact .digits nonzero hdigits

namespace NumberParts

/-- An integer has all its digits. -/
def ofInt (n : Int) : NumberParts := ⟨n < 0, Nat.toDigits 10 n.natAbs, [], none⟩

theorem wellFormed_ofInt (n : Int) : (ofInt n).WellFormed where
  whole := isWhole_toDigits n.natAbs
  fraction := fun _ hc => nomatch hc
  exponent := fun _ he => nomatch he

theorem text_ofInt (n : Int) : (ofInt n).text = (Number.intText n).toList := by
  rw [Number.intText, String.toList_ofList]
  exact congrArg _ (List.append_nil _)

theorem token_ofInt {n : Int} (short : Number.isLong n = false) :
    (ofInt n).token = .plain (.int n) := by
  have hlength := Number.length_toDigits_le short
  show (if (Nat.toDigits 10 n.natAbs).length > Number.longest then Token.long else
    .plain (.int (Numeral.negateIf (n < 0) (Numeral.value (Nat.toDigits 10 n.natAbs))))) = _
  rw [if_neg (Nat.not_lt.mpr hlength), Numeral.value_toDigits, Numeral.negateIf_natAbs]

end NumberParts

/-! ### Doubles -/

/-- The digits of a number without the zeros at their end. -/
theorem trimZeros_cases {n : Nat} (h : 0 < n) : ∃ first rest zeros,
    Double.trimZeros (Double.digitChars n) = first :: rest ∧ first ≠ '0' ∧
      (∀ c ∈ first :: rest, c.isDigit = true) ∧
      Double.digitChars n = first :: rest ++ List.replicate zeros '0' := by
  obtain ⟨first, tail, heq, nonzero⟩ := exists_toDigits_eq_cons h
  have hdigits := Numeral.isDigit_of_mem_toDigits (n := n)
  obtain ⟨trimmed, htrimmed⟩ : ∃ trimmed, trimmed = Double.trimZeros (Double.digitChars n) :=
    ⟨_, rfl⟩
  obtain ⟨zeros, hsplit⟩ : ∃ zeros, Double.digitChars n = trimmed ++ List.replicate zeros '0' := by
    refine ⟨((Double.digitChars n).reverse.takeWhile (· == '0')).length, ?_⟩
    have hzeros : ((Double.digitChars n).reverse.takeWhile (· == '0')).reverse =
        List.replicate ((Double.digitChars n).reverse.takeWhile (· == '0')).length '0' := by
      refine List.eq_replicate_iff.mpr ⟨List.length_reverse, fun c hc => ?_⟩
      simpa using List.mem_takeWhile_imp (List.mem_reverse.mp hc)
    rw [htrimmed, ← hzeros, Double.trimZeros, Text.dropRightWhile, ← List.reverse_append,
      List.takeWhile_append_dropWhile, List.reverse_reverse]
  have hshown : Double.digitChars n = first :: tail := heq
  cases htrim : trimmed with
  | nil =>
    rw [htrim, List.nil_append, hshown] at hsplit
    have hmem : first ∈ List.replicate zeros '0' := hsplit ▸ List.mem_cons_self
    exact absurd (List.eq_of_mem_replicate hmem) nonzero
  | cons c rest =>
    rw [htrim] at hsplit
    have hfirst : first = c := by
      rw [hshown] at hsplit
      exact (List.cons.inj hsplit).1
    refine ⟨c, rest, zeros, by rw [← htrimmed, htrim], hfirst ▸ nonzero, fun d hd => ?_, hsplit⟩
    refine hdigits d ?_
    have hmem : d ∈ Double.digitChars n := by
      rw [hsplit]
      exact List.mem_append_left _ hd
    exact hmem

namespace NumberParts

/-- The number that the parts name, without its sign. -/
def size (p : NumberParts) : ℚ :=
  Numeral.value (p.whole ++ p.fraction) * 10 ^ (p.shift - p.fraction.length)

/-- Digits with the decimal point after the first `place` of them. -/
def positional (digits : List Char) (place : Int) : NumberParts :=
  if place ≤ 0 then ⟨false, ['0'], List.replicate (-place).toNat '0' ++ digits, none⟩
  else
    ⟨false, digits.take place.toNat ++
        List.replicate (place.toNat - (digits.take place.toNat).length) '0',
      if (digits.drop place.toNat).isEmpty then ['0'] else digits.drop place.toNat, none⟩

/-- Digits with the decimal point after the first of them, and the power that belongs to it. -/
def scientific (exponentDigits : Nat) (digits : List Char) (place : Int) : NumberParts :=
  let shown := Double.digitChars (place - 1).natAbs
  ⟨false, digits.take 1, digits.drop 1,
    some (place - 1 < 0, List.replicate (exponentDigits - shown.length) '0' ++ shown)⟩

variable {first : Char} {rest : List Char}

theorem point_of_ne_nil {p : NumberParts} (h : p.fraction ≠ []) : p.point = '.' :: p.fraction := by
  unfold point
  split
  · rename_i heq
    exact absurd heq h
  · rfl

theorem text_positional (place : Int) :
    (positional (first :: rest) place).text = Double.Layout.positional (first :: rest) place := by
  unfold positional Double.Layout.positional
  split
  · unfold text
    rw [point_of_ne_nil (by simp)]
    simp [power, Double.signed]
  · unfold text
    rw [point_of_ne_nil (by dsimp only; split <;> simp_all)]
    simp [power, Double.signed]

theorem wellFormed_positional (nonzero : first ≠ '0')
    (digits : ∀ c ∈ first :: rest, c.isDigit = true) (place : Int) :
    (positional (first :: rest) place).WellFormed := by
  have hzeros (n : Nat) : ∀ c ∈ List.replicate n '0', c.isDigit = true := by
    intro c hc
    rw [List.eq_of_mem_replicate hc]
    rfl
  unfold positional
  split
  · refine ⟨.zero, fun c hc => ?_, fun e he => nomatch he⟩
    exact (List.mem_append.mp hc).elim (hzeros _ c) (digits c)
  · rename_i hplace
    obtain ⟨n, hn⟩ : ∃ n, place.toNat = n + 1 := ⟨place.toNat - 1, by omega⟩
    rw [hn]
    refine ⟨.digits nonzero fun c hc => ?_, fun c hc => ?_, fun e he => nomatch he⟩
    · have hc : c ∈ (first :: rest).take (n + 1) ++ List.replicate _ '0' := hc
      exact (List.mem_append.mp hc).elim (fun h => digits c (List.mem_of_mem_take h)) (hzeros _ c)
    · dsimp only at hc
      split at hc
      · exact hzeros 1 c hc
      · exact digits c (List.mem_of_mem_drop hc)

theorem size_positional (digits : List Char) (place : Int) :
    (positional digits place).size = Numeral.value digits * 10 ^ (place - digits.length) := by
  unfold positional size
  split
  · rename_i hplace
    have hzeros : ['0'] ++ List.replicate (-place).toNat '0' =
        List.replicate ((-place).toNat + 1) '0' := rfl
    dsimp only [shift]
    rw [← List.append_assoc, hzeros, Numeral.value_append, Numeral.value_replicate_zero,
      Nat.zero_mul, Nat.zero_add]
    congr 2
    simp only [List.length_append, List.length_replicate]
    omega
  · rename_i hplace
    dsimp only [shift]
    rcases Nat.lt_or_ge place.toNat digits.length with hlong | hshort
    · have hdrop : (digits.drop place.toNat).isEmpty = false := by
        rw [List.isEmpty_eq_false_iff, ← List.length_pos_iff, List.length_drop]
        omega
      have htake : (digits.take place.toNat).length = place.toNat := by
        rw [List.length_take]
        omega
      rw [htake, Nat.sub_self, List.replicate_zero, List.append_nil, if_neg (by simp [hdrop]),
        List.take_append_drop, List.length_drop]
      congr 2
      omega
    · have hpower : (place - digits.length : Int) = ((place.toNat - digits.length : Nat) : Int) := by
        omega
      rw [List.take_of_length_le hshort, List.drop_of_length_le hshort]
      simp only [List.isEmpty_nil, if_true]
      rw [Numeral.value_append, Numeral.value_append, Numeral.value_replicate_zero, hpower,
        zpow_natCast, List.length_replicate]
      have hzero : Numeral.value ['0'] = 0 := rfl
      rw [hzero, List.length_singleton, zero_sub, Nat.cast_one, zpow_neg_one]
      push_cast
      field_simp
      ring

theorem text_scientific (l : Double.Layout) (place : Int) :
    (scientific l.exponentDigits (first :: rest) place).text = l.scientific (first :: rest) place := by
  unfold scientific Double.Layout.scientific text power
  cases rest with
  | nil => simp [point, Double.signed]
  | cons c rest => simp [point, Double.signed]

theorem wellFormed_scientific (exponentDigits : Nat) (nonzero : first ≠ '0')
    (digits : ∀ c ∈ first :: rest, c.isDigit = true) (place : Int) :
    (scientific exponentDigits (first :: rest) place).WellFormed := by
  refine ⟨.digits nonzero fun c hc => ?_, fun c hc => ?_, fun e he => ?_⟩
  · exact digits c (List.mem_of_mem_take (i := 1) hc)
  · exact digits c (List.mem_cons_of_mem _ hc)
  · cases he
    constructor
    · exact List.append_ne_nil_of_right_ne_nil _ Nat.toDigits_ne_nil
    · intro c hc
      rcases List.mem_append.mp hc with hc | hc
      · rw [List.eq_of_mem_replicate hc]
        rfl
      · exact Numeral.isDigit_of_mem_toDigits c hc

theorem size_scientific (exponentDigits : Nat) (place : Int) :
    (scientific exponentDigits (first :: rest) place).size =
      Numeral.value (first :: rest) * 10 ^ (place - (first :: rest).length) := by
  have hshift : (scientific exponentDigits (first :: rest) place).shift = place - 1 := by
    show Numeral.negateIf _ (Numeral.value _) = _
    rw [Numeral.value_append, Numeral.value_replicate_zero, Nat.zero_mul, Nat.zero_add,
      Double.digitChars, Numeral.value_toDigits, Numeral.negateIf_natAbs]
  unfold size
  rw [hshift]
  congr 2
  simp only [scientific, List.drop_succ_cons, List.drop_zero, List.length_cons]
  omega

/-- The parts in which the size of a double is written. -/
theorem exists_magnitude (l : Double.Layout) {mantissa : Nat} {exponent : Int}
    (positive : 0 < mantissa) (canonical : Double.Canonical mantissa exponent) :
    ∃ p : NumberParts, p.WellFormed ∧ p.negative = false ∧
      (p.exponent.isNone && p.fraction.isEmpty) = false ∧ p.text = l.magnitude mantissa exponent ∧
      Double.Near mantissa exponent p.size := by
  have near := Double.near_shortest positive canonical
  rcases hshortest : Double.shortest mantissa exponent with ⟨digits, power⟩
  rw [hshortest] at near
  have hpos : 0 < digits := by
    rcases Nat.eq_zero_or_pos digits with rfl | h
    · have hzero := near.pos positive
      simp at hzero
    · exact h
  obtain ⟨first, rest, zeros, htrim, nonzero, isDigit, hshown⟩ := trimZeros_cases hpos
  have hvalue : digits = Numeral.value (first :: rest) * 10 ^ zeros := by
    rw [← Numeral.value_toDigits digits, show Nat.toDigits 10 digits = Double.digitChars digits from
      rfl, hshown, Numeral.value_append, Numeral.value_replicate_zero, List.length_replicate,
      Nat.add_zero]
  obtain ⟨place, hplace⟩ : ∃ place : Int, place = (Double.digitChars digits).length + power :=
    ⟨_, rfl⟩
  have hpower : place - (first :: rest).length = zeros + power := by
    rw [hplace, hshown, List.length_append, List.length_replicate]
    omega
  have hsize : (digits * 10 ^ power : ℚ) =
      Numeral.value (first :: rest) * 10 ^ (place - (first :: rest).length) := by
    rw [hpower, zpow_add₀ (by norm_num), zpow_natCast, hvalue]
    push_cast
    ring
  unfold Double.Layout.magnitude
  rw [if_neg positive.ne', hshortest]
  dsimp only
  rw [← hplace, htrim]
  rw [hsize] at near
  split
  · refine ⟨positional (first :: rest) place, wellFormed_positional nonzero isDigit place, ?_, ?_,
      text_positional place, by rwa [size_positional]⟩
    · unfold positional
      split <;> rfl
    · unfold positional
      split
      · simp
      · dsimp only
        split <;> simp_all
  · exact ⟨scientific l.exponentDigits (first :: rest) place,
      wellFormed_scientific _ nonzero isDigit place, rfl, rfl, text_scientific l place,
      by rwa [size_scientific]⟩

/-- The parts in which a finite double is written. -/
theorem exists_write (l : Double.Layout) (negative : Bool) {mantissa : Nat} {exponent : Int}
    (canonical : Double.Canonical mantissa exponent) :
    ∃ p : NumberParts, p.WellFormed ∧
      p.text = Double.write l (.finite negative mantissa exponent canonical) ∧
      p.token = .plain (.float (.finite negative mantissa exponent canonical)) := by
  rcases Nat.eq_zero_or_pos mantissa with rfl | positive
  · obtain rfl : exponent = -1074 := canonical.2.2.2.resolve_left (by decide)
    refine ⟨⟨negative, ['0'], ['0'], none⟩, ⟨.zero, fun c hc => ?_, fun e he => nomatch he⟩, ?_, ?_⟩
    · rw [List.mem_singleton.mp hc]
      rfl
    · rfl
    · rfl
  · obtain ⟨p, wellFormed, hsign, hfloat, htext, hnear⟩ := exists_magnitude l positive canonical
    refine ⟨{ p with negative := negative }, ⟨wellFormed.whole, wellFormed.fraction,
      wellFormed.exponent⟩, ?_, ?_⟩
    · rw [text, hsign] at htext
      exact congrArg (Double.signed negative) htext
    · have hdouble : Numeral.double negative p.whole p.fraction p.shift =
          .finite negative mantissa exponent canonical :=
        Double.ofDecimal_of_near negative positive canonical hnear
      show (if (p.exponent.isNone && p.fraction.isEmpty) = true then _ else
        Token.plain (.float (Numeral.double negative p.whole p.fraction p.shift))) = _
      rw [hfloat, hdouble]
      rfl

end NumberParts

end Json
end OpenApi
