import Mathlib.Data.List.TakeWhile
import Mathlib.Tactic.SplitIfs
import OpenApi.Proofs.Texts
import OpenApi.Text.Blank

/-
Which characters a decoded text has.

A character of ASCII stands in a decoded text only where it was written, by itself or by an escape:
reading bytes as UTF-8 neither makes one of other bytes nor takes one away.  Where it was written is
told from the two characters after each percent sign (`Percent.Writes`).  So it makes no difference
to a mark like the number sign that other characters are replaced or cut off at the end, as long as
they are no hexadecimal digits.
-/
namespace OpenApi.Text

/-! ### Bytes -/

namespace Utf8

theorem tails_zero (least greatest bits : Nat) (bytes : List UInt8) :
    tails 0 least greatest bits bytes = (some bits, bytes) := by
  rw [tails]

/-- The bytes owed only add to the bits there are. -/
theorem le_of_tails {owed least greatest bits code : Nat} {bytes left : List UInt8}
    (h : tails owed least greatest bits bytes = (some code, left)) :
    bits * Nat.pow 64 owed ≤ code := by
  induction owed generalizing least greatest bits bytes with
  | zero =>
    rw [tails_zero] at h
    cases h
    exact Nat.le_of_eq (Nat.mul_one code)
  | succ owed ih =>
    cases bytes with
    | nil => cases h
    | cons b rest =>
      rw [tails] at h
      by_cases hb : least ≤ b.toNat ∧ b.toNat ≤ greatest
      · rw [if_pos hb] at h
        have hpower : bits * Nat.pow 64 (owed + 1) = bits * 64 * Nat.pow 64 owed := by
          rw [Nat.mul_assoc, Nat.mul_comm 64]
          rfl
        rw [hpower]
        exact Nat.le_trans (Nat.mul_le_mul_right _ (Nat.le_add_right _ _)) (ih h)
      · rw [if_neg hb] at h
        cases h

/-- No byte of ASCII is read as one that is owed. -/
theorem mem_tails_iff {owed least greatest bits : Nat} {bytes : List UInt8}
    (hleast : 0x80 ≤ least) {b : UInt8} (hb : b.toNat < 0x80) :
    b ∈ (tails owed least greatest bits bytes).2 ↔ b ∈ bytes := by
  induction owed generalizing least greatest bits bytes with
  | zero => rw [tails_zero]
  | succ owed ih =>
    cases bytes with
    | nil => rfl
    | cons d rest =>
      rw [tails]
      by_cases hd : least ≤ d.toNat ∧ d.toNat ≤ greatest
      · have hne : b ≠ d := by
          rintro rfl
          omega
        rw [if_pos hd, ih (Nat.le_refl _), List.mem_cons, or_iff_right hne]
      · rw [if_neg hd]

/-- A lead byte is one of ASCII, which owes nothing, or it begins a character beyond ASCII. -/
theorem Lead.ofByte?_cases {b : Nat} {lead : Lead} (h : ofByte? b = some lead) :
    b < 0x80 ∧ lead = ⟨b, 0, 0x80, 0xBF⟩ ∨
      0x80 ≤ b ∧ 0x80 ≤ lead.least ∧ ∃ owed, lead.owed = owed + 1 ∧
        0x80 ≤ (lead.bits * 64 + (lead.least - 0x80)) * Nat.pow 64 owed := by
  unfold ofByte? at h
  split_ifs at h <;> obtain rfl := Option.some.inj h
  · exact .inl ⟨by omega, rfl⟩
  · exact .inr ⟨by omega, Nat.le_refl _, 0, rfl, by dsimp only; rw [Nat.pow_eq]; omega⟩
  · exact .inr ⟨by omega, by decide, 1, rfl, by decide⟩
  · exact .inr ⟨by omega, by decide, 1, rfl, by decide⟩
  · exact .inr ⟨by omega, Nat.le_refl _, 1, rfl, by dsimp only; rw [Nat.pow_eq]; omega⟩
  · exact .inr ⟨by omega, by decide, 2, rfl, by decide⟩
  · exact .inr ⟨by omega, Nat.le_refl _, 2, rfl, by dsimp only; rw [Nat.pow_eq]; omega⟩
  · exact .inr ⟨by omega, by decide, 2, rfl, by decide⟩

/-- The first byte owed has a least value, and so has the code. -/
theorem le_of_tails_succ {owed least greatest bits code : Nat} {bytes left : List UInt8}
    (h : tails (owed + 1) least greatest bits bytes = (some code, left)) :
    (bits * 64 + (least - 0x80)) * Nat.pow 64 owed ≤ code := by
  cases bytes with
  | nil => cases h
  | cons b rest =>
    rw [tails] at h
    by_cases hb : least ≤ b.toNat ∧ b.toNat ≤ greatest
    · rw [if_pos hb] at h
      have hbits : bits * 64 + (least - 0x80) ≤ bits * 64 + (b.toNat - 0x80) := by omega
      exact Nat.le_trans (Nat.mul_le_mul_right _ hbits) (le_of_tails h)
    · rw [if_neg hb] at h
      cases h

theorem toNat_ofNat {code : Nat} (h : code.isValidChar) : (Char.ofNat code).toNat = code := by
  rw [Char.ofNat, dif_pos h]
  rfl

section
variable {c : Char}

theorem toNat_byte (hc : c.toNat < 0x80) : (UInt8.ofNat c.toNat).toNat = c.toNat := by
  rw [UInt8.toNat_ofNat', Nat.mod_eq_of_lt (by omega)]

/-- A code beyond ASCII is no character of ASCII. -/
theorem ofNat_ne {code : Nat} (hcode : 0x80 ≤ code) (hc : c.toNat < 0x80) (hnull : c ≠ '\x00') :
    Char.ofNat code ≠ c := by
  rintro rfl
  by_cases hvalid : code.isValidChar
  · rw [toNat_ofNat hvalid] at hc
    omega
  · exact hnull (dif_neg hvalid)

/-- The first character is one of ASCII exactly if the first byte is. -/
theorem getD_next_eq_iff (hc : c.toNat < 0x80) (hnull : c ≠ '\x00') (b : UInt8)
    (rest : List UInt8) :
    (next b rest).1.getD replacement = c ↔ UInt8.ofNat c.toNat = b := by
  have hreplacement : replacement ≠ c := ofNat_ne (by decide) hc hnull
  have hbyte : UInt8.ofNat c.toNat = b → b.toNat < 0x80 := by
    rintro rfl
    rw [toNat_byte hc]
    exact hc
  unfold next
  split
  · rename_i hnone
    refine iff_of_false hreplacement fun heq => ?_
    rw [Lead.ofByte?, if_pos (hbyte heq)] at hnone
    cases hnone
  · rename_i lead hlead
    rcases Lead.ofByte?_cases hlead with ⟨hlow, rfl⟩ | ⟨hhigh, _, owed, howed, hbits⟩
    · rw [tails_zero]
      show Char.ofNat b.toNat = c ↔ _
      constructor
      · rintro rfl
        rw [toNat_ofNat (.inl (by omega)), UInt8.ofNat_toNat]
      · rintro rfl
        rw [toNat_byte hc, Char.ofNat_toNat]
    · refine iff_of_false ?_ fun heq => absurd (hbyte heq) (by omega)
      rw [howed]
      cases htails : tails (owed + 1) lead.least lead.greatest lead.bits rest with
      | mk code left =>
        cases code with
        | none => exact hreplacement
        | some code => exact ofNat_ne (Nat.le_trans hbits (le_of_tails_succ htails)) hc hnull

theorem mem_next_iff (hc : c.toNat < 0x80) (b : UInt8) (rest : List UInt8) :
    UInt8.ofNat c.toNat ∈ (next b rest).2 ↔ UInt8.ofNat c.toNat ∈ rest := by
  unfold next
  split
  · rfl
  · rename_i lead hlead
    have hleast : 0x80 ≤ lead.least := by
      rcases Lead.ofByte?_cases hlead with ⟨_, rfl⟩ | ⟨_, hleast, _⟩
      · exact Nat.le_refl _
      · exact hleast
    exact mem_tails_iff hleast (by rw [toNat_byte hc]; exact hc)

/-- A character of ASCII is read exactly where its byte stands. -/
theorem mem_decodeLossy_iff (hc : c.toNat < 0x80) (hnull : c ≠ '\x00') {bytes : List UInt8} :
    c ∈ decodeLossy bytes ↔ UInt8.ofNat c.toNat ∈ bytes := by
  unfold decodeLossy
  fun_induction pieces bytes with
  | case1 => exact iff_of_false List.not_mem_nil List.not_mem_nil
  | case2 b rest ih =>
    rw [List.map_cons, List.mem_cons, ih, mem_next_iff hc, List.mem_cons, eq_comm,
      getD_next_eq_iff hc hnull]

end

end Utf8

/-! ### Escapes -/

namespace Percent

/-- The byte written by the two digits at the front of a text. -/
def escaped? : List Char → Option UInt8
  | high :: low :: _ => byte? high low
  | _ => none

/-- Whether decoding finds a character at the front of a text: it stands there, or an escape of it,
or a percent sign that begins no escape. -/
def Begins (c first : Char) (rest : List Char) : Prop :=
  if first = '%' then (escaped? rest).getD (UInt8.ofNat '%'.toNat) = UInt8.ofNat c.toNat
  else first = c

/-- Whether decoding finds a character somewhere in a text. -/
def Writes (c : Char) : List Char → Prop
  | [] => False
  | first :: rest => Begins c first rest ∨ Writes c rest

theorem byte?_eq_none_of_left {high low : Char} (h : hexValue? high = none) :
    byte? high low = none := by
  rw [byte?, h]

theorem byte?_eq_none_of_right {high low : Char} (h : hexValue? low = none) :
    byte? high low = none := by
  rw [byte?, h]
  cases hexValue? high <;> rfl

theorem hexValue?_percent : hexValue? '%' = none := by decide

/-- What follows a text has no part in its escapes, unless it begins with a digit. -/
theorem escaped?_append {d : Char} (hd : hexValue? d = none) (cs rest : List Char) :
    escaped? (cs ++ d :: rest) = escaped? cs := by
  cases cs with
  | nil =>
    cases rest with
    | nil => rfl
    | cons low _ => exact byte?_eq_none_of_left hd
  | cons high cs =>
    cases cs with
    | nil => exact byte?_eq_none_of_right hd
    | cons low cs => rfl

theorem begins_congr {c first : Char} {rest rest' : List Char} (h : escaped? rest = escaped? rest') :
    Begins c first rest ↔ Begins c first rest' := by
  rw [Begins, Begins, h]

theorem writes_append {c d : Char} (hd : hexValue? d = none) (cs rest : List Char) :
    Writes c (cs ++ d :: rest) ↔ Writes c cs ∨ Writes c (d :: rest) := by
  induction cs with
  | nil => exact (or_iff_right not_false).symm
  | cons first cs ih =>
    show Begins c first (cs ++ d :: rest) ∨ Writes c (cs ++ d :: rest) ↔
      (Begins c first cs ∨ Writes c cs) ∨ Writes c (d :: rest)
    rw [begins_congr (escaped?_append hd cs rest), ih, or_assoc]

section
variable {c : Char}

theorem begins_iff_eq {first : Char} (h : first ≠ '%') (rest : List Char) :
    Begins c first rest ↔ first = c := by
  rw [Begins, if_neg h]

theorem byte_inj {d : Char} (hc : c.toNat < 0x80) (hd : d.toNat < 0x80) :
    UInt8.ofNat d.toNat = UInt8.ofNat c.toNat ↔ d = c := by
  constructor
  · intro heq
    have hcode := congrArg UInt8.toNat heq
    rw [Utf8.toNat_byte hc, Utf8.toNat_byte hd] at hcode
    rw [← Char.ofNat_toNat d, hcode, Char.ofNat_toNat]
  · rintro rfl
    rfl

theorem exists_hexValue? {high low : Char} {b : UInt8} (h : byte? high low = some b) :
    hexValue? high ≠ none ∧ hexValue? low ≠ none := by
  constructor
  · intro hnone
    rw [byte?_eq_none_of_left hnone] at h
    cases h
  · intro hnone
    rw [byte?_eq_none_of_right hnone] at h
    cases h

/-- A digit of an escape is no escape itself. -/
theorem not_begins_of_hexValue? (hc : hexValue? c = none) {first : Char}
    (h : hexValue? first ≠ none) (rest : List Char) : ¬ Begins c first rest := by
  have hpercent : first ≠ '%' := by
    rintro rfl
    exact h hexValue?_percent
  rw [begins_iff_eq hpercent]
  rintro rfl
  exact h hc

/-- In a stretch of ASCII, a byte stands where its character is written. -/
theorem mem_bytes_iff (hc : c.toNat < 0x80) (hhex : hexValue? c = none) {cs : List Char}
    (ha : ∀ d ∈ cs, d.toNat < 0x80) : UInt8.ofNat c.toNat ∈ bytes cs ↔ Writes c cs := by
  fun_induction bytes cs with
  | case1 high low rest b hb ih =>
    -- The two digits belong to the escape, so neither of them is written itself.
    have hdigits := exists_hexValue? hb
    have hfirst : Begins c '%' (high :: low :: rest) ↔ b = UInt8.ofNat c.toNat := by
      rw [Begins, if_pos rfl, escaped?, hb, Option.getD_some]
    have hrest : ∀ d ∈ rest, d.toNat < 0x80 := fun d hd =>
      ha d (List.mem_cons_of_mem _ (List.mem_cons_of_mem _ (List.mem_cons_of_mem _ hd)))
    show _ ↔ Begins c '%' (high :: low :: rest) ∨
      (Begins c high (low :: rest) ∨ Begins c low rest ∨ Writes c rest)
    rw [List.mem_cons, ih hrest, hfirst, or_iff_right (not_begins_of_hexValue? hhex hdigits.1 _),
      or_iff_right (not_begins_of_hexValue? hhex hdigits.2 _), eq_comm]
  | case2 high low rest hnone ih =>
    -- A percent sign that begins no escape stands for itself.
    have hfirst : Begins c '%' (high :: low :: rest) ↔
        UInt8.ofNat '%'.toNat = UInt8.ofNat c.toNat := by
      rw [Begins, if_pos rfl, escaped?, hnone, Option.getD_none]
    show _ ↔ Begins c '%' (high :: low :: rest) ∨ Writes c (high :: low :: rest)
    rw [List.mem_cons, ih fun d hd => ha d (List.mem_cons_of_mem _ hd), hfirst, eq_comm]
  | case3 first rest hother ih =>
    have hfirst : Begins c first rest ↔ UInt8.ofNat first.toNat = UInt8.ofNat c.toNat := by
      by_cases hpercent : first = '%'
      · have hnone : escaped? rest = none := by
          unfold escaped?
          split
          · exact absurd rfl (hother _ _ _ hpercent)
          · rfl
        rw [Begins, if_pos hpercent, hnone, Option.getD_none, hpercent]
      · rw [begins_iff_eq hpercent, byte_inj hc (ha first List.mem_cons_self)]
    rw [List.mem_cons, ih fun d hd => ha d (List.mem_cons_of_mem _ hd), Writes, hfirst, eq_comm]
  | case4 => exact iff_of_false List.not_mem_nil not_false

theorem hexValue?_of_not_isAscii {d : Char} (h : ¬ isAscii d = true) : hexValue? d = none := by
  have hlarge : ¬ d.toNat < 128 := fun hlt => h (decide_eq_true hlt)
  have hle {lower upper : Char} (hupper : upper.toNat < 128) : ¬ (lower ≤ d ∧ d ≤ upper) :=
    fun hrange => hlarge (Nat.lt_of_le_of_lt hrange.2 hupper)
  rw [hexValue?, if_neg (hle (by decide)), if_neg (hle (by decide)), if_neg (hle (by decide))]

theorem hexValue?_of_isBlank {d : Char} (h : isBlank d = true) : hexValue? d = none := by
  simp only [isBlank, Bool.or_eq_true, Bool.and_eq_true, decide_eq_true_eq, beq_iff_eq] at h
  have hout {lower upper : Char} (hlower : 48 ≤ lower.toNat) (hupper : upper.toNat < 0x80) :
      ¬ (lower ≤ d ∧ d ≤ upper) := by
    rintro ⟨hmin, hmax⟩
    have hlow : lower.toNat ≤ d.toNat := hmin
    have hhigh : d.toNat ≤ upper.toNat := hmax
    omega
  rw [hexValue?, if_neg (hout (by decide) (by decide)), if_neg (hout (by decide) (by decide)),
    if_neg (hout (by decide) (by decide))]

/-- A character of ASCII that is no digit of an escape stands in a decoded text exactly where it is
written. -/
theorem mem_decodeFrom_iff (hc : c.toNat < 0x80) (hnull : c ≠ '\x00') (hhex : hexValue? c = none)
    {pending cs : List Char} (hp : ∀ d ∈ pending, d.toNat < 0x80) :
    c ∈ decodeFrom pending cs ↔ Writes c (pending.reverse ++ cs) := by
  have hstretch {pending : List Char} (hp : ∀ d ∈ pending, d.toNat < 0x80) :
      c ∈ Utf8.decodeLossy (bytes pending.reverse) ↔ Writes c pending.reverse := by
    rw [Utf8.mem_decodeLossy_iff hc hnull,
      mem_bytes_iff hc hhex fun d hd => hp d (List.mem_reverse.mp hd)]
  induction cs generalizing pending with
  | nil => rw [decodeFrom, hstretch hp, List.append_nil]
  | cons first rest ih =>
    rw [decodeFrom]
    by_cases hascii : isAscii first = true
    · rw [if_pos hascii, List.append_cons, ← List.reverse_cons]
      exact ih (List.forall_mem_cons.mpr ⟨of_decide_eq_true hascii, hp⟩)
    · -- A stretch of ASCII ends here.  What is beyond ASCII is no digit, so no escape goes on past it.
      have hfirst : first ≠ c := by
        rintro rfl
        exact hascii (decide_eq_true hc)
      have hpercent : first ≠ '%' := by
        rintro rfl
        exact hascii (by decide)
      have hnone : ¬ Begins c first rest := by
        rw [begins_iff_eq hpercent]
        exact hfirst
      have hrest : c ∈ decodeFrom [] rest ↔ Writes c rest :=
        ih fun _ hd => absurd hd List.not_mem_nil
      rw [if_neg hascii, List.mem_append, hstretch hp, List.mem_cons, hrest,
        or_iff_right hfirst.symm, writes_append (hexValue?_of_not_isAscii hascii), Writes,
        or_iff_right hnone]

theorem mem_decode_iff (hc : c.toNat < 0x80) (hnull : c ≠ '\x00') (hhex : hexValue? c = none)
    (cs : List Char) : c ∈ decode cs ↔ Writes c cs :=
  mem_decodeFrom_iff hc hnull hhex fun _ hd => absurd hd List.not_mem_nil

/-- What a text is cut short by at its end writes no character before it. -/
theorem writes_of_dropRightWhile {p : Char → Bool} (hp : ∀ d, p d = true → hexValue? d = none)
    {cs : List Char} (h : Writes c (dropRightWhile p cs)) : Writes c cs := by
  have hparts : dropRightWhile p cs ++ (cs.reverse.takeWhile p).reverse = cs := by
    rw [dropRightWhile, ← List.reverse_append, List.takeWhile_append_dropWhile, List.reverse_reverse]
  cases htail : (cs.reverse.takeWhile p).reverse with
  | nil =>
    rw [htail, List.append_nil] at hparts
    rwa [hparts] at h
  | cons d rest =>
    have hd : d ∈ cs.reverse.takeWhile p := by
      rw [← List.mem_reverse, htail]
      exact List.mem_cons_self
    rw [htail] at hparts
    rw [← hparts, writes_append (hp d (List.mem_takeWhile_imp hd))]
    exact .inl h

/-! ### Replaced texts -/

section
variable {mark digit new : Char} {cs ds : List Char}

/-- Replacing keeps the digit that a text begins with. -/
theorem head_of_replaced (hmark : hexValue? mark = none) (hnew : hexValue? new = none)
    (h : Replaced [mark, digit] [new] cs ds) :
    cs.head?.bind hexValue? = ds.head?.bind hexValue? := by
  cases h with
  | nil => rfl
  | found rest => exact hmark.trans hnew.symm
  | kept rest => rfl

theorem escaped?_of_replaced (hmark : hexValue? mark = none) (hnew : hexValue? new = none)
    (h : Replaced [mark, digit] [new] cs ds) : escaped? cs = escaped? ds := by
  have hfront {d : Char} (hd : hexValue? d = none) (cs : List Char) : escaped? (d :: cs) = none :=
    escaped?_append hd [] cs
  cases h with
  | nil => rfl
  | found rest => exact (hfront hmark _).trans (hfront hnew _).symm
  | @kept first cs ds rest =>
    have hhead := head_of_replaced hmark hnew rest
    cases cs with
    | nil =>
      cases ds with
      | nil => rfl
      | cons d ds => exact (byte?_eq_none_of_right hhead.symm).symm
    | cons d cs =>
      cases ds with
      | nil => exact byte?_eq_none_of_right hhead
      | cons d' ds =>
        have hvalue : hexValue? d = hexValue? d' := hhead
        show byte? first d = byte? first d'
        rw [byte?, byte?, hvalue]

/-- Replacing a pair of characters, none of which is a percent sign, by one that is no digit leaves
all other characters written as before. -/
theorem writes_iff_of_replaced (hmark : hexValue? mark = none) (hnew : hexValue? new = none)
    (hpercent : '%' ∉ [mark, digit, new]) (hc : c ∉ [mark, digit, new])
    (h : Replaced [mark, digit] [new] cs ds) : Writes c cs ↔ Writes c ds := by
  have hnone {d : Char} (hd : d ∈ [mark, digit, new]) (rest : List Char) : ¬ Begins c d rest := by
    have hne : d ≠ '%' := fun heq => hpercent (heq ▸ hd)
    rw [begins_iff_eq hne]
    exact fun heq => hc (heq ▸ hd)
  induction h with
  | nil => rfl
  | @found cs ds rest ih =>
    show Begins c mark (digit :: cs) ∨ Begins c digit cs ∨ Writes c cs ↔
      Begins c new ds ∨ Writes c ds
    rw [or_iff_right (hnone (by simp) _), or_iff_right (hnone (by simp) _),
      or_iff_right (hnone (by simp) _)]
    exact ih
  | @kept first cs ds rest ih =>
    exact or_congr (begins_congr (escaped?_of_replaced hmark hnew rest)) ih

end

end

end Percent
end OpenApi.Text
