import OpenApi.Text.Utf8

/-
Percent-decoding: `%` and two hexadecimal digits stand for a byte.

Each stretch of ASCII characters is turned into bytes and read as UTF-8 on its own; a character
outside ASCII stands for itself.  A percent sign that is not followed by two hexadecimal digits
stands for itself too, so every text can be decoded.
-/
namespace OpenApi.Text.Percent

def hexValue? (c : Char) : Option Nat :=
  if '0' ≤ c ∧ c ≤ '9' then some (c.toNat - '0'.toNat)
  else if 'a' ≤ c ∧ c ≤ 'f' then some (c.toNat - 'a'.toNat + 10)
  else if 'A' ≤ c ∧ c ≤ 'F' then some (c.toNat - 'A'.toNat + 10)
  else none

def byte? (high low : Char) : Option UInt8 :=
  match hexValue? high, hexValue? low with
  | some h, some l => some (UInt8.ofNat (h * 16 + l))
  | _, _ => none

/-- The bytes of a stretch of ASCII characters. -/
def bytes : List Char → List UInt8
  | '%' :: high :: low :: rest =>
    match byte? high low with
    | some b => b :: bytes rest
    | none => UInt8.ofNat '%'.toNat :: bytes (high :: low :: rest)
  | c :: rest => UInt8.ofNat c.toNat :: bytes rest
  | [] => []

theorem length_bytes_le (cs : List Char) : (bytes cs).length ≤ cs.length := by
  fun_induction bytes cs with
  | case1 high low rest b _ ih => simp only [List.length_cons]; omega
  | case2 high low rest _ ih => simp only [List.length_cons] at ih ⊢; omega
  | case3 c rest _ ih => simp only [List.length_cons]; omega
  | case4 => exact Nat.le_refl _

def isAscii (c : Char) : Bool := c.toNat < 128

/-- Decode a text: `pending` is the stretch of ASCII characters read so far, last one first. -/
def decodeFrom (pending : List Char) : List Char → List Char
  | [] => Utf8.decodeLossy (bytes pending.reverse)
  | c :: rest =>
    if isAscii c then decodeFrom (c :: pending) rest
    else Utf8.decodeLossy (bytes pending.reverse) ++ c :: decodeFrom [] rest

/-- Replace every percent escape by the byte it writes, reading the bytes as UTF-8. -/
def decode (cs : List Char) : List Char := decodeFrom [] cs

theorem length_decodeFrom_le (pending cs : List Char) :
    (decodeFrom pending cs).length ≤ pending.length + cs.length := by
  induction cs generalizing pending with
  | nil =>
    have := Utf8.length_decodeLossy_le (bytes pending.reverse)
    have := length_bytes_le pending.reverse
    simp only [decodeFrom, List.length_reverse, List.length_nil] at *
    omega
  | cons c rest ih =>
    simp only [decodeFrom]
    split
    · have := ih (c :: pending)
      simp only [List.length_cons] at *
      omega
    · have := Utf8.length_decodeLossy_le (bytes pending.reverse)
      have := length_bytes_le pending.reverse
      have := ih []
      simp only [List.length_append, List.length_cons, List.length_reverse, List.length_nil] at *
      omega

/-- Decoding never makes a text longer: an escape is longer than the byte it writes, and a
character has at least one byte. -/
theorem length_decode_le (cs : List Char) : (decode cs).length ≤ cs.length := by
  simpa [decode] using length_decodeFrom_le [] cs

end OpenApi.Text.Percent
