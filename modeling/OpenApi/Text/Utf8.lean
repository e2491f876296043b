/-
Reading bytes as UTF-8.

A character begins with a lead byte, which fixes how many further bytes are owed and the bounds of
the first of them; the others lie between 0x80 and 0xBF.  Bytes that begin no character are either
refused or stand for one replacement character.  An ill-formed piece ends before the first byte
that cannot continue it, so no byte of a later character is lost.
-/
namespace OpenApi.Text.Utf8

/-- What a lead byte asks for: the bits it contributes, the bytes owed, and the least and the
greatest value of the first of them. -/
structure Lead where
  bits : Nat
  owed : Nat
  least : Nat
  greatest : Nat

def Lead.ofByte? (b : Nat) : Option Lead :=
  if b < 0x80 then some ⟨b, 0, 0x80, 0xBF⟩
  else if b < 0xC2 then none
  else if b < 0xE0 then some ⟨b - 0xC0, 1, 0x80, 0xBF⟩
  else if b = 0xE0 then some ⟨0, 2, 0xA0, 0xBF⟩
  else if b = 0xED then some ⟨0xD, 2, 0x80, 0x9F⟩
  else if b < 0xF0 then some ⟨b - 0xE0, 2, 0x80, 0xBF⟩
  else if b = 0xF0 then some ⟨0, 3, 0x90, 0xBF⟩
  else if b < 0xF4 then some ⟨b - 0xF0, 3, 0x80, 0xBF⟩
  else if b = 0xF4 then some ⟨4, 3, 0x80, 0x8F⟩
  else none

/-- Read the bytes owed after a lead byte.  The first component is the code point, or nothing if
the bytes do not complete it; the second is what is left. -/
def tails : (owed least greatest bits : Nat) → List UInt8 → Option Nat × List UInt8
  | 0, _, _, bits, bytes => (some bits, bytes)
  | _ + 1, _, _, _, [] => (none, [])
  | owed + 1, least, greatest, bits, b :: rest =>
    if least ≤ b.toNat ∧ b.toNat ≤ greatest then
      tails owed 0x80 0xBF (bits * 64 + (b.toNat - 0x80)) rest
    else (none, b :: rest)

theorem length_tails_le : ∀ (owed least greatest bits : Nat) (bytes : List UInt8),
    (tails owed least greatest bits bytes).2.length ≤ bytes.length
  | 0, _, _, _, _ => Nat.le_refl _
  | _ + 1, _, _, _, [] => Nat.le_refl _
  | owed + 1, least, greatest, bits, b :: rest => by
    simp only [tails]
    split
    · exact Nat.le_succ_of_le (length_tails_le owed 0x80 0xBF _ rest)
    · exact Nat.le_refl _

/-- One character, or nothing for an ill-formed piece, and the bytes after it. -/
def next (b : UInt8) (rest : List UInt8) : Option Char × List UInt8 :=
  match Lead.ofByte? b.toNat with
  | none => (none, rest)
  | some lead =>
    let (code, left) := tails lead.owed lead.least lead.greatest lead.bits rest
    (code.map Char.ofNat, left)

theorem length_next_le (b : UInt8) (rest : List UInt8) :
    (next b rest).2.length ≤ rest.length := by
  unfold next
  split
  · exact Nat.le_refl _
  · exact length_tails_le _ _ _ _ _

/-- The characters of the bytes, each ill-formed piece as nothing. -/
def pieces : List UInt8 → List (Option Char)
  | [] => []
  | b :: rest => (next b rest).1 :: pieces (next b rest).2
termination_by bytes => bytes.length
decreasing_by
  have := length_next_le b rest
  simp only [List.length_cons]
  omega

theorem length_pieces_le (bytes : List UInt8) : (pieces bytes).length ≤ bytes.length := by
  fun_induction pieces bytes with
  | case1 => exact Nat.le_refl _
  | case2 b rest ih =>
    have := length_next_le b rest
    simp only [List.length_cons]
    omega

/-- What stands in a text for bytes that are no character. -/
def replacement : Char := Char.ofNat 0xFFFD

/-- The text of the bytes, with a replacement character for each ill-formed piece. -/
def decodeLossy (bytes : List UInt8) : List Char :=
  (pieces bytes).map (·.getD replacement)

/-- The text of the bytes, if they are well formed. -/
def decode? (bytes : List UInt8) : Option (List Char) :=
  (pieces bytes).mapM id

def encodeChar (c : Char) : List UInt8 :=
  let n := c.toNat
  let tail (unit : Nat) : UInt8 := UInt8.ofNat (0x80 + n / unit % 64)
  if n < 0x80 then [UInt8.ofNat n]
  else if n < 0x800 then [UInt8.ofNat (0xC0 + n / 64), tail 1]
  else if n < 0x10000 then [UInt8.ofNat (0xE0 + n / 4096), tail 64, tail 1]
  else [UInt8.ofNat (0xF0 + n / 262144), tail 4096, tail 64, tail 1]

def encode (cs : List Char) : List UInt8 := cs.flatMap encodeChar

theorem length_decodeLossy_le (bytes : List UInt8) :
    (decodeLossy bytes).length ≤ bytes.length := by
  simpa [decodeLossy] using length_pieces_le bytes

end OpenApi.Text.Utf8
