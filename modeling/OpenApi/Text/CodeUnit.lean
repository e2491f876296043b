import OpenApi.Text.Utf8

/-
Characters that are named by numbers in escapes.  A character beyond the first plane may be named
by the two halves of a surrogate pair, one after the other.
-/
namespace OpenApi.Text.CodeUnit

def isHighSurrogate (n : Nat) : Bool := 0xD800 ≤ n && n < 0xDC00

def isLowSurrogate (n : Nat) : Bool := 0xDC00 ≤ n && n < 0xE000

/-- The characters of code units: a high and a low surrogate make up one character, and half a pair
alone is replaced. -/
def decode : List Nat → List Char
  | [] => []
  | [n] => [if isHighSurrogate n || isLowSurrogate n then Utf8.replacement else Char.ofNat n]
  | high :: low :: rest =>
    if isHighSurrogate high && isLowSurrogate low then
      Char.ofNat (0x10000 + (high - 0xD800) * 0x400 + (low - 0xDC00)) :: decode rest
    else if isHighSurrogate high || isLowSurrogate high then
      Utf8.replacement :: decode (low :: rest)
    else Char.ofNat high :: decode (low :: rest)

theorem length_decode_le : ∀ units : List Nat, (decode units).length ≤ units.length
  | [] => Nat.le_refl _
  | [_] => Nat.le_refl _
  | high :: low :: rest => by
    have pair := length_decode_le rest
    have half := length_decode_le (low :: rest)
    simp only [decode]
    split
    · simp only [List.length_cons]; omega
    · split <;> simp only [List.length_cons] at half ⊢ <;> omega

end OpenApi.Text.CodeUnit
