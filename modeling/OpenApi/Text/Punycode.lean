import OpenApi.Text.Utf8

/-
Words of any script in small letters, digits and hyphens.

What a word has of ASCII stands first, with a hyphen after it if there is any.  Then there is a
number for each other character, in the order of their codes and, for the same code, of their
places: it counts the places and codes that are passed over on the way to the character.  The
digits of a number are letters and figures, the least one first.  A digit below the threshold of its
position ends the number, and thresholds follow the size of the numbers so far.
-/
namespace OpenApi.Text.Punycode

def threshold (bias position : Nat) : Nat := min 26 (max 1 (36 * (position + 1) - bias))

theorem threshold_pos (bias position : Nat) : 0 < threshold bias position := by
  unfold threshold
  omega

/-- A bias for numbers of about the given size: `bias` and more for every time that it is still
large. -/
def biasFor (size bias : Nat) : Nat :=
  if 455 < size then biasFor (size / 35) (bias + 36) else bias + 36 * size / (size + 38)
termination_by size
decreasing_by omega

/-- The bias after a number, when the word has `count` characters.  The first number is larger than
those that follow it. -/
def nextBias (number : Nat) (isFirst : Bool) (count : Nat) : Nat :=
  let size := if isFirst then number / 700 else number / 2
  biasFor (size + size / count) 0

/-! ### Writing -/

def digitChar (digit : Nat) : Char :=
  if digit < 26 then Char.ofNat ('a'.toNat + digit) else Char.ofNat ('0'.toNat + (digit - 26))

/-- The digits of a number, from a position on. -/
def numberChars (bias position number : Nat) : List Char :=
  let least := threshold bias position
  if number < least then [digitChar number]
  else
    let above := number - least
    digitChar (least + above % (36 - least)) ::
      numberChars bias (position + 1) (above / (36 - least))
termination_by number
decreasing_by
  have := threshold_pos bias position
  exact Nat.lt_of_le_of_lt (Nat.div_le_self _ _) (by omega)

/-- What has been written of a word. -/
structure Writing where
  written : List Char := []
  /-- The places and codes that have been passed over since the last character. -/
  passed : Nat := 0
  bias : Nat := 72
  isFirst : Bool := true
  /-- The number of characters that are there already. -/
  count : Nat

/-- Pass over a character of the word, or write it if it has the code whose turn it is. -/
def Writing.meet (code : Nat) (w : Writing) (c : Char) : Writing :=
  if c.toNat < code then { w with passed := w.passed + 1 }
  else if c.toNat = code then
    { written := w.written ++ numberChars w.bias 0 w.passed
      passed := 0
      bias := nextBias w.passed w.isFirst (w.count + 1)
      isFirst := false
      count := w.count + 1 }
  else w

/-- Write the characters of a word that have the given codes, all codes below `next` being done. -/
def Writing.writeCodes (word : List Char) (next : Nat) (w : Writing) : List Nat → Writing
  | [] => w
  | code :: rest =>
    let start := { w with passed := w.passed + (code - next) * (w.count + 1) }
    let done := word.foldl (Writing.meet code) start
    writeCodes word (code + 1) { done with passed := done.passed + 1 } rest

def isPlain (c : Char) : Bool := c.toNat < 128

def encode (word : List Char) : List Char :=
  let plain := word.filter isPlain
  let codes := (((word.filter (!isPlain ·)).map Char.toNat).mergeSort (· ≤ ·)).eraseDups
  let writing := Writing.writeCodes word 128 { count := plain.length } codes
  plain ++ (if plain.isEmpty then [] else ['-']) ++ writing.written

/-! ### Reading -/

def digit? (c : Char) : Option Nat :=
  if 'a' ≤ c ∧ c ≤ 'z' then some (c.toNat - 'a'.toNat)
  else if 'A' ≤ c ∧ c ≤ 'Z' then some (c.toNat - 'A'.toNat)
  else if '0' ≤ c ∧ c ≤ '9' then some (c.toNat - '0'.toNat + 26)
  else none

/-- The number at the front of a text, from a position on, and what follows it. -/
def number? (bias position weight : Nat) : List Char → Option (Nat × List Char)
  | [] => none
  | c :: rest =>
    match digit? c with
    | none => none
    | some digit =>
      let least := threshold bias position
      if digit < least then some (digit * weight, rest)
      else
        (number? bias (position + 1) (weight * (36 - least)) rest).map fun (more, rest) =>
          (digit * weight + more, rest)

theorem length_number?_lt {bias position weight : Nat} {cs rest : List Char} {n : Nat}
    (h : number? bias position weight cs = some (n, rest)) : rest.length < cs.length := by
  induction cs generalizing position weight n rest with
  | nil => simp [number?] at h
  | cons c cs ih =>
    simp only [number?] at h
    split at h
    · simp at h
    · split at h
      · simp_all
      · obtain ⟨⟨more, tail⟩, found, same⟩ := Option.map_eq_some_iff.mp h
        have := ih found
        simp only [Prod.mk.injEq] at same
        obtain ⟨-, rfl⟩ := same
        exact Nat.lt_succ_of_lt this

/-- The character with a code.  Halves of pairs have codes, but are no characters. -/
def char? (code : Nat) : Option Char :=
  if code.isValidChar then some (Char.ofNat code)
  else if code < 0x110000 then some Utf8.replacement
  else none

/-- Put the characters that numbers stand for into what has been read of a word.  The last one that
was put there has the given code, and `place` is the place after it. -/
def insertAll (word : List Char) (code place bias : Nat) (isFirst : Bool) (cs : List Char) :
    Option (List Char) :=
  if cs.isEmpty then some word
  else
    match _found : number? bias 0 1 cs with
    | none => none
    | some (number, rest) =>
      let count := word.length + 1
      let next := place + number
      match char? (code + next / count) with
      | none => none
      | some c =>
        insertAll (word.insertIdx (next % count) c) (code + next / count) (next % count + 1)
          (nextBias number isFirst count) false rest
termination_by cs.length
decreasing_by exact length_number?_lt _found

/-- Read a word.  What stands before its last hyphen is ASCII. -/
def decode? (cs : List Char) : Option (List Char) :=
  let numbers := (cs.reverse.takeWhile (· != '-')).reverse
  let plain := ((cs.reverse.dropWhile (· != '-')).drop 1).reverse
  insertAll plain 128 0 72 true numbers

end OpenApi.Text.Punycode
