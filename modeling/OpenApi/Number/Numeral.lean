import OpenApi.Number.Basic
import OpenApi.Text.Blank
import OpenApi.Text.Digit

/-
Reading numerals.

A decimal numeral is a stretch of ASCII digits; its value is built up from the left.  Signed
numerals in running text are more liberal: digits of any script, white space around them, and single
underscores between digits.
-/
namespace OpenApi.Numeral

/-- The value of a character in a base of at most sixteen. -/
def digit? (base : Nat) (c : Char) : Option Nat :=
  let value :=
    if '0' ≤ c ∧ c ≤ '9' then some (c.toNat - '0'.toNat)
    else if 'a' ≤ c ∧ c ≤ 'f' then some (c.toNat - 'a'.toNat + 10)
    else if 'A' ≤ c ∧ c ≤ 'F' then some (c.toNat - 'A'.toNat + 10)
    else none
  value.filter (· < base)

/-- The value of digits in a base; other characters count as zero. -/
def valueIn (base : Nat) (cs : List Char) : Nat :=
  cs.foldl (fun n c => n * base + (digit? base c).getD 0) 0

def value (cs : List Char) : Nat := valueIn 10 cs

theorem value_nil : value [] = 0 := rfl

theorem valueIn_append_singleton (base : Nat) (cs : List Char) (c : Char) :
    valueIn base (cs ++ [c]) = valueIn base cs * base + (digit? base c).getD 0 := by
  simp [valueIn]

/-- A sign in front of a text, and the text without it. -/
def sign : List Char → Bool × List Char
  | '-' :: rest => (true, rest)
  | '+' :: rest => (false, rest)
  | cs => (false, cs)

def negateIf (negative : Bool) (n : Nat) : Int := if negative then -n else n

/-- The double that a numeral with digits before and after the point and an exponent names. -/
def double (negative : Bool) (whole fraction : List Char) (exponent : Int) : Double :=
  Double.ofDecimal negative (value (whole ++ fraction)) (exponent - fraction.length)

/-- White space that may surround a signed numeral: all but the four separators. -/
def isPadding (c : Char) : Bool := Text.isBlank c && !(28 ≤ c.toNat && c.toNat ≤ 31)

/-- The value of a digit of any script in a base. -/
def place? (base : Nat) (c : Char) : Option Nat :=
  ((Text.decimalValue? c).orElse fun _ => digit? base c).filter (· < base)

/-- The values of digits, with single underscores between them. -/
def digits? (base : Nat) : List Char → Option (List Nat)
  | [] => none
  | [c] => (place? base c).map ([·])
  | c :: '_' :: rest =>
    match place? base c, digits? base rest with
    | some d, some ds => some (d :: ds)
    | _, _ => none
  | c :: rest =>
    match place? base c, digits? base rest with
    | some d, some ds => some (d :: ds)
    | _, _ => none

def unpad (cs : List Char) : List Char := Text.trimBy isPadding cs

/-- A numeral without the mark of its base in front. -/
def unmark (base : Nat) (cs : List Char) : List Char :=
  match cs with
  | '0' :: mark :: rest =>
    if (base, mark.toLower) ∈ [(2, 'b'), (8, 'o'), (16, 'x')] then rest else cs
  | _ => cs

/-- The integer that a text names in the liberal notation. -/
def signedIn? (base : Nat) (cs : List Char) : Option Int :=
  let (negative, rest) := sign (unpad cs)
  match digits? base (unmark base rest) with
  | none => none
  | some ds =>
    if base = 10 ∧ ds.length > Number.longest then none
    else some (negateIf negative (ds.foldl (fun n d => n * base + d) 0))

def signed? (cs : List Char) : Option Int := signedIn? 10 cs

/-- Words for what a double may be besides a number. -/
def doubleWords (negative : Bool) : List (String × Double) :=
  [("inf", .infinite negative), ("infinity", .infinite negative), ("nan", .nan)]

/-- The exponent of a numeral, and nothing if it has a mark but no digits. -/
def power? (cs : List Char) : Option Int :=
  match cs with
  | [] => some 0
  | _ :: signed =>
    let (negative, digits) := sign signed
    if !digits.isEmpty && digits.all Char.isDigit then some (negateIf negative (value digits))
    else none

/-- The double that a text names: a word, or decimal digits with a point and an exponent, and
digits of any script. -/
def double? (cs : List Char) : Option Double :=
  let (negative, text) := sign (unpad cs)
  match (doubleWords negative).find? fun (word, _) => word.toList == text.map Char.toLower with
  | some (_, x) => some x
  | none =>
    let plain := text.map fun c =>
      match Text.decimalValue? c with
      | some d => Char.ofNat ('0'.toNat + d)
      | none => c
    let whole := plain.takeWhile Char.isDigit
    let afterWhole := plain.dropWhile Char.isDigit
    let (fraction, afterFraction) := match afterWhole with
      | '.' :: rest => (rest.takeWhile Char.isDigit, rest.dropWhile Char.isDigit)
      | _ => ([], afterWhole)
    if whole.isEmpty && fraction.isEmpty then none
    else if afterFraction.head?.all fun c => c == 'e' || c == 'E' then
      (power? afterFraction).map (double negative whole fraction)
    else none

end OpenApi.Numeral
