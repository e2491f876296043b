import OpenApi.Number.Double
import OpenApi.Text.Blank

/-
The shortest text of a double.

The reals that round to a double form an interval around it.  The text is made of the fewest
decimal digits that name a point of that interval and, of those, of the digits nearest to the
double.  How the digits are laid out is a value of its own, `Layout`.
-/
namespace OpenApi.Double

/-- The interval of reals that round to a positive double, and the double itself, in one unit:
each is the given number divided by `den`.  The ends belong to it if `closed`. -/
structure Interval where
  low : Nat
  value : Nat
  high : Nat
  den : Nat
  closed : Bool

/-- Half a unit to either side; below a power of two the units are half as wide. -/
def interval (mantissa : Nat) (exponent : Int) : Interval :=
  let scale := Nat.pow 2 (exponent - 2).toNat
  let below := if mantissa = leastFull ∧ exponent ≠ -1074 then 1 else 2
  { low := (4 * mantissa - below) * scale
    value := 4 * mantissa * scale
    high := (4 * mantissa + 2) * scale
    den := Nat.pow 2 (2 - exponent).toNat
    closed := mantissa % 2 = 0 }

def Interval.holds (i : Interval) (num den : Nat) : Bool :=
  let x := num * i.den
  let low := i.low * den
  let high := i.high * den
  if i.closed then low ≤ x && x ≤ high else low < x && x < high

/-- The number of digits before the decimal point of `num / den`; for a number below one, minus
the number of zeros after the point. -/
def pointPlace (num den : Nat) : Int :=
  if den ≤ num then width (num / den)
  else
    let guess : Int := 1 - width (den / num)
    if num * Nat.pow 10 (-guess).toNat ≥ den then guess + 1 else guess

/-- Of the two neighbours of the value on the grid of multiples of `10 ^ power`, the nearest one
that the interval holds, counted in grid steps. -/
def Interval.onGrid? (i : Interval) (power : Int) : Option Nat :=
  let up := Nat.pow 10 (-power).toNat
  let down := Nat.pow 10 power.toNat
  let below := i.value * up / (i.den * down)
  let belowFits := i.holds (below * down) up && below != 0
  let aboveFits := i.holds ((below + 1) * down) up
  let rest := 2 * (i.value * up % (i.den * down))
  let nearer := rest < i.den * down || (rest == i.den * down && below % 2 == 0)
  match belowFits, aboveFits with
  | true, true => some (if nearer then below else below + 1)
  | true, false => some below
  | false, true => some (below + 1)
  | false, false => none

/-- Try grids with more and more digits, `left` of them at most. -/
def Interval.search (i : Interval) (place : Int) : (left count : Nat) → Nat × Int
  | 0, count => (i.value / i.den, place - count)
  | left + 1, count =>
    match i.onGrid? (place - count) with
    | some digits => (digits, place - count)
    | none => i.search place left (count + 1)

/-- The shortest decimal that reads back as the double: digits and power of ten.  Seventeen digits
always suffice. -/
def shortest (mantissa : Nat) (exponent : Int) : Nat × Int :=
  let i := interval mantissa exponent
  i.search (pointPlace i.value i.den) 17 1

structure Layout where
  /-- The least place of the decimal point that is still written without an exponent. -/
  positionalFrom : Int
  /-- The greatest place of the decimal point that is still written without an exponent. -/
  positionalTo : Int
  exponentDigits : Nat
  notANumber : String
  infinity : String

/-- Plain text: from `0.0001` to `9999999999999998.0` positionally, else as `1e-05` and `1e+16`. -/
def Layout.plain : Layout := ⟨-3, 16, 2, "nan", "inf"⟩

/-- JSON text: as plain text, with words for what JSON has no numeral for. -/
def Layout.json : Layout := { Layout.plain with notANumber := "NaN", infinity := "Infinity" }

def digitChars (n : Nat) : List Char := Nat.toDigits 10 n

/-- Digits without the zeros at their end. -/
def trimZeros (ds : List Char) : List Char := Text.dropRightWhile (· == '0') ds

/-- Lay out digits with the decimal point after the first `place` of them. -/
def Layout.positional (ds : List Char) (place : Int) : List Char :=
  if place ≤ 0 then
    "0.".toList ++ List.replicate (-place).toNat '0' ++ ds
  else
    let whole := ds.take place.toNat
    let fraction := ds.drop place.toNat
    whole ++ List.replicate (place.toNat - whole.length) '0' ++ '.' ::
      (if fraction.isEmpty then ['0'] else fraction)

def Layout.scientific (l : Layout) (ds : List Char) (place : Int) : List Char :=
  let power := place - 1
  let shown := digitChars power.natAbs
  let mantissa := match ds with
    | [] => ['0']
    | [d] => [d]
    | d :: rest => d :: '.' :: rest
  mantissa ++ 'e' :: (if power < 0 then '-' else '+') ::
    (List.replicate (l.exponentDigits - shown.length) '0' ++ shown)

def Layout.magnitude (l : Layout) (mantissa : Nat) (exponent : Int) : List Char :=
  if mantissa = 0 then "0.0".toList
  else
    let (digits, power) := shortest mantissa exponent
    let shown := digitChars digits
    let place := shown.length + power
    let ds := trimZeros shown
    if l.positionalFrom ≤ place ∧ place ≤ l.positionalTo then Layout.positional ds place
    else l.scientific ds place

def signed (negative : Bool) (cs : List Char) : List Char := if negative then '-' :: cs else cs

def write (l : Layout) : Double → List Char
  | .nan => l.notANumber.toList
  | .infinite negative => signed negative l.infinity.toList
  | .finite negative mantissa exponent _ => signed negative (l.magnitude mantissa exponent)

def text (x : Double) : String := String.ofList (x.write .plain)

end OpenApi.Double
