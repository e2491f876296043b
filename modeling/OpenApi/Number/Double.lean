/-
Double-precision numbers as exact values: a sign, a mantissa and a power of two.

A document may hold numbers with a fraction, and what is written for one of them depends on the
nearest double and on nothing else.  All arithmetic here is on natural numbers, so that reading,
comparing and writing a number are functions that can be reasoned about.
-/
namespace OpenApi

/-- The least number of 53 bits. -/
def Double.leastFull : Nat := 0x10000000000000

/-- A mantissa and an exponent that belong together: at most 53 bits, and all 53 of them in use
unless the exponent is the smallest there is.  Each value then has one representation. -/
def Double.Canonical (mantissa : Nat) (exponent : Int) : Prop :=
  mantissa < 2 * leastFull ∧ -1074 ≤ exponent ∧ exponent ≤ 971 ∧
    (leastFull ≤ mantissa ∨ exponent = -1074)

instance (mantissa : Nat) (exponent : Int) : Decidable (Double.Canonical mantissa exponent) := by
  unfold Double.Canonical
  infer_instance

/-- A double: `mantissa * 2 ^ exponent` with a sign, an infinity, or no number at all. -/
inductive Double where
  | nan
  | infinite (negative : Bool)
  | finite (negative : Bool) (mantissa : Nat) (exponent : Int)
      (canonical : Double.Canonical mantissa exponent)
  deriving DecidableEq

namespace Double

instance : Inhabited Double := ⟨.nan⟩

def zero (negative : Bool) : Double := .finite negative 0 (-1074) (by decide)

/-- The natural number nearest to a quotient; a half goes to the even neighbour. -/
def nearest (num den : Nat) : Nat :=
  let floor := num / den
  let twice := 2 * (num % den)
  if twice < den then floor
  else if twice > den then floor + 1
  else if floor % 2 = 0 then floor
  else floor + 1

/-- A quotient measured in units of `2 ^ exponent`, as a quotient again. -/
def inUnits (num den : Nat) (exponent : Int) : Nat × Nat :=
  (num * Nat.pow 2 (-exponent).toNat, den * Nat.pow 2 exponent.toNat)

/-- The exponent of the unit in which a positive quotient has a mantissa of 53 bits, or the
smallest exponent if the quotient is too small for that. -/
def unitExponent (num den : Nat) : Int :=
  let guess : Int := (Nat.log2 num : Int) - Nat.log2 den - 53
  let (n, d) := inUnits num den guess
  max (if n / d < 2 * leastFull then guess else guess + 1) (-1074)

/-- The double nearest to a quotient; a tie goes to the even mantissa, and what lies beyond the
largest double is infinite. -/
def ofQuotient (negative : Bool) (num den : Nat) : Double :=
  if num = 0 then zero negative
  else
    let unit := unitExponent num den
    let (n, d) := inUnits num den unit
    let rounded := nearest n d
    let (mantissa, exponent) :=
      if rounded = 2 * leastFull then (leastFull, unit + 1) else (rounded, unit)
    if h : Canonical mantissa exponent then .finite negative mantissa exponent h
    else .infinite negative

def width (n : Nat) : Nat := (Nat.toDigits 10 n).length

/-- The double nearest to `digits * 10 ^ exponent`.  Powers far outside the range are not
computed: their result is known to be infinite or zero. -/
def ofDecimal (negative : Bool) (digits : Nat) (exponent : Int) : Double :=
  if digits = 0 then zero negative
  else
    let size := width digits + exponent
    if size > 400 then .infinite negative
    else if size < -400 then zero negative
    else ofQuotient negative (digits * Nat.pow 10 exponent.toNat) (Nat.pow 10 (-exponent).toNat)

def ofInt (n : Int) : Double := ofQuotient (n < 0) n.natAbs 1

/-- A finite value as a quotient of an integer and a power of two. -/
def quotient? : Double → Option (Int × Nat)
  | .finite negative mantissa exponent _ =>
    let size : Int := (mantissa * Nat.pow 2 exponent.toNat : Nat)
    some (if negative then -size else size, Nat.pow 2 (-exponent).toNat)
  | _ => none

/-- The integer that a double equals, if it equals one. -/
def toInt? (x : Double) : Option Int :=
  match x.quotient? with
  | some (num, den) => if num % den = 0 then some (num / den) else none
  | none => none

/-- Order of the numbers, where two numbers that cannot be ordered give nothing. -/
def compare? (x y : Double) : Option Ordering :=
  match x, y with
  | .nan, _ => none
  | _, .nan => none
  | .infinite a, .infinite b => some (if a = b then .eq else if a then .lt else .gt)
  | .infinite a, _ => some (if a then .lt else .gt)
  | _, .infinite b => some (if b then .gt else .lt)
  | .finite .., .finite .. =>
    match x.quotient?, y.quotient? with
    | some (a, b), some (c, d) => some (compare (a * d) (c * b))
    | _, _ => none

def compareInt? (x : Double) (n : Int) : Option Ordering :=
  match x with
  | .nan => none
  | .infinite negative => some (if negative then .lt else .gt)
  | .finite .. => x.quotient?.map fun (a, b) => compare a (n * b)

/-- Equality of numbers: a value that is no number equals nothing, and zero has no sign. -/
def equals (x y : Double) : Bool := x.compare? y == some .eq

def equalsInt (x : Double) (n : Int) : Bool := x.compareInt? n == some .eq

def isNegative : Double → Bool
  | .nan => false
  | .infinite negative => negative
  | .finite negative .. => negative

def neg : Double → Double
  | .nan => .nan
  | .infinite negative => .infinite !negative
  | .finite negative mantissa exponent h => .finite (!negative) mantissa exponent h

def ofRatio (num : Int) (den : Nat) : Double := ofQuotient (num < 0) num.natAbs den

/-- The rounded sum.  A sum that is zero is negative only if both numbers are. -/
def add (x y : Double) : Double :=
  match x, y with
  | .nan, _ => .nan
  | _, .nan => .nan
  | .infinite a, .infinite b => if a = b then .infinite a else .nan
  | .infinite a, _ => .infinite a
  | _, .infinite b => .infinite b
  | .finite .., .finite .. =>
    match x.quotient?, y.quotient? with
    | some (a, b), some (c, d) =>
      let sum := a * d + c * b
      if sum = 0 then zero (x.isNegative && y.isNegative) else ofRatio sum (b * d)
    | _, _ => .nan

def mul (x y : Double) : Double :=
  let negative := x.isNegative != y.isNegative
  match x, y with
  | .nan, _ => .nan
  | _, .nan => .nan
  | .infinite _, y => if y.equalsInt 0 then .nan else .infinite negative
  | x, .infinite _ => if x.equalsInt 0 then .nan else .infinite negative
  | .finite _ m e _, .finite _ n f _ =>
    ofQuotient negative (m * n * Nat.pow 2 (e + f).toNat) (Nat.pow 2 (-(e + f)).toNat)

end Double
end OpenApi
