import OpenApi.Number.Shortest

/-
Numbers of a document: integers of any size, and doubles.  `1` and `1.0` are different numbers,
although they are equal.
-/
namespace OpenApi

inductive Number where
  | int (n : Int)
  | float (x : Double)
  deriving DecidableEq, Inhabited

namespace Number

def intText (n : Int) : String :=
  String.ofList (Double.signed (n < 0) (Nat.toDigits 10 n.natAbs))

/-- Numerals of more digits than this are neither read nor written. -/
def longest : Nat := 4300

def leastLong : Nat := Nat.pow 10 longest

def isLong (n : Int) : Bool := leastLong ≤ n.natAbs

/-- The text of a number as it would be written down: integers as they are, doubles with a fraction
or an exponent. -/
def text? : Number → Option String
  | .int n => if isLong n then none else some (intText n)
  | .float x => some x.text

/-- The text of a number for generated code, where a double that equals an integer is written as
that integer. -/
def literal? : Number → Option String
  | .int n => text? (.int n)
  | .float x =>
    match x.toInt? with
    | some n => text? (.int n)
    | none => some x.text

end Number
end OpenApi
