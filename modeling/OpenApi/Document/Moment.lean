import OpenApi.Number.Basic

/-
Calendar dates and points in time, as a document may hold them in place of a text.
-/
namespace OpenApi

structure Date where
  year : Nat
  month : Nat
  day : Nat
  deriving DecidableEq, Repr, Inhabited

structure Clock where
  hour : Nat
  minute : Nat
  second : Nat
  microsecond : Nat
  deriving DecidableEq, Repr, Inhabited

/-- A date, or a date with a time of day and possibly its distance from universal time in
minutes. -/
inductive Moment where
  | day (date : Date)
  | time (date : Date) (clock : Clock) (offset : Option Int)
  deriving DecidableEq, Repr, Inhabited

namespace Date

def isLeap (year : Nat) : Bool := year % 4 == 0 && (year % 100 != 0 || year % 400 == 0)

def daysIn (year month : Nat) : Nat :=
  if month == 2 then (if isLeap year then 29 else 28)
  else if month ∈ [4, 6, 9, 11] then 30
  else 31

def isValid (d : Date) : Bool :=
  1 ≤ d.year && d.year ≤ 9999 && 1 ≤ d.month && d.month ≤ 12 && 1 ≤ d.day &&
    d.day ≤ daysIn d.year d.month

/-- Days since the first day of the calendar. -/
def number (d : Date) : Nat :=
  let years := d.year - 1
  let before := years * 365 + years / 4 - years / 100 + years / 400
  let months := (List.range (d.month - 1)).foldl (fun n m => n + daysIn d.year (m + 1)) 0
  before + months + d.day

end Date

def Clock.isValid (c : Clock) : Bool := c.hour < 24 && c.minute < 60 && c.second < 60

/-- Microseconds since midnight. -/
def Clock.number (c : Clock) : Nat :=
  ((c.hour * 60 + c.minute) * 60 + c.second) * 1000000 + c.microsecond

namespace Moment

/-- Decimal digits, with zeros in front up to the given width. -/
def padded (width n : Nat) : String :=
  let ds := Nat.toDigits 10 n
  String.ofList (List.replicate (width - ds.length) '0' ++ ds)

def dateText (d : Date) : String :=
  padded 4 d.year ++ "-" ++ padded 2 d.month ++ "-" ++ padded 2 d.day

def offsetText (minutes : Int) : String :=
  (if minutes < 0 then "-" else "+") ++ padded 2 (minutes.natAbs / 60) ++ ":" ++
    padded 2 (minutes.natAbs % 60)

def clockText (c : Clock) : String :=
  padded 2 c.hour ++ ":" ++ padded 2 c.minute ++ ":" ++ padded 2 c.second ++
    (if c.microsecond = 0 then "" else "." ++ padded 6 c.microsecond)

/-- The standard text of a moment, with `between` between the date and the time. -/
def textWith (between : String) : Moment → String
  | .day d => dateText d
  | .time d c offset => dateText d ++ between ++ clockText c ++ (offset.map offsetText).getD ""

/-- Whether two values name the same moment.  Times with a distance from universal time are
compared after moving both there; a date is no time, and a time without such a distance is none
with one. -/
def same : Moment → Moment → Bool
  | .day a, .day b => a == b
  | .time a c none, .time b d none => a == b && c == d
  | .time a c (some m), .time b d (some n) =>
    (a.number * 86400000000 + c.number : Int) - m * 60000000 ==
      (b.number * 86400000000 + d.number : Int) - n * 60000000
  | _, _ => false

end Moment
end OpenApi
