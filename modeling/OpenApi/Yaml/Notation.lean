import OpenApi.Number.Numeral
import OpenApi.Text.Replace
import OpenApi.Yaml.Literal
import OpenApi.Yaml.Tag

/-
What a plain scalar is meant as.

Its text decides: the words for null and the truth values, the notations of numbers and moments,
and two signs with a meaning as keys.  All other texts are just texts.  A line feed at the end of a
text, which a block or an escape may bring, does not count.
-/
namespace OpenApi.Yaml.Notation

def withoutFinalBreak (cs : List Char) : List Char :=
  if cs.getLast? == some '\n' then cs.dropLast else cs

def isNull (cs : List Char) : Bool := ["~", "null", "Null", "NULL"].contains (String.ofList cs)

/-- The words for the truth values, in lower case. -/
def truthValues : List (String × Bool) :=
  [("yes", true), ("no", false), ("true", true), ("false", false), ("on", true), ("off", false)]

/-- Words in lower case, in upper case, and with a capital in front. -/
def isBool (cs : List Char) : Bool :=
  truthValues.any fun (word, _) =>
    let lower := word.toList
    let upper := lower.map Char.toUpper
    cs == lower || cs == upper || cs == upper.take 1 ++ lower.drop 1

def isDigit (c : Char) : Bool := c.isDigit

def isDigitOrGap (c : Char) : Bool := c.isDigit || c == '_'

/-- A text of at least one character, the first of one class and the others of another. -/
def isRun (first others : Char → Bool) : List Char → Bool
  | [] => false
  | c :: rest => first c && rest.all others

def unsigned (cs : List Char) : List Char := (Numeral.sign cs).2

/-- A number below sixty of one or two digits. -/
def isSixtieth : List Char → Bool
  | [a] => a.isDigit
  | [a, b] => '0' ≤ a && a ≤ '5' && b.isDigit
  | _ => false

/-- A first number and at least one sixtieth, with colons between them. -/
def isSexagesimal (first : Char → Bool) (cs : List Char) : Bool :=
  match Text.split ':' cs with
  | whole :: part :: parts => isRun first isDigitOrGap whole && (part :: parts).all isSixtieth
  | _ => false

/-- An integer without its sign. -/
def isWhole (cs : List Char) : Bool :=
  match cs with
  | ['0'] => true
  | '0' :: 'b' :: c :: rest => (c :: rest).all fun d => d == '0' || d == '1' || d == '_'
  | '0' :: 'x' :: c :: rest =>
    (c :: rest).all fun d => (Text.Percent.hexValue? d).isSome || d == '_'
  | '0' :: c :: rest => (c :: rest).all fun d => ('0' ≤ d && d ≤ '7') || d == '_'
  | _ =>
    let isFirst (c : Char) : Bool := c.isDigit && c != '0'
    isRun isFirst isDigitOrGap cs || isSexagesimal isFirst cs

def isInt (cs : List Char) : Bool := isWhole (unsigned cs)

/-- An exponent, with a sign, or nothing. -/
def isExponent : List Char → Bool
  | [] => true
  | mark :: sign :: digits =>
    (mark == 'e' || mark == 'E') && (sign == '-' || sign == '+') && isRun isDigit isDigit digits
  | _ => false

/-- Digits after the point, and an exponent. -/
def isFraction (cs : List Char) : Bool := isExponent (cs.dropWhile isDigitOrGap)

/-- A number with a point, without its sign. -/
def isPointed (cs : List Char) : Bool :=
  let (whole, fraction) := Text.cut '.' cs
  cs.contains '.' &&
    ((isRun isDigit isDigitOrGap whole && isFraction fraction) ||
      (isSexagesimal isDigit whole && fraction.all isDigitOrGap))

/-- A number that begins with its point. -/
def isPointFirst : List Char → Bool
  | '.' :: c :: rest => c.isDigit && isFraction rest
  | _ => false

def isFloat (cs : List Char) : Bool :=
  isPointed (unsigned cs) || isPointFirst cs ||
    [".inf", ".Inf", ".INF"].contains (String.ofList (unsigned cs)) ||
    [".nan", ".NaN", ".NAN"].contains (String.ofList cs)

/-! ### Moments -/

structure MomentText where
  year : List Char
  month : List Char
  day : List Char
  /-- Hour, minute, second and the digits of its fraction. -/
  clock : Option (List Char × List Char × List Char × List Char) := none
  /-- The sign, the hour and the minute of the distance from universal time; no sign stands for
  none. -/
  zone : Option (Option Char × List Char × List Char) := none

/-- Digits at the front of a text, between `least` and `most` of them, and what follows them. -/
def digits? (least most : Nat) (cs : List Char) : Option (List Char × List Char) :=
  let found := (cs.take most).takeWhile Char.isDigit
  if least ≤ found.length then some (found, cs.drop found.length) else none

/-- What follows a sign that has to stand at the front of a text. -/
def after? (sign : Char) : List Char → Option (List Char)
  | c :: rest => if c = sign then some rest else none
  | [] => none

/-- The hour and the minute of a zone after its sign, which end the text. -/
def zoneDigits? (cs : List Char) : Option (List Char × List Char) :=
  match digits? 1 2 cs with
  | none => none
  | some (hour, []) => some (hour, [])
  | some (hour, rest) =>
    match (after? ':' rest).bind (digits? 2 2) with
    | some (minute, []) => some (hour, minute)
    | _ => none

/-- The zone at the end of a moment, with blanks before it. -/
def zone? (cs : List Char) : Option (Option (Option Char × List Char × List Char)) :=
  match cs, cs.dropWhile isBlank with
  | [], _ => some none
  | _, ['Z'] => some (some (none, [], []))
  | _, sign :: rest =>
    if sign == '-' || sign == '+' then
      (zoneDigits? rest).map fun (hour, minute) => some (some sign, hour, minute)
    else none
  | _, [] => none

/-- The clock and the zone of a moment, after what separates them from the date. -/
def clock? (date : MomentText) (cs : List Char) : Option MomentText := do
  let (hour, rest) ← digits? 1 2 cs
  let (minute, rest) ← (after? ':' rest).bind (digits? 2 2)
  let (second, rest) ← (after? ':' rest).bind (digits? 2 2)
  let (fraction, rest) := match rest with
    | '.' :: rest => (rest.takeWhile Char.isDigit, rest.dropWhile Char.isDigit)
    | _ => ([], rest)
  let zone ← zone? rest
  return { date with clock := some (hour, minute, second, fraction), zone := zone }

/-- The parts of a moment: a date, and possibly a clock after a `T` or blanks. -/
def moment? (cs : List Char) : Option MomentText := do
  let (year, rest) ← digits? 4 4 cs
  let (month, rest) ← (after? '-' rest).bind (digits? 1 2)
  let (day, rest) ← (after? '-' rest).bind (digits? 1 2)
  let date : MomentText := { year := year, month := month, day := day }
  match rest with
  | [] => return date
  | c :: more =>
    if c == 'T' || c == 't' then clock? date more
    else if isBlank c then clock? date (more.dropWhile isBlank)
    else none

/-- Whether a plain text is a moment: a date alone has two digits for month and day. -/
def isMoment (cs : List Char) : Bool :=
  match moment? cs with
  | none => false
  | some m => m.clock.isSome || (m.month.length == 2 && m.day.length == 2)

/-- What a plain scalar is meant as; one without characters is null. -/
def tagOf (text : String) : Tag :=
  let cs := withoutFinalBreak text.toList
  if text.isEmpty then .null
  else if isNull cs then .null
  else if isBool cs then .bool
  else if isFloat cs then .float
  else if isInt cs then .int
  else if cs == ['<', '<'] then .merge
  else if isMoment cs then .moment
  else if cs == ['='] then .value
  else if cs == ['!'] || cs == ['&'] || cs == ['*'] then .unknown
  else .text

end OpenApi.Yaml.Notation
