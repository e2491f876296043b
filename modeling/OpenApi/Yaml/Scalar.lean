import OpenApi.Document.Node
import OpenApi.Text.Base64
import OpenApi.Text.Lowercase
import OpenApi.Yaml.Notation

/-
The values of scalars, by what they are meant as.

A tag may ask for more than its notation allows elsewhere: a number that is marked as one may have
blanks around it, or digits of any script.
-/
namespace OpenApi.Yaml

/-- A numeral without the gaps that underscores make. -/
def withoutGaps (cs : List Char) : List Char := cs.filter (· != '_')

/-- The integer of digits in a base, or a bad value. -/
def integer (base : Nat) (cs : List Char) : Except Fault Int :=
  match Numeral.signedIn? base cs with
  | some n => .ok n
  | none => .error .badValue

/-- The value of numbers, each of which counts sixty times as much as the next. -/
def sexagesimal (parts : List Int) : Int := parts.foldl (fun n part => n * 60 + part) 0

/-- An integer without its sign: binary, octal or hexadecimal by what it begins with, or a number
with parts of sixty. -/
def wholeValue (cs : List Char) : Except Fault Int :=
  match cs with
  | [] => .error .noDigits
  | ['0'] => .ok 0
  | '0' :: 'b' :: rest => integer 2 rest
  | '0' :: 'x' :: rest => integer 16 rest
  | '0' :: _ => integer 8 cs
  | _ =>
    if cs.contains ':' then ((Text.split ':' cs).mapM (integer 10)).map sexagesimal
    else integer 10 cs

def intValue (text : String) : Except Fault Int :=
  let cs := withoutGaps text.toList
  if cs.isEmpty then .error .noDigits
  else
    let (negative, rest) := Numeral.sign cs
    (wholeValue rest).map fun n => if negative then -n else n

/-- The double of numbers with parts of sixty, the last one first, each part counting `weight`. -/
def sexagesimalDouble (sum : Double) (weight : Nat) : List Double → Except Fault Double
  | [] => .ok sum
  | x :: rest =>
    match Double.ofInt weight with
    | .infinite _ => .error .tooGreat
    | factor => sexagesimalDouble (sum.add (x.mul factor)) (weight * 60) rest

def magnitude (cs : List Char) : Except Fault Double :=
  let part (piece : List Char) : Except Fault Double :=
    match Numeral.double? piece with
    | some x => .ok x
    | none => .error .badValue
  if cs == ".inf".toList then .ok (.infinite false)
  else if cs == ".nan".toList then .ok .nan
  else if cs.contains ':' then do
    let parts ← (Text.split ':' cs).mapM part
    sexagesimalDouble (.zero false) 1 parts.reverse
  else part cs

/-- A float as it is read: without gaps, in lower case, and its sign apart. -/
def floatText (text : String) : Bool × List Char :=
  Numeral.sign (Text.lowerChars false (withoutGaps text.toList))

def floatValue (text : String) : Except Fault Double :=
  if (withoutGaps text.toList).isEmpty then .error .noDigits
  else
    let (negative, rest) := floatText text
    (magnitude rest).map fun x => if negative then x.neg else x

/-- Whether a text is the word for what is no number.  All such values of a document are one. -/
def isNanWord (text : String) : Bool := (floatText text).2 == ".nan".toList

def boolValue (text : String) : Except Fault Bool :=
  match Notation.truthValues.find? (·.1 == Text.lower text) with
  | some (_, b) => .ok b
  | none => .error .noTruthValue

/-- The first six digits of a fraction, as microseconds. -/
def microseconds (digits : List Char) : Nat :=
  Numeral.value ((digits ++ List.replicate 6 '0').take 6)

/-- The distance from universal time in minutes; it is less than a day. -/
def offset (zone : Option (Option Char × List Char × List Char)) : Except Fault (Option Int) :=
  match zone with
  | none => .ok none
  | some (none, _, _) => .ok (some 0)
  | some (some sign, hour, minute) =>
    let minutes := Numeral.value hour * 60 + Numeral.value minute
    if minutes < 24 * 60 then .ok (some (Numeral.negateIf (sign == '-') minutes))
    else .error .badValue

/-- The moment that is written; it has to be in the calendar. -/
def momentValue (text : String) : Except Fault Moment :=
  match Notation.moment? (Notation.withoutFinalBreak text.toList) with
  | none => .error .noMoment
  | some m =>
    let date : Date := ⟨Numeral.value m.year, Numeral.value m.month, Numeral.value m.day⟩
    match m.clock with
    | none => if date.isValid then .ok (.day date) else .error .badValue
    | some (hour, minute, second, fraction) =>
      let clock : Clock := ⟨Numeral.value hour, Numeral.value minute, Numeral.value second,
        microseconds fraction⟩
      match offset m.zone with
      | .error fault => .error fault
      | .ok distance =>
        if date.isValid && clock.isValid then .ok (.time date clock distance)
        else .error .badValue

def bytesValue (text : String) : Except Fault (List UInt8) :=
  if text.toList.all (·.toNat < 128) then
    match Text.Base64.decode? text.toList with
    | some bytes => .ok bytes
    | none => .error .illFormed
  else .error .illFormed

def scalarValue (tag : Tag) (text : String) : Except Fault Scalar :=
  match tag with
  | .null => .ok .null
  | .bool => (boolValue text).map .bool
  | .int => (intValue text).map .int
  | .float => (floatValue text).map .float
  | .moment => (momentValue text).map .moment
  | .text => .ok (.str text)
  | .bytes => (bytesValue text).map .bytes
  | .list | .map | .set | .orderedMap | .pairs | .merge | .value | .unknown => .error .illFormed

end OpenApi.Yaml
