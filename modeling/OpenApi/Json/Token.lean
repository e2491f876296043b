import OpenApi.Document.Node
import OpenApi.Number.Numeral
import OpenApi.Text.CodeUnit
import OpenApi.Text.Percent

/-
JSON text as a list of tokens.

Cutting a text into tokens never fails: a character that begins no token becomes `junk`, and a text
literal that is malformed becomes `broken`.  What is wrong with a document depends on what was
expected at that place, which only the reader of the tokens knows.  A place in the text is given by
what stands there: the text from that place to its end.
-/
namespace OpenApi.Json

inductive Fault where
  | value
  | name
  | colon
  | comma
  | extra
  | unterminated
  | control
  | escape
  | unicode
  | byteOrderMark
  | tooLong
  | tooDeep
  deriving DecidableEq, Repr

inductive Token where
  | mapOpen
  | mapClose
  | listOpen
  | listClose
  | colon
  | comma
  | text (s : String)
  /-- A literal that is no text: a number, a truth value or null. -/
  | plain (s : Scalar)
  /-- A malformed text literal, and the place of the fault. -/
  | broken (fault : Fault) (place : List Char)
  | long
  | junk
  deriving DecidableEq

def isBlank (c : Char) : Bool := c == ' ' || c == '\t' || c == '\n' || c == '\r'

/-- The value of four hexadecimal digits. -/
def unit? (a b c d : Char) : Option Nat :=
  match Text.Percent.hexValue? a, Text.Percent.hexValue? b, Text.Percent.hexValue? c,
      Text.Percent.hexValue? d with
  | some a, some b, some c, some d => some (((a * 16 + b) * 16 + c) * 16 + d)
  | _, _, _, _ => none

/-- What an escape with one letter stands for. -/
def escaped? : Char → Option Char
  | '"' => some '"'
  | '\\' => some '\\'
  | '/' => some '/'
  | 'b' => some '\x08'
  | 'f' => some '\x0c'
  | 'n' => some '\n'
  | 'r' => some '\r'
  | 't' => some '\t'
  | _ => none

/-- A scanned text literal: its code units and what follows it, or a fault and its place. -/
inductive Scanned where
  | done (units : List Nat) (rest : List Char)
  | fault (fault : Fault) (place : List Char)

def Scanned.push (unit : Nat) : Scanned → Scanned
  | .done units rest => .done (unit :: units) rest
  | .fault f place => .fault f place

/-- The text literal after its opening quote, which stands at the place `start`. -/
def scanText (start : List Char) : List Char → Scanned
  | [] => .fault .unterminated start
  | '"' :: rest => .done [] rest
  | '\\' :: 'u' :: a :: b :: c :: d :: rest =>
    match unit? a b c d with
    | some unit =>
      if rest.isEmpty then .fault .unicode ['u', a, b, c, d] else (scanText start rest).push unit
    | none => .fault .unicode ('u' :: a :: b :: c :: d :: rest)
  | '\\' :: 'u' :: rest => .fault .unicode ('u' :: rest)
  | '\\' :: c :: rest =>
    match escaped? c with
    | some e => (scanText start rest).push e.toNat
    | none => .fault .escape ('\\' :: c :: rest)
  | ['\\'] => .fault .unterminated start
  | c :: rest =>
    if c.toNat < 32 then .fault .control (c :: rest)
    else (scanText start rest).push c.toNat

/-- Digits after a point or an exponent mark, if there are any. -/
def fraction (cs : List Char) : List Char × List Char :=
  match cs with
  | '.' :: rest =>
    let digits := rest.takeWhile Char.isDigit
    if digits.isEmpty then ([], cs) else (digits, rest.dropWhile Char.isDigit)
  | _ => ([], cs)

/-- The exponent after a numeral, if there is one. -/
def exponent? (cs : List Char) : Option (Int × List Char) :=
  match cs with
  | mark :: rest =>
    if mark == 'e' || mark == 'E' then
      let (negative, digits) := Numeral.sign rest
      let shown := digits.takeWhile Char.isDigit
      if shown.isEmpty then none
      else some (Numeral.negateIf negative (Numeral.value shown), digits.dropWhile Char.isDigit)
    else none
  | [] => none

/-- The digits before the point: one zero, or digits of which the first is no zero. -/
def whole? : List Char → Option (List Char × List Char)
  | '0' :: rest => some (['0'], rest)
  | cs =>
    let digits := cs.takeWhile Char.isDigit
    if digits.isEmpty then none else some (digits, cs.dropWhile Char.isDigit)

def number? (cs : List Char) : Option (Token × List Char) :=
  let (negative, unsigned) := match cs with
    | '-' :: rest => (true, rest)
    | _ => (false, cs)
  match whole? unsigned with
  | none => none
  | some (whole, afterWhole) =>
    let (digits, afterFraction) := fraction afterWhole
    match exponent? afterFraction with
    | some (power, rest) =>
      some (.plain (.float (Numeral.double negative whole digits power)), rest)
    | none =>
      if digits.isEmpty then
        if whole.length > Number.longest then some (.long, afterFraction)
        else some (.plain (.int (Numeral.negateIf negative (Numeral.value whole))), afterFraction)
      else some (.plain (.float (Numeral.double negative whole digits 0)), afterFraction)

def words : List (String × Scalar) :=
  [("null", .null), ("true", .bool true), ("false", .bool false), ("NaN", .float .nan),
    ("Infinity", .float (.infinite false)), ("-Infinity", .float (.infinite true))]

def word? (cs : List Char) : Option (Token × List Char) :=
  words.findSome? fun (name, s) =>
    if name.toList.isPrefixOf cs then some (.plain s, cs.drop name.length) else none

/-- The token at the front of a text that does not begin with a blank, and what follows it. -/
def next (c : Char) (rest : List Char) : Token × List Char :=
  match c with
  | '\x7b' => (.mapOpen, rest)
  | '\x7d' => (.mapClose, rest)
  | '[' => (.listOpen, rest)
  | ']' => (.listClose, rest)
  | ':' => (.colon, rest)
  | ',' => (.comma, rest)
  | '"' =>
    match scanText (c :: rest) rest with
    | .done units after => (.text (String.ofList (Text.CodeUnit.decode units)), after)
    | .fault f place => (.broken f place, rest)
  | _ =>
    match word? (c :: rest) with
    | some found => found
    | none => (number? (c :: rest)).getD (.junk, rest)

/-- At most `limit` tokens of a text, each with its place. -/
def tokensUpTo : (limit : Nat) → List Char → List (Token × List Char)
  | 0, _ => []
  | _, [] => []
  | limit + 1, c :: rest =>
    if isBlank c then tokensUpTo limit rest
    else
      let (token, after) := next c rest
      (token, c :: rest) :: tokensUpTo limit after

/-- The tokens of a text.  Each takes at least one character, so there are no more tokens than
characters. -/
def tokens (cs : List Char) : List (Token × List Char) := tokensUpTo cs.length cs

end OpenApi.Json
