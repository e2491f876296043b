import OpenApi.Document.Node
import OpenApi.Text.Quoted

/-
Values of a document as texts.

A scalar that is used as a name or put into a text is written plainly (`Scalar.text?`): a text is
itself, a number its numeral.  Inside lists and maps, and in messages that have to tell `1` from
`"1"`, it is written so that its kind can be seen (`Scalar.display?`).

An integer of too many digits has no text, and neither has a value with such a part.  A value that
contains itself is written with an ellipsis in the place of what stands around it.
-/
namespace OpenApi

namespace Moment

/-- The arguments of a constructor. -/
def call (name : String) (arguments : List String) : String :=
  name ++ "(" ++ String.intercalate ", " arguments ++ ")"

def dateArguments (d : Date) : List String := [toString d.year, toString d.month, toString d.day]

/-- Hour and minute always, the seconds and the microseconds if they are needed. -/
def clockArguments (c : Clock) : List String :=
  [toString c.hour, toString c.minute] ++
    (if c.second = 0 ∧ c.microsecond = 0 then []
      else toString c.second :: if c.microsecond = 0 then [] else [toString c.microsecond])

/-- A distance from universal time: whole days, rounded down, and the seconds beyond them. -/
def offsetDisplay (minutes : Int) : String :=
  if minutes = 0 then "datetime.timezone.utc"
  else
    let seconds := toString (Int.emod minutes 1440 * 60)
    let span :=
      if minutes < 0 then ["days=-1", "seconds=" ++ seconds] else ["seconds=" ++ seconds]
    call "datetime.timezone" [call "datetime.timedelta" span]

def display : Moment → String
  | .day d => call "datetime.date" (dateArguments d)
  | .time d c offset =>
    call "datetime.datetime" (dateArguments d ++ clockArguments c ++
      (offset.map fun m => "tzinfo=" ++ offsetDisplay m).toList)

end Moment

namespace Scalar

/-- The text of a scalar that shows its kind. -/
def display? : Scalar → Option String
  | .null => some "None"
  | .bool true => some "True"
  | .bool false => some "False"
  | .int n => Number.text? (.int n)
  | .float x => some x.text
  | .str s => some (Text.Quoted.text s)
  | .moment m => some m.display
  | .bytes bs => some (Text.Quoted.bytes bs)

/-- The plain text of a scalar. -/
def text? : Scalar → Option String
  | .str s => some s
  | .moment m => some (m.textWith " ")
  | s => s.display?

end Scalar

namespace Node

def commas (pieces : List String) : String := String.intercalate ", " pieces

/-- Whether two values are alike as far as they are compared: `limit` parts of them, those nearer to
the root first.  What lies too deep is like everything. -/
def alike : (limit : Nat) → List (Node × Node) → Bool
  | 0, _ => true
  | _ + 1, [] => true
  | limit + 1, (a, b) :: rest =>
    match a, b with
    | .endless, _ => alike limit rest
    | _, .endless => alike limit rest
    | .scalar s, .scalar t => s == t && alike limit rest
    | .list xs, .list ys => xs.length == ys.length && alike limit (rest ++ xs.zip ys)
    | .map xs, .map ys =>
      xs.map (·.1) == ys.map (·.1) && alike limit (rest ++ (xs.map (·.2)).zip (ys.map (·.2)))
    | .set xs, .set ys => xs == ys && alike limit rest
    | .pair x y, .pair z w => alike limit (rest ++ [(x, z), (y, w)])
    | _, _ => false

/-- Whether a value without an end is what stands around it. -/
def recurs (around : List Node) (node : Node) : Bool :=
  around.any (fun outer => alike 100 [(outer, node)]) && node.isEndless

def between (opening closing : String) (pieces : List String) : String :=
  opening ++ commas pieces ++ closing

mutual

/-- The text of a value inside others, the nearest one first. -/
def displayIn (around : List Node) : Node → Option String
  | .scalar s => s.display?
  | .list items =>
    if recurs around (.list items) then some "[...]"
    else (displayItems (.list items :: around) items).map (between "[" "]")
  | .map entries =>
    if recurs around (.map entries) then some "\x7b...\x7d"
    else (displayEntries (.map entries :: around) entries).map (between "\x7b" "\x7d")
  | .set [] => some "set()"
  | .set members => (members.mapM Scalar.display?).map (between "\x7b" "\x7d")
  | .pair x y =>
    match displayIn around x, displayIn around y with
    | some first, some second => some (between "(" ")" [first, second])
    | _, _ => none
  | .endless => some "\x7b...\x7d"

def displayItems (around : List Node) : List Node → Option (List String)
  | [] => some []
  | x :: xs =>
    match displayIn around x, displayItems around xs with
    | some first, some others => some (first :: others)
    | _, _ => none

def displayEntries (around : List Node) : Entries → Option (List String)
  | [] => some []
  | (k, v) :: rest =>
    match k.display?, displayIn around v, displayEntries around rest with
    | some key, some value, some others => some ((key ++ ": " ++ value) :: others)
    | _, _, _ => none

end

/-- The text of a value that shows the kinds of all its parts. -/
def display? (node : Node) : Option String := displayIn [] node

def plain? : Node → Option String
  | .scalar s => s.text?
  | node => node.display?

end Node
end OpenApi
