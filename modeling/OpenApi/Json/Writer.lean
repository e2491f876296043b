import OpenApi.Document.Node
import OpenApi.Text.Quoted

/-
Writing values as JSON text.

Dates, bytes and sets have no JSON text, and neither has a map with such a key; so writing may fail,
and the first fault is reported.  How the text is laid out is a value of its own, `Style`.
-/
namespace OpenApi.Json

structure Style where
  /-- Blanks for each level of nesting; without it everything is on one line. -/
  indent : Option Nat
  /-- Whether characters outside ASCII are written as escapes. -/
  ascii : Bool
  /-- Whether the members of a map are put in the order of their keys. -/
  sorted : Bool

/-- On one line, in ASCII. -/
def Style.line : Style := ⟨none, true, false⟩

/-- On lines of their own, in ASCII. -/
def Style.indented : Style := ⟨some 2, true, false⟩

/-- On lines of their own, with all characters as they are. -/
def Style.readable : Style := ⟨some 2, false, false⟩

/-- On one line, in ASCII, with sorted members: one text for all ways to write the same map. -/
def Style.sortedLine : Style := ⟨none, true, true⟩

inductive Unwritable where
  /-- A part of it has none, or the keys of a map have no order. -/
  | noText
  | tooLong
  | endless
  deriving DecidableEq, Repr

def unitEscape (n : Nat) : List Char := '\\' :: 'u' :: Text.Quoted.hex 4 n

/-- A character between quotes. -/
def escape (ascii : Bool) (c : Char) : List Char :=
  match c with
  | '"' => ['\\', '"']
  | '\\' => ['\\', '\\']
  | '\n' => ['\\', 'n']
  | '\r' => ['\\', 'r']
  | '\t' => ['\\', 't']
  | '\x0c' => ['\\', 'f']
  | '\x08' => ['\\', 'b']
  | c =>
    let n := c.toNat
    if n < 32 then unitEscape n
    else if n < 127 || !ascii then [c]
    else if n < 0x10000 then unitEscape n
    else
      let low := n - 0x10000
      unitEscape (0xD800 + low / 0x400) ++ unitEscape (0xDC00 + low % 0x400)

def quote (ascii : Bool) (s : String) : String :=
  String.ofList ('"' :: s.toList.flatMap (escape ascii) ++ ['"'])

def floatText (x : Double) : String := String.ofList (x.write .json)

def plain : Scalar → Except Unwritable String
  | .null => .ok "null"
  | .bool true => .ok "true"
  | .bool false => .ok "false"
  | .int n => if Number.isLong n then .error .tooLong else .ok (Number.intText n)
  | .float x => .ok (floatText x)
  | _ => .error .noText

def scalar (style : Style) : Scalar → Except Unwritable String
  | .str s => .ok (quote style.ascii s)
  | s => plain s

/-- The text of a key, which is always a text literal. -/
def key (style : Style) : Scalar → Except Unwritable String
  | .str s => .ok (quote style.ascii s)
  | s => (plain s).map (quote style.ascii)

def enclose (style : Style) (depth : Nat) (opening closing : String) (pieces : List String) :
    String :=
  if pieces.isEmpty then opening ++ closing
  else
    match style.indent with
    | none => opening ++ String.intercalate ", " pieces ++ closing
    | some width =>
      let pad (n : Nat) := "\n" ++ String.ofList (List.replicate (width * n) ' ')
      opening ++ pad (depth + 1) ++ String.intercalate ("," ++ pad (depth + 1)) pieces ++
        pad depth ++ closing

/-- Whether one key comes before another; keys of different kinds have no order. -/
def keyBefore? : Scalar → Scalar → Option Bool
  | .str s, .str t => some (s < t)
  | a, b =>
    match a.number?, b.number? with
    | some (.int m), some (.int n) => some (m < n)
    | some (.float x), some (.float y) => some (x.compare? y == some .lt)
    | some (.float x), some (.int n) => some (x.compareInt? n == some .lt)
    | some (.int n), some (.float x) => some (x.compareInt? n == some .gt)
    | _, _ => none

/-- Put an entry in its place among sorted ones. -/
def insertSorted? (key : Scalar) (value : α) :
    List (Scalar × α) → Option (List (Scalar × α))
  | [] => some [(key, value)]
  | (k, v) :: rest =>
    match keyBefore? key k with
    | none => none
    | some true => some ((key, value) :: (k, v) :: rest)
    | some false => (insertSorted? key value rest).map ((k, v) :: ·)

/-- Entries in the order of their keys, if all keys have one order. -/
def sort? : List (Scalar × α) → Option (List (Scalar × α))
  | [] => some []
  | (key, value) :: rest =>
    match sort? rest with
    | some sorted => insertSorted? key value sorted
    | none => none

def arrange (style : Style) (entries : List (Scalar × α)) :
    Except Unwritable (List (Scalar × α)) :=
  if style.sorted then
    match sort? entries with
    | some sorted => .ok sorted
    | none => .error .noText
  else .ok entries

/-- The text of an entry whose value has been written. -/
def entry (style : Style) : Scalar × Except Unwritable String → Except Unwritable String
  | (k, outcome) =>
    match key style k with
    | .error cause => .error cause
    | .ok name => outcome.map (name ++ ": " ++ ·)

mutual

/-- The text of a value, nested `depth` levels deep. -/
def write (style : Style) (depth : Nat) : Node → Except Unwritable String
  | .scalar s => scalar style s
  | .list items => (writeItems style (depth + 1) items).map (enclose style depth "[" "]")
  | .map entries =>
    match arrange style (writeEntries style (depth + 1) entries) with
    | .error cause => .error cause
    | .ok written => (written.mapM (entry style)).map (enclose style depth "\x7b" "\x7d")
  | .set _ => .error .noText
  | .pair x y =>
    match write style (depth + 1) x with
    | .error cause => .error cause
    | .ok first =>
      (write style (depth + 1) y).map fun second => enclose style depth "[" "]" [first, second]
  | .endless => .error .endless

def writeItems (style : Style) (depth : Nat) : List Node → Except Unwritable (List String)
  | [] => .ok []
  | x :: xs =>
    match write style depth x with
    | .error cause => .error cause
    | .ok first => (writeItems style depth xs).map (first :: ·)

/-- The keys of a map, each with the text of its value. -/
def writeEntries (style : Style) (depth : Nat) :
    Entries → List (Scalar × Except Unwritable String)
  | [] => []
  | (k, v) :: rest => (k, write style depth v) :: writeEntries style depth rest

end

/-- The JSON text of a value. -/
def render (style : Style) (node : Node) : Except Unwritable String :=
  if node.isEndless then .error .endless else write style 0 node

def render? (style : Style) (node : Node) : Option String := (render style node).toOption

end OpenApi.Json
