import OpenApi.Document.Display
import OpenApi.Json.Writer
import OpenApi.Session

/-
How results and messages are written.

A result is a value or a table.  As JSON it is one value; plainly it is a line for each member, item
or row.  A result may go to a file, and then it is JSON in any case.
-/
namespace OpenApi

inductive OutputForm where
  | json
  | plain
  deriving DecidableEq, Repr, Inhabited

structure Output where
  form : OutputForm := .plain
  /-- Whether messages about what has been done are left out. -/
  isQuiet : Bool := false
  /-- Whether messages about what is going on are written. -/
  isVerbose : Bool := false
  file : Option Path := none

/-- A result in rows and columns: values that consist of cells. -/
structure Table where
  columns : Node
  rows : Node

def Table.ofTexts (columns : List String) (rows : List (List String)) : Table :=
  ⟨.list (columns.map .str), .list (rows.map fun row => .list (row.map .str))⟩

namespace OutputForm

def name : OutputForm → String
  | .json => "json"
  | .plain => "plain"

/-- The form with a name.  Without a choice it is plain, as other programs like it. -/
def ofName? : String → Option OutputForm
  | "json" => some .json
  | "plain" => some .plain
  | "auto" => some .plain
  | _ => none

def jsonText (style : Json.Style) (value : Node) : Except Failure String :=
  match Json.render style value with
  | .ok text => .ok text
  | .error cause => .error (.ofUnwritable cause)

/-- A value in a line of plain text: compound values as JSON. -/
def inline : Node → Except Failure String
  | .list items => jsonText .line (.list items)
  | .map entries => jsonText .line (.map entries)
  | value => value.written

def entryLine (entry : Scalar × Node) : Except Failure String := do
  return (← entry.1.written) ++ "\t" ++ (← inline entry.2)

def lines : Node → Except Failure (List String)
  | .map entries => entries.mapM entryLine
  | .list items => items.mapM inline
  | value => value.written.map ([·])

/-- The text of a value, without the end of its last line. -/
def text : OutputForm → Node → Except Failure String
  | .json, value => jsonText .readable value
  | .plain, value => (lines value).map (String.intercalate "\n")

end OutputForm

namespace Table

/-- The cells that a value consists of. -/
def cells (row : Node) : Except Failure (List Node) :=
  match row.parts? with
  | some parts => .ok parts
  | none => .error (.malformed .noItems)

/-- A cell under a column, which has to be a scalar. -/
def entry (cell : Node × Node) : Except Failure (Scalar × Node) :=
  match cell.1 with
  | .scalar key => .ok (key, cell.2)
  | _ => .error (.malformed .compoundKey)

/-- A row as a map.  The shorter one of columns and cells decides its length. -/
def rowNode (columns row : Node) : Except Failure Node := do
  let names ← cells columns
  let entries ← (names.zip (← cells row)).mapM entry
  return .map (Entries.ofList entries)

def toNode (t : Table) : Except Failure Node := do
  return .list (← (← cells t.rows).mapM (rowNode t.columns))

def cellText (cell : Node) : Except Failure String :=
  match cell with
  | .str s => .ok s
  | _ => .error (.malformed .unwritable)

/-- A row in a line, with tabs between the cells. -/
def line (row : Node) : Except Failure String := do
  return String.intercalate "\t" (← (← cells row).mapM cellText)

def text (t : Table) : Except Failure String := do
  let rows ← cells t.rows
  return String.intercalate "\n" (← (t.columns :: rows).mapM line)

end Table

namespace Output

/-- The form that results have, which for a file is always JSON. -/
def resultForm (o : Output) : OutputForm := if o.file.isSome then .json else o.form

/-- Write a text and an end of line to where results go. -/
def write (text : String) (o : Output) : Action Unit :=
  match o.file with
  | none => Action.print (text ++ "\n")
  | some path => Action.attempt fun s =>
    match s.write path (text ++ "\n") with
    | .ok s => .ok s
    | .error fault => .error (.defect (.disk fault))

def writeResult (text : Except Failure String) (o : Output) : Action Unit :=
  match text with
  | .ok text => o.write text
  | .error (.malformed cause) => throw (.defect (.malformed cause))
  | .error failure => throw (.resolution failure)

def writeValue (value : Node) (o : Output) : Action Unit :=
  o.writeResult (o.resultForm.text value)

def writeTable (table : Table) (o : Output) : Action Unit :=
  o.writeResult <|
    match o.resultForm with
    | .json => table.toNode.bind OutputForm.json.text
    | .plain => table.text

/-- Tell what has been done. -/
def inform (message : String) (o : Output) : Action Unit :=
  if o.isQuiet then pure () else Action.note message

/-- Tell what is going on. -/
def narrate (message : String) (o : Output) : Action Unit :=
  if o.isVerbose then Action.note ("[debug] " ++ message) else pure ()

end Output

def Action.noteError (message : String) : Action Unit := Action.note ("Error: " ++ message)

end OpenApi
