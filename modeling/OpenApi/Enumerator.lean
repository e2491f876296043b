import OpenApi.Failure
import OpenApi.Json.Writer
import OpenApi.Number.Numeral
import OpenApi.Name.Identifier
import OpenApi.Text.Replace
import OpenApi.Text.Word

/-
Members of enumerations.

They come from a list of values, from vendor keywords that name and describe the values by position,
or from a description that reads `Active=1,Inactive=2`.  The members of one enumeration have
different names: of two with the same name the first one stays.
-/
namespace OpenApi

/-- One member of an enumeration; `value` is a literal of generated code. -/
structure Enumerator where
  name : String
  value : String
  type : String := "string"
  description : Option String := none
  deriving DecidableEq, Repr, Inhabited

/-- The items without those whose name an earlier item has. -/
def uniqueByName {α : Type} (name : α → String) (items : List α) : List α :=
  items.foldl (fun kept item =>
    if kept.any (fun other => name other == name item) then kept else kept ++ [item]) []

namespace Enumerator

/-- Whether two enumeration values are one: of one kind and equal.  What is no number differs from
itself, and values without an end are not compared. -/
def sameValue (a b : Node) : Bool :=
  match a, b with
  | .float x, .float y => x.equals y
  | a, b => a.kind == b.kind && !a.isEndless && !b.isEndless && a.same b

/-- The values without those that an earlier value equals. -/
def withoutRepeats (values : List Node) : List Node :=
  values.foldl (fun kept value =>
    if kept.any (sameValue · value) then kept else kept ++ [value]) []

/-- Whether a value stands for something: null and the empty text do not. -/
def isPresent : Node → Bool
  | .null => false
  | .str s => !s.isEmpty
  | _ => true

def ofNumber (n : Number) : Except Failure Enumerator := do
  let literal ← Failure.orTooLong n.literal?
  return { name := "'_" ++ literal ++ "'", value := literal, type := "number" }

/-- A text between single quotes, with the single quotes in it escaped. -/
def quote (s : String) : String :=
  String.ofList ('\'' :: Text.replaceChar '\'' ['\\', '\''] s.toList ++ ['\''])

def ofText (s : String) : Enumerator := { name := Name.ofMember s, value := quote s }

/-- The member for a value: a number stays one, all else becomes a text. -/
def ofValue : Node → Except Failure Enumerator
  | .int n => ofNumber (.int n)
  | .float x => ofNumber (.float x)
  | .bool b => .ok (ofText (if b then "true" else "false"))
  | .str s => .ok (ofText s)
  | other =>
    match Json.render .sortedLine other with
    | .ok text => .ok (ofText text)
    | .error cause => .error (.ofUnwritable cause)

/-- The members for an `enum` keyword, none if it holds no list. -/
def ofValues : Node → Except Failure (List Enumerator)
  | .list values => do
    let members ← ((withoutRepeats values).filter isPresent).mapM ofValue
    return uniqueByName name members
  | _ => .ok []

/-- The texts in a list, none if there is no list. -/
def texts : Node → List String
  | .list items => items.filterMap Node.str?
  | _ => []

/-- The text at an index, unless it is empty. -/
def textAt? (texts : List String) (index : Nat) : Option String :=
  texts[index]?.filter (!·.isEmpty)

/-- The members with the names and descriptions that a schema gives them by position. -/
def extend (members : List Enumerator) (schema : Node) : List Enumerator :=
  let names := texts (schema.get "x-enum-varnames")
  let descriptions := texts (schema.get "x-enum-descriptions")
  uniqueByName name <| members.mapIdx fun index member =>
    { member with
      name := (textAt? names index).getD member.name
      description := (textAt? descriptions index).or member.description }

/-- The pair of a name and digits at the front of a text, and what follows it. -/
def pair? (cs : List Char) : Option ((List Char × List Char) × List Char) :=
  let word := cs.takeWhile Text.isWord
  match cs.dropWhile Text.isWord with
  | '=' :: rest =>
    let digits := rest.takeWhile Char.isDigit
    if word.isEmpty || digits.isEmpty then none
    else some ((word, digits), rest.dropWhile Char.isDigit)
  | _ => none

theorem length_pair?_lt {cs rest : List Char} {p : List Char × List Char}
    (h : pair? cs = some (p, rest)) : rest.length < cs.length := by
  unfold pair? at h
  have whole : (cs.dropWhile Text.isWord).length ≤ cs.length :=
    (List.dropWhile_sublist _).length_le
  split at h
  · rename_i after heq
    rw [heq] at whole
    have tail : (after.dropWhile Char.isDigit).length ≤ after.length :=
      (List.dropWhile_sublist _).length_le
    simp only [List.length_cons] at whole
    dsimp only at h
    split at h
    · cases h
    · cases h
      omega
  · cases h

/-- The pairs of a name and digits in a text, from left to right.  A name is as long as possible, so
where no pair begins at a word, none begins inside it. -/
def pairs (cs : List Char) : List (List Char × List Char) :=
  match cs with
  | [] => []
  | c :: rest =>
    match _h : pair? (c :: rest) with
    | some (p, after) => p :: pairs after
    | none =>
      if Text.isWord c then pairs (rest.dropWhile Text.isWord) else pairs rest
termination_by cs.length
decreasing_by
  · exact length_pair?_lt _h
  · have : (rest.dropWhile Text.isWord).length ≤ rest.length :=
      (List.dropWhile_sublist _).length_le
    simp only [List.length_cons]
    omega
  · simp

def ofPair (p : List Char × List Char) : Except Failure Enumerator :=
  if p.2.length > Number.longest then .error (.malformed .noDecimal)
  else
    .ok { name := String.ofList (Name.memberChars p.1)
          value := toString (Numeral.value p.2)
          type := "number" }

/-- The members that a description lists, none if it does not begin with one. -/
def ofDescription : Node → Except Failure (List Enumerator)
  | .str s =>
    if (pair? s.toList).isSome then ((pairs s.toList).mapM ofPair).map (uniqueByName name)
    else .ok []
  | _ => .ok []

end Enumerator
end OpenApi
