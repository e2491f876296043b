import OpenApi.Dialect
import OpenApi.Name.Identifier
import OpenApi.Text.Percent

/-
How a description names types.

A type token is the name of a primitive type (`integer`), a list of such names
(`["string", "null"]`), a reference (`#/definitions/Pet`) or an expression with brackets
(`array[Pet]`, `Page[Item]`).  Each of them becomes a `TypeUse`: the text of the type in generated
code, its parts, and the definitions that have to be imported for it.  There is a use for every
token; what makes no sense is `any`.

An expression is taken apart at its first opening bracket and its last closing one.  The parts are
tokens again, and shorter ones, since neither dropping a namespace nor percent-decoding makes a text
longer.
-/
namespace OpenApi

/-- The text of a type in generated code: the whole type, what stands before its argument, and the
argument. -/
structure TypeText where
  type : String := "any"
  base : String := "any"
  template : Option String := none
  deriving DecidableEq, Repr, Inhabited

/-- A type as it is used at one place. -/
structure TypeUse extends TypeText where
  imports : List String := []
  isNullable : Bool := false
  deriving DecidableEq, Repr, Inhabited

namespace TypeUse

/-- Names added at the end of a list, each only if the list lacks it. -/
def appendNew (imports names : List String) : List String :=
  names.foldl (fun done name => if name ∈ done then done else done ++ [name]) imports

def ofName (name : String) : TypeUse := { type := name, base := name }

/-- The type that a primitive name stands for; whatever has the format `binary` is binary. -/
def mapped? (name : String) (format : Node) : Option String :=
  if format.isText "binary" then some "binary" else Dialect.primitive? name

/-- Without a closing bracket at the end, or right before a final line break, nothing. -/
def beforeClosing? (cs : List Char) : Option (List Char) :=
  match cs.reverse with
  | ']' :: rest => some rest.reverse
  | '\n' :: ']' :: rest => some rest.reverse
  | _ => none

/-- The text before the first opening bracket and the text between it and the closing bracket at
the end.  Neither may hold a line break. -/
def brackets? (cs : List Char) : Option (List Char × List Char) :=
  let outer := cs.takeWhile (· != '[')
  match cs.dropWhile (· != '[') with
  | [] => none
  | _ :: rest =>
    match beforeClosing? rest with
    | none => none
    | some inner => if outer.contains '\n' || inner.contains '\n' then none else some (outer, inner)

theorem length_beforeClosing?_lt {cs inner : List Char} (h : beforeClosing? cs = some inner) :
    inner.length < cs.length := by
  unfold beforeClosing? at h
  have reversed : cs.reverse.length = cs.length := List.length_reverse
  split at h
  · rename_i rest heq
    cases h
    rw [heq] at reversed
    simp only [List.length_cons] at reversed
    simp only [List.length_reverse]
    omega
  · rename_i rest heq
    cases h
    rw [heq] at reversed
    simp only [List.length_cons] at reversed
    simp only [List.length_reverse]
    omega
  · cases h

theorem length_brackets?_lt {cs outer inner : List Char} (h : brackets? cs = some (outer, inner)) :
    outer.length < cs.length ∧ inner.length < cs.length := by
  unfold brackets? at h
  have whole := congrArg List.length (List.takeWhile_append_dropWhile (p := (· != '[')) (l := cs))
  simp only [List.length_append] at whole
  split at h
  · cases h
  · rename_i c rest heq
    rw [heq] at whole
    simp only [List.length_cons] at whole
    split at h
    · cases h
    · rename_i found hfound
      have shorter := length_beforeClosing?_lt hfound
      dsimp only at h
      split at h
      · cases h
      · cases h
        omega

/-- A token without the namespaces of the dialect, decoded. -/
def plainToken (dialect : Dialect) (cs : List Char) : List Char :=
  Text.Percent.decode (Name.withoutNamespaces dialect.namespaces cs)

theorem length_plainToken_le (dialect : Dialect) (cs : List Char) :
    (plainToken dialect cs).length ≤ cs.length :=
  Nat.le_trans (Text.Percent.length_decode_le _) (Name.length_withoutNamespaces_le _ _)

/-- The use of a type with an argument in brackets.  The argument of `array` is the type of its
items; brackets around nothing repeat the head as its own argument. -/
def applied (outer inner : TypeUse) (blank : Bool) : TypeUse :=
  if outer.type = "any[]" then
    { type := inner.type ++ "[]", base := inner.type, imports := appendNew [] inner.imports }
  else
    let imports := appendNew (appendNew [] outer.imports) inner.imports
    if blank then
      { type := outer.type, base := outer.type, template := some outer.type, imports := imports }
    else
      { type := outer.type ++ "<" ++ inner.type ++ ">"
        base := outer.type
        template := some inner.type
        imports := imports }

/-- The use of the definition with a name, or `any` if nothing is left of the name. -/
def ofDefinition (cs : List Char) : TypeUse :=
  let name := String.ofList (Name.typeChars cs)
  if name.isEmpty then {} else { ofName name with imports := [name] }

def ofToken (dialect : Dialect) (cs : List Char) : TypeUse :=
  match Dialect.primitive? (String.ofList cs) with
  | some name => ofName name
  | none =>
    match _h : brackets? (plainToken dialect cs) with
    | some (outer, inner) =>
      applied (ofToken dialect outer) (ofToken dialect inner) (Text.trim inner).isEmpty
    | none => ofDefinition (plainToken dialect cs)
termination_by cs.length
decreasing_by
  all_goals
    have shorter := length_brackets?_lt _h
    have plain := length_plainToken_le dialect cs
    omega

/-- The use that a text in the place of a type stands for. -/
def ofText (dialect : Dialect) (text : String) (format : Node) : TypeUse :=
  if format.isText "binary" then ofName "binary" else ofToken dialect text.toList

/-- The use that a list of primitive names stands for; `null` among them makes it nullable. -/
def ofList (items : List Node) (format : Node) : Except Failure TypeUse := do
  let names ← (items.filter (!·.isText "null")).mapM Node.written
  let known := names.filterMap (mapped? · format)
  let name := if known.isEmpty then "any" else String.intercalate " | " known
  return { ofName name with isNullable := Node.listHas "null" items }

/-- The use that a value in the place of a type stands for. -/
def ofNode (dialect : Dialect) (value format : Node) : Except Failure TypeUse :=
  match value with
  | .null => .ok (ofName ((mapped? "any" format).getD "any"))
  | .list items => ofList items format
  | .str s => .ok (ofText dialect s format)
  | _ => .ok {}

end TypeUse
end OpenApi
