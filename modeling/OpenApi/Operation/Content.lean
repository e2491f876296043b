import OpenApi.Dialect
import OpenApi.Preferences
import OpenApi.Text.Lowercase

/-
Content maps: for each media type, what a body of that type holds.

One body may come in several media types, and only one of them is resolved.  Media types that hold
no schema are never chosen; among the others the preferences decide, and then the order of the
description.
-/
namespace OpenApi.Content

/-- A media type without its parameters, in lower case. -/
def baseType (mediaType : String) : String :=
  Text.lower (String.ofList (Text.trim (Text.cut ';' mediaType.toList).1))

/-- A media type with its schema, if it holds one. -/
def choice? (entry : Scalar × Node) : Except Failure (Option (String × Node)) :=
  match (entry.2.get? "schema").filter Node.isMap with
  | none => .ok none
  | some schema => entry.1.written.map fun mediaType => some (mediaType, schema)

/-- The media types that hold a schema, each with its schema. -/
def withSchema : Node → Except Failure (List (String × Node))
  | .map entries => (entries.mapM choice?).map (·.filterMap id)
  | _ => .ok []

/-- The media type and schema that the preferences select. -/
def select (preferences : Preferences) (content : Node) :
    Except Failure (Option (String × Node)) := do
  let choices ← withSchema content
  return (preferences.mediaTypes.findSome? fun preferred =>
    choices.find? fun (mediaType, _) => baseType mediaType == preferred).or choices.head?

def schema (preferences : Preferences) (content : Node) : Except Failure (Option Node) :=
  (select preferences content).map (·.map (·.2))

/-- Media types of bodies that are sent as forms. -/
def formTypes : List String := ["application/x-www-form-urlencoded", "multipart/form-data"]

def isForm (mediaType : String) : Bool := formTypes.contains (baseType mediaType)

end OpenApi.Content
