import OpenApi.Failure
import OpenApi.Text.Blank
import OpenApi.Text.Replace

/-
The two dialects of descriptions, Swagger 2 and OpenAPI 3.

They are resolved by the same rules.  Where they differ is a function of the dialect, and all of
these functions stand here: the namespaces that references may lie in, the place of the schema
definitions, the locations of parameters, where bodies are declared, and how the address of the
server is put together.
-/
namespace OpenApi

inductive Dialect where
  | v2
  | v3
  deriving DecidableEq, Repr, Inhabited

namespace Dialect

def name : Dialect → String
  | .v2 => "v2"
  | .v3 => "v3"

/-- What stands before a name in a reference. -/
def namespaces : Dialect → List String
  | .v2 => ["#/definitions/", "#/parameters/", "#/responses/", "#/securityDefinitions/"]
  | .v3 =>
    ["#/components/schemas/", "#/components/responses/", "#/components/parameters/",
      "#/components/examples/", "#/components/requestBodies/", "#/components/headers/",
      "#/components/securitySchemes/", "#/components/links/", "#/components/callbacks/"]

/-- The keys from the root to the schema definitions. -/
def schemasPath : Dialect → List String
  | .v2 => ["definitions"]
  | .v3 => ["components", "schemas"]

/-- Whether request bodies are declared apart from the parameters. -/
def hasRequestBody : Dialect → Bool
  | .v2 => false
  | .v3 => true

/-- The names of types that every description may use, and what they stand for. -/
def primitives : List (String × String) :=
  [("file", "binary"), ("any", "any"), ("object", "any"), ("array", "any[]"),
    ("boolean", "boolean"), ("byte", "number"), ("int", "number"), ("integer", "number"),
    ("float", "number"), ("double", "number"), ("short", "number"), ("long", "number"),
    ("number", "number"), ("char", "string"), ("date", "string"), ("date-time", "string"),
    ("password", "string"), ("string", "string"), ("void", "void"), ("null", "null")]

def primitive? (name : String) : Option String := primitives.lookup name

/-- The schema definitions of a description, none if it has no such map. -/
def schemas (dialect : Dialect) (document : Node) : Entries :=
  let node := dialect.schemasPath.foldl (fun node key => node.get key) document
  node.entries?.getD []

/-- The dialect that a version names: its leading numeral decides. -/
def ofVersion? (version : String) : Option Dialect :=
  let major := (Text.cut '.' (Text.trim version.toList)).1
  if major = ['2'] then some .v2 else if major = ['3'] then some .v3 else none

/-- The members of a value that has to be a map. -/
def members : Node → Except Failure Entries
  | .map entries => .ok entries
  | _ => .error (.malformed .noMembers)

theorem members_bind {α : Type} (entries : Entries) (next : Entries → Except Failure α) :
    (members (.map entries) >>= next) = next entries := rfl

/-- The value of a member, null if there is none. -/
def member (key : String) (entries : Entries) : Node := (Entries.get? key entries).getD .null

def marker (root : Entries) : Node :=
  match Entries.get? "swagger" root with
  | some version => version
  | none => member "openapi" root

def detect (document : Node) : Except Failure Dialect := do
  let root ← members document
  match marker root with
  | .str s =>
    match ofVersion? s with
    | some dialect => .ok dialect
    | none => .error (.unsupported (.str s))
  | other => do
    let _ ← Failure.orTooLong other.display?
    .error (.unsupported other)

/-- The value, or another one if it does not count as present. -/
def orElse (node other : Node) : Node := if node.isTruthy then node else other

def first : Node → Except Failure Node
  | .list (x :: _) => .ok x
  | .str s =>
    match s.toList with
    | c :: _ => .ok (.str (String.singleton c))
    | [] => .error (.malformed .noItems)
  | .scalar (.bytes (b :: _)) => .ok (.int b.toNat)
  | .map entries =>
    match Entries.find? (.int 0) entries with
    | some v => .ok v
    | none => .error (.malformed .noFirstKey)
  | _ => .error (.malformed .noItems)

/-- An address without the slashes at its end. -/
def withoutSlashes : Node → Except Failure String
  | .str s => .ok (String.ofList (Text.dropRightWhile (· == '/') s.toList))
  | .scalar (.bytes _) => .error (.malformed .nearlyText)
  | _ => .error (.malformed .noText)

/-- Scheme, host and base path; without a host the base path alone. -/
def addressV2 (root : Entries) : Except Failure Node := do
  let schemes := member "schemes" root
  let scheme ← if schemes.isTruthy then first schemes else .ok (.str "http")
  let host := member "host" root
  let basePath := orElse (member "basePath" root) (.str "")
  if host.isTruthy then
    return .str ((← scheme.written) ++ "://" ++ (← host.written) ++ (← basePath.written))
  else return basePath

/-- What a server variable stands for. -/
def variableText : Node → Except Failure String
  | .map entries => ((Entries.get? "default" entries).getD (.str "")).written
  | _ => .ok ""

/-- Put the text of each variable in turn in place of its name in braces. -/
def substitute (url : List Char) (declared : Entries) : Except Failure (List Char) :=
  declared.foldlM (fun url (key, spec) => do
    let name ← key.written
    let text ← variableText spec
    return Text.replace ('\x7b' :: name.toList ++ ['\x7d']) text.toList url) url

/-- The address of the first server, with its variables put in. -/
def addressV3 (root : Entries) : Except Failure Node := do
  let servers := member "servers" root
  let server ← if servers.isTruthy then first servers else .ok (.map [])
  let declared ← members server
  let url := orElse (member "url" declared) (.str "")
  let slots ← members (orElse (member "variables" declared) (.map []))
  if slots.isEmpty then .ok url
  else
    match url with
    | .str s => return .str (String.ofList (← substitute s.toList slots))
    | .scalar (.bytes _) | .scalar (.moment _) => do
      let _ ← substitute [] (slots.take 1)
      .error (.malformed .nearlyText)
    | _ => .error (.malformed .noText)

def server (dialect : Dialect) (document : Node) : Except Failure String := do
  let root ← members document
  let address ← match dialect with
    | .v2 => addressV2 root
    | .v3 => addressV3 root
  withoutSlashes address

end Dialect
end OpenApi
