import OpenApi.Operation.Responses
import OpenApi.Text.Uppercase

/-
Building an operation.

The parameters of a path come before those of the operation itself.  A parameter that is declared
twice is kept twice, with a warning; the warnings stand even if a later part of the operation cannot
be resolved.
-/
namespace OpenApi

/-- An operation to be built: where it is declared, and the tag under which it is filed. -/
structure OperationEntry where
  path : Scalar
  method : String
  tag : String
  node : Node
  pathParameters : List Node
  deriving Inhabited

/-- What comes of building an operation: warnings in any case, and the operation or a failure. -/
structure Built where
  warnings : List String
  operation : Except Failure Operation

namespace OperationEntry

/-- The nodes that declare parameters, those of the path first. -/
def parameterNodes (entry : OperationEntry) : List Node :=
  entry.pathParameters ++ ((entry.node.get "parameters").items?.getD [])

def verb (entry : OperationEntry) : String := Text.upper entry.method

/-- The name of a service that a tag or, if nothing is left of it, the default tag gives. -/
def serviceFor (preferences : Preferences) (tag : String) : String :=
  let name := Name.ofTag tag
  if name.isEmpty then Name.ofTag preferences.defaultTag else name

/-- The name that an operation id or, if nothing is left of it, the method gives. -/
def nameFor (node : Node) (method : String) : String :=
  let name := Name.ofOperation (node.get "operationId").str? method
  if name.isEmpty then Name.ofOperation none method else name

/-- The body that an operation declares apart from its parameters. -/
def body? (shop : Workshop) (entry : OperationEntry) : Except Failure (Option Parameter) :=
  if shop.dialect.hasRequestBody then
    match entry.node.get? "requestBody" with
    | some node => Parameter.buildBody? shop node
    | none => .ok none
  else .ok none

/-- The operation that its parts make up. -/
def assemble (shop : Workshop) (entry : OperationEntry) (path : String)
    (declared : List Parameter) (body : Option Parameter) (responses : List Response) : Operation :=
  let parameters := declared ++ body.toList
  let results := Response.results responses
  let groups := Parameter.group declared
  { service := serviceFor shop.preferences entry.tag
    name := nameFor entry.node entry.method
    summary := (entry.node.get "summary").text?
    description := (entry.node.get "description").text?
    deprecated := (entry.node.get "deprecated").isTrue
    method := entry.verb
    path := path
    parameters := Parameter.indispensableFirst parameters
    groups := { groups with body := body.or groups.body }
    imports := parameters.flatMap (·.imports) ++ results.flatMap (·.imports)
    errors := Response.errors responses
    results := results
    responseHeader := Response.headerName? results }

/-- Everything after the parameters. -/
def finish (shop : Workshop) (entry : OperationEntry) (path : String) (declared : List Parameter) :
    Except Failure Operation := do
  let body ← body? shop entry
  let responses ← Response.buildAll shop (entry.node.get "responses")
  return assemble shop entry path declared body responses

def build (shop : Workshop) (entry : OperationEntry) : Built :=
  match entry.path.written with
  | .error failure => ⟨[], .error failure⟩
  | .ok path =>
    match Parameter.buildAll shop entry.parameterNodes with
    | .error failure => ⟨[], .error failure⟩
    | .ok declared =>
      ⟨Parameter.duplicateWarnings entry.verb path declared, finish shop entry path declared⟩

end OperationEntry
end OpenApi
