import OpenApi.Operation.Basic
import OpenApi.Operation.Content
import OpenApi.Schema.Build

/-
Parameters and bodies of operations.
-/
namespace OpenApi

/-- What operations are built with: the description they stand in, and the user's preferences. -/
structure Workshop extends Scope where
  preferences : Preferences := {}

namespace Parameter

/-- Members of a parameter object that are no keywords of its schema. -/
def ownKeywords : List String :=
  ["name", "in", "required", "description", "deprecated", "allowEmptyValue", "collectionFormat",
    "schema", "content", "style", "explode", "example", "examples"]

/-- A parameter object without the members that are its own. -/
def inlineSchema : Node → Node
  | .map entries => .map (entries.filter fun (key, _) =>
      match key with
      | .str s => !ownKeywords.contains s
      | _ => true)
  | node => node

/-- The schema of a parameter: declared as such, written into the parameter itself, or declared for
its content. -/
def schemaOf (shop : Workshop) (node : Node) (location : Location) : Except Failure Node :=
  match node.get "schema" with
  | .map entries => .ok (.map entries)
  | _ =>
    if !shop.dialect.hasRequestBody && location != .body then .ok (inlineSchema node)
    else (Content.schema shop.preferences (node.get "content")).map (·.getD (.map []))

/-- The location that a parameter object names; nothing if the dialect has no such location. -/
def locationOf? (dialect : Dialect) : Node → Except Failure (Option Location)
  | .str s => .ok ((Location.ofDialect dialect).find? (·.name == s))
  | .list _ | .map _ => .error (.malformed .compoundKey)
  | _ => .ok none

def wireNameOf (node : Node) : Except Failure String :=
  let name := node.get "name"
  if name.isTruthy then name.written else .ok ""

/-- The parameter that a parameter object, the name in it and the model of its schema make up. -/
def ofModel (node : Node) (location : Location) (wireName : String) (model : Model) : Parameter :=
  { model with
    name := Name.ofParameter wireName
    description := (node.get "description").text?
    deprecated := (node.get "deprecated").isTrue
    isRequired := location == .path || (node.get "required").isTrue
    isNullable := model.isNullable || (node.get "x-nullable").isTrue
    location := location
    wireName := wireName }

/-- The parameter that a node declares; nothing if it declares none of a known location. -/
def build? (shop : Workshop) (node : Node) : Except Failure (Option Parameter) := do
  let target ← Reference.target shop.document node
  if !target.isMap then return none
  match ← locationOf? shop.dialect (target.get "in") with
  | none => return none
  | some location =>
    let wireName ← wireNameOf target
    let model ← Schema.build shop.toScope (← schemaOf shop target location) "" false
    return some (ofModel target location wireName model)

/-- Whether operations leave a parameter out.  The version of the interface belongs to the client
and not to its calls. -/
def isExcluded (preferences : Preferences) (parameter : Parameter) : Bool :=
  parameter.wireName == "api-version" ||
    preferences.excludedParameters.contains parameter.wireName

/-- The parameters that a list of nodes declares, without those that are left out. -/
def buildAll (shop : Workshop) (nodes : List Node) : Except Failure (List Parameter) := do
  let built ← nodes.mapM (build? shop)
  return (built.filterMap id).filter (!isExcluded shop.preferences ·)

def located (location : Location) (parameters : List Parameter) : List Parameter :=
  parameters.filter (·.location == location)

/-- The parameters by location; the last one located in the body is the body. -/
def group (parameters : List Parameter) : LocatedParameters where
  path := located .path parameters
  query := located .query parameters
  form := located .formData parameters
  header := located .header parameters
  cookie := located .cookie parameters
  body := (located .body parameters).getLast?

/-- Whether a call is impossible without the parameter. -/
def isIndispensable (parameter : Parameter) : Bool :=
  parameter.isRequired && parameter.default.isNone

/-- The indispensable parameters first, all else in order. -/
def indispensableFirst (parameters : List Parameter) : List Parameter :=
  parameters.filter isIndispensable ++ parameters.filter (!isIndispensable ·)

/-- The parameter that a declared request body and the model of its schema make up. -/
def ofBody (node : Node) (mediaType : Option String) (model : Model) : Parameter :=
  let isForm := mediaType.any Content.isForm
  let name := if isForm then "formData" else "requestBody"
  { model with
    name := name
    description := (node.get "description").text?
    isRequired := (node.get "required").isTrue
    isNullable := model.isNullable || (node.get "nullable").isTrue
    location := if isForm then .formData else .body
    wireName := name
    mediaType := mediaType }

/-- The parameter for a declared request body, if the node declares one. -/
def buildBody? (shop : Workshop) (node : Node) : Except Failure (Option Parameter) := do
  let target ← Reference.target shop.document node
  if !target.isMap then return none
  match ← Content.select shop.preferences (target.get "content") with
  | some (mediaType, schema) =>
    let model ← Schema.build shop.toScope schema "" false
    return some (ofBody target (some mediaType) model)
  | none => return some (ofBody target none {})

/-- The warnings for parameters that share name and location with an earlier one. -/
def duplicateWarnings (method path : String) (parameters : List Parameter) : List String :=
  let step (state : List (String × Location) × List String) (p : Parameter) :=
    let (seen, warnings) := state
    if seen.contains (p.wireName, p.location) then
      (seen, warnings ++ [method ++ " " ++ path ++ " declares " ++ p.location.name ++
        " parameter " ++ Text.Quoted.text p.wireName ++ " more than once; keeping both"])
    else ((p.wireName, p.location) :: seen, warnings)
  (parameters.foldl step ([], [])).2

end Parameter
end OpenApi
