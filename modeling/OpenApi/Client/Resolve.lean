import OpenApi.Client.Basic

/-
From a description to a client.
-/
namespace OpenApi

/-- The name of the model for a definition. -/
def modelName (scope : Scope) (key : Scalar) : Except Failure String :=
  key.written.map fun name => Name.avoidReserved (TypeUse.ofText scope.dialect name .null).base

def definitionModel (scope : Scope) (entry : Scalar × Node) : Except Failure Model := do
  Schema.build scope entry.2 (← modelName scope entry.1) true

/-- The shared parameters of a description that hold a schema. -/
def sharedParameters (scope : Scope) : Except Failure Entries :=
  match scope.dialect with
  | .v2 => .ok []
  | .v3 => do
    let root ← Dialect.members scope.document
    match (Dialect.member "components" root).get "parameters" with
    | .map entries => return entries.filter fun (_, parameter) => (parameter.get "schema").isMap
    | _ => return []

/-- The model of a shared parameter: that of its schema, with its own description. -/
def sharedParameterModel (scope : Scope) (entry : Scalar × Node) : Except Failure Model := do
  let name ← modelName scope entry.1
  let model ← Schema.build scope (entry.2.get "schema") name true
  return { model with
    description := (entry.2.get "description").text?
    deprecated := (entry.2.get "deprecated").isTrue }

/-- The models of all definitions, in the order of the description. -/
def definitionModels (scope : Scope) : Except Failure (List Model) := do
  let schemas ← (scope.dialect.schemas scope.document).mapM (definitionModel scope)
  let parameters ← (← sharedParameters scope).mapM (sharedParameterModel scope)
  return schemas ++ parameters

/-- A version without a leading v. -/
def withoutLetter (version : List Char) : List Char :=
  match version with
  | 'v' :: rest => rest
  | 'V' :: rest => rest
  | cs => cs

/-- The version of the interface, without a leading v. -/
def versionOf (root : Entries) : Except Failure String :=
  match (Dialect.member "info" root).get "version" with
  | .null => .ok "0.0.0"
  | version => version.written.map fun text => String.ofList (withoutLetter text.toList)

/-- What comes of resolving a description: warnings in any case, and the client or a failure. -/
structure Resolution where
  warnings : List String
  client : Except Failure Client

/-- Everything after the operations. -/
def Client.ofParts (scope : Scope) (models : List Model) (collected : Collected) :
    Except Failure Client := do
  if let some failure := collected.failure then throw failure
  let root ← Dialect.members scope.document
  let version ← versionOf root
  let server ← scope.dialect.server scope.document
  return Client.tidy
    { version := version
      server := server
      models := models
      services := collected.services }

/-- Resolve a description in a known dialect. -/
def Client.resolveIn (scope : Scope) (preferences : Preferences) : Resolution :=
  match definitionModels scope with
  | .error failure => ⟨[], .error failure⟩
  | .ok models =>
    let shop : Workshop := { scope with preferences := preferences }
    let collected := collectFrom shop []
    ⟨collected.warnings, ofParts scope models collected⟩

def Client.resolve (preferences : Preferences) (document : Node) : Resolution :=
  match Dialect.detect document with
  | .error failure => ⟨[], .error failure⟩
  | .ok dialect => resolveIn { document := document, dialect := dialect } preferences

end OpenApi
