import OpenApi.Service

/-
Clients: everything that generated code for a description is written from, and how it is tidied.

Tidying looks at the whole client at once.  Lists of imports lose repetitions and the name of the
model they belong to, and are ordered without regard to case; of enumerations with one name the
first stays; operations of one service that share a name are numbered.
-/
namespace OpenApi

structure Client where
  version : String
  server : String
  models : List Model := []
  services : List Service := []
  deriving Inhabited

/-- Items in the order of their names in lower case; what is equal there keeps its order. -/
def sortByName {α : Type} (name : α → String) (items : List α) : List α :=
  items.mergeSort fun a b => Text.lower (name a) ≤ Text.lower (name b)

/-- Imports without repetitions and without one name, in order. -/
def tidyImports (imports : List String) (exclude : Option String) : List String :=
  sortByName id ((distinctTexts imports).filter fun name => some name != exclude)

namespace Model

mutual

/-- A model with tidy imports and enumerations, at every depth. -/
def tidy : Model → Model
  | m@{ name, link, enumerators, enums, properties, imports, .. } =>
    { m with
      imports := tidyImports imports (some name)
      enumerators := uniqueByName Enumerator.name enumerators
      enums := uniqueByName Model.name (tidyAll enums)
      properties := tidyAll properties
      link := tidyLink link }

def tidyAll : List Model → List Model
  | [] => []
  | m :: ms => m.tidy :: tidyAll ms

def tidyLink : Option Model → Option Model
  | none => none
  | some m => some m.tidy

end

end Model

def Parameter.tidy (p : Parameter) : Parameter := { p with toModel := p.toModel.tidy }

def Response.tidy (r : Response) : Response := { r with toModel := r.toModel.tidy }

def LocatedParameters.tidy (g : LocatedParameters) : LocatedParameters where
  path := g.path.map Parameter.tidy
  query := g.query.map Parameter.tidy
  form := g.form.map Parameter.tidy
  header := g.header.map Parameter.tidy
  cookie := g.cookie.map Parameter.tidy
  body := g.body.map Parameter.tidy

namespace Operation

/-- An operation with tidy parts, and the imports of its parts among its own. -/
def tidy (operation : Operation) : Operation :=
  let parameters := operation.parameters.map Parameter.tidy
  let results := operation.results.map Response.tidy
  { operation with
    imports := tidyImports (operation.imports ++ parameters.flatMap (·.imports) ++
      results.flatMap (·.imports)) none
    parameters := parameters
    groups := operation.groups.tidy
    results := results }

/-- A name with the number of earlier operations of that name, if there are any. -/
def numbered (name : String) (earlier : Nat) : String :=
  if earlier = 0 then name else name ++ toString earlier

/-- The operations of one service, tidied and numbered; `earlier` are the names so far. -/
def tidyFrom (earlier : List String) : List Operation → List Operation
  | [] => []
  | operation :: rest =>
    { operation.tidy with name := numbered operation.name (earlier.count operation.name) } ::
      tidyFrom (operation.name :: earlier) rest

def tidyAll (operations : List Operation) : List Operation := tidyFrom [] operations

end Operation

def Service.tidy (service : Service) : Service :=
  let operations := Operation.tidyAll service.operations
  { service with
    operations := operations
    imports := tidyImports (service.imports ++ operations.flatMap (·.imports)) none }

/-- The client with everything in it tidied, models and services in the order of their names. -/
def Client.tidy (client : Client) : Client :=
  { client with
    models := sortByName Model.name (client.models.map Model.tidy)
    services := sortByName Service.name (client.services.map Service.tidy) }

end OpenApi
