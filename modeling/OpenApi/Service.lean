import OpenApi.Operation.Build

/-
Services: the operations of a description, grouped by tag.

The operations of a description are listed first, in the order of paths, methods and tags, and then
built one after the other.  A failure ends the building, but what has been built before it stays in
the register.
-/
namespace OpenApi

structure Service where
  name : String
  operations : List Operation := []
  imports : List String := []
  deriving Inhabited

namespace Service

/-- File an operation under its service, which is created at the end if it is new. -/
def file (operation : Operation) : List Service → List Service
  | [] => [{ name := operation.service
             operations := [operation]
             imports := operation.imports }]
  | service :: rest =>
    if service.name = operation.service then
      { service with
        operations := service.operations ++ [operation]
        imports := service.imports ++ operation.imports } :: rest
    else service :: file operation rest

def isRegistered (name : String) (services : List Service) : Bool :=
  services.any (·.name == name)

end Service

/-- The items without repetitions, each where it stands first. -/
def distinctTexts (items : List String) : List String := TypeUse.appendNew [] items

/-- The tags under which an operation is filed: each text among them once, or the default tag. -/
def tagsOf (preferences : Preferences) (node : Node) : List String :=
  match node.get "tags" with
  | .list items =>
    match distinctTexts (items.filterMap Node.text?) with
    | [] => [preferences.defaultTag]
    | tags => tags
  | _ => [preferences.defaultTag]

def entriesOfPath (preferences : Preferences) (path : Scalar) (item : Node) :
    List OperationEntry :=
  let pathParameters := (item.get "parameters").items?.getD []
  requestMethods.flatMap fun method =>
    let node := item.get method
    if node.isMap then
      (tagsOf preferences node).map fun tag => ⟨path, method, tag, node, pathParameters⟩
    else []

/-- The operations that a description declares, once for each tag. -/
def operationEntries (preferences : Preferences) (root : Entries) : List OperationEntry :=
  match Dialect.member "paths" root with
  | .map paths => paths.flatMap fun (path, item) => entriesOfPath preferences path item
  | _ => []

/-- What building a list of operations has come to. -/
structure Collected where
  services : List Service
  warnings : List String
  failure : Option Failure

/-- Build operations one after the other and file them, until one fails. -/
def collect (shop : Workshop) (services : List Service) : List OperationEntry → Collected
  | [] => ⟨services, [], none⟩
  | entry :: rest =>
    let built := entry.build shop
    match built.operation with
    | .error failure => ⟨services, built.warnings, some failure⟩
    | .ok operation =>
      let collected := collect shop (Service.file operation services) rest
      { collected with warnings := built.warnings ++ collected.warnings }

/-- Build the operations of a description, and file them with those of others. -/
def collectFrom (shop : Workshop) (services : List Service) : Collected :=
  match Dialect.members shop.document with
  | .error failure => ⟨services, [], some failure⟩
  | .ok root => collect shop services (operationEntries shop.preferences root)

end OpenApi
