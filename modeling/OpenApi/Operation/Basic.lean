import OpenApi.Model.Basic

/-
Operations: what a client can call, with its parameters, results and errors.
-/
namespace OpenApi

inductive Location where
  | path
  | query
  | header
  | cookie
  | formData
  | body
  deriving DecidableEq, Repr, Inhabited

namespace Location

def name : Location → String
  | .path => "path"
  | .query => "query"
  | .header => "header"
  | .cookie => "cookie"
  | .formData => "formData"
  | .body => "body"

def all : List Location := [.path, .query, .header, .cookie, .formData, .body]

def ofName? (name : String) : Option Location := all.find? (·.name == name)

def ofDialect : Dialect → List Location
  | .v2 => [.path, .query, .header, .formData, .body]
  | .v3 => [.path, .query, .header, .cookie, .formData]

end Location

/-- A model that is passed to an operation. -/
structure Parameter extends Model where
  location : Location := .query
  /-- The name in a request. -/
  wireName : String := ""
  mediaType : Option String := none
  deriving Inhabited

inductive ResponseSource where
  | content
  | header
  deriving DecidableEq, Repr, Inhabited

def ResponseSource.name : ResponseSource → String
  | .content => "response"
  | .header => "header"

/-- A model that an operation returns for one status code. -/
structure Response extends Model where
  source : ResponseSource := .content
  code : Int := 200
  deriving Inhabited

/-- A status code that is no success. -/
structure ErrorCase where
  code : Int
  description : String
  deriving DecidableEq, Inhabited

/-- The parameters of an operation by their place in a request, each in the order of declaration. -/
structure LocatedParameters where
  path : List Parameter := []
  query : List Parameter := []
  form : List Parameter := []
  header : List Parameter := []
  cookie : List Parameter := []
  body : Option Parameter := none
  deriving Inhabited

structure Operation where
  service : String
  name : String
  summary : Option String := none
  description : Option String := none
  deprecated : Bool := false
  method : String
  path : String
  /-- All parameters, those without which the operation cannot be called first. -/
  parameters : List Parameter := []
  groups : LocatedParameters := {}
  imports : List String := []
  errors : List ErrorCase := []
  results : List Response := []
  responseHeader : Option String := none
  deriving Inhabited

/-- The methods of requests, in the order in which the operations of a path are built. -/
def requestMethods : List String :=
  ["get", "put", "post", "delete", "options", "head", "patch", "trace"]

end OpenApi
