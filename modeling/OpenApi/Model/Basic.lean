import OpenApi.Enumerator
import OpenApi.TypeUse

/-
Models: what a schema says, in the form that generated code is written from.

A model is built for every schema definition, property, parameter, body and response.  Its kind
tells which of the other fields matter: `link` for arrays and dictionaries, `enumerators` for
enumerations, `properties` for records and compositions.
-/
namespace OpenApi

inductive ModelKind where
  | record
  | reference
  | enumeration
  | array
  | dictionary
  | oneOf
  | anyOf
  | allOf
  | generic
  deriving DecidableEq, Repr, Inhabited

def ModelKind.name : ModelKind → String
  | .record => "record"
  | .reference => "reference"
  | .enumeration => "enumeration"
  | .array => "array"
  | .dictionary => "dictionary"
  | .oneOf => "one-of"
  | .anyOf => "any-of"
  | .allOf => "all-of"
  | .generic => "generic"

def ModelKind.all : List ModelKind :=
  [.record, .reference, .enumeration, .array, .dictionary, .oneOf, .anyOf, .allOf, .generic]

/-- An exclusive limit: a number, or a mark on the inclusive limit. -/
inductive Bound where
  | flag (b : Bool)
  | number (n : Number)
  deriving DecidableEq, Inhabited

/-- What a schema demands of a value beyond its type. -/
structure Constraints where
  format : Option String := none
  maximum : Option Number := none
  exclusiveMaximum : Option Bound := none
  minimum : Option Number := none
  exclusiveMinimum : Option Bound := none
  multipleOf : Option Number := none
  maxLength : Option Int := none
  minLength : Option Int := none
  pattern : Option String := none
  maxItems : Option Int := none
  minItems : Option Int := none
  uniqueItems : Option Bool := none
  maxProperties : Option Int := none
  minProperties : Option Int := none
  deriving DecidableEq, Inhabited

structure Model extends TypeText where
  name : String := ""
  kind : ModelKind := .generic
  /-- The model of the items or values. -/
  link : Option Model := none
  description : Option String := none
  deprecated : Bool := false
  isDefinition : Bool := false
  isReadOnly : Bool := false
  isRequired : Bool := false
  isNullable : Bool := false
  constraints : Constraints := {}
  /-- The default value as a literal of generated code. -/
  default : Option String := none
  enumerators : List Enumerator := []
  /-- The enumerations among the properties, at any depth. -/
  enums : List Model := []
  properties : List Model := []
  imports : List String := []
  deriving Inhabited

end OpenApi
