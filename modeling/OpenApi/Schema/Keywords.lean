import OpenApi.Model.Basic

/-
What a schema says besides its shape: names, flags, limits and the default value.

Keywords of the wrong kind say nothing.  A truth value is no number here, although it counts as one
when values are compared.
-/
namespace OpenApi.Schema

/-- Whether the declared type, a name or a list of names, includes a name. -/
def declaresType (schema : Node) (name : String) : Bool :=
  match schema.get "type" with
  | .list names => Node.listHas name names
  | declared => declared.isText name

/-- Null is allowed by either of two keywords, or by `null` among the declared types. -/
def allowsNull (schema : Node) : Bool :=
  (schema.get "nullable").isTrue || (schema.get "x-nullable").isTrue ||
    match schema.get "type" with
    | .list names => Node.listHas "null" names
    | _ => false

def number? : Node → Option Number
  | .int n => some (.int n)
  | .float x => some (.float x)
  | _ => none

def bound? : Node → Option Bound
  | .bool b => some (.flag b)
  | node => (number? node).map .number

def int? : Node → Option Int
  | .int n => some n
  | _ => none

def bool? : Node → Option Bool
  | .bool b => some b
  | _ => none

/-- A pattern with each backslash doubled, so that it survives inside a literal. -/
def pattern? : Node → Option String
  | .str s => some (String.ofList (Text.replaceChar '\\' ['\\', '\\'] s.toList))
  | _ => none

def constraints (schema : Node) : Constraints where
  format := (schema.get "format").str?
  maximum := number? (schema.get "maximum")
  exclusiveMaximum := bound? (schema.get "exclusiveMaximum")
  minimum := number? (schema.get "minimum")
  exclusiveMinimum := bound? (schema.get "exclusiveMinimum")
  multipleOf := number? (schema.get "multipleOf")
  maxLength := int? (schema.get "maxLength")
  minLength := int? (schema.get "minLength")
  pattern := pattern? (schema.get "pattern")
  maxItems := int? (schema.get "maxItems")
  minItems := int? (schema.get "minItems")
  uniqueItems := bool? (schema.get "uniqueItems")
  maxProperties := int? (schema.get "maxProperties")
  minProperties := int? (schema.get "minProperties")

/-- A model with everything that does not depend on the shape of the schema. -/
def plainModel (schema : Node) (name : String) (isDefinition : Bool) : Model :=
  { name := name
    description := (schema.get "description").text?
    deprecated := (schema.get "deprecated").isTrue
    isDefinition := isDefinition
    isReadOnly := (schema.get "readOnly").isTrue
    isNullable := allowsNull schema
    constraints := constraints schema }

/-- Lists and maps as literals span several lines. -/
def literalStyle : Json.Style := ⟨some 4, true, false⟩

/-- The literal of an integer: in an enumeration it counts its members. -/
def intLiteral (members : List Enumerator) (n : Int) : Except Failure String :=
  match if n < 0 then none else members[n.toNat]? with
  | some member => .ok member.value
  | none => Failure.orTooLong (Number.literal? (.int n))

/-- The literal of a default value, as far as it has one.  It follows the kind of the value and not
the declared type. -/
def literalOf (members : List Enumerator) : Node → Except Failure (Option String)
  | .null => .ok (some "null")
  | .bool b => .ok (some (if b then "true" else "false"))
  | .int n => (intLiteral members n).map some
  | .float x => (Failure.orTooLong (Number.literal? (.float x))).map some
  | .str s => .ok (some ("'" ++ s ++ "'"))
  | .list items => .ok (Json.render? literalStyle (.list items))
  | .map entries => .ok (Json.render? literalStyle (.map entries))
  | _ => .ok none

/-- The literal of the default of a schema, given the model that was built from it. -/
def defaultLiteral (schema : Node) (model : Option Model) : Except Failure (Option String) :=
  let members := match model with
    | some m => if m.kind = .enumeration then m.enumerators else []
    | none => []
  match schema.get? "default" with
  | some value => literalOf members value
  | none => .ok none

def withDefault (schema : Node) (model : Model) : Except Failure Model :=
  (defaultLiteral schema (some model)).map fun literal => { model with default := literal }

end OpenApi.Schema
