import OpenApi.Client.Basic
import OpenApi.Number.Numeral

/-
Clients from plain values, in the form that `Dump` writes.

Reading is strict about kinds: a member that should be a text, a list or a map has to be one, and a
member that has to be there must not be left out.  It is liberal with numbers and flags, which may
also be written as texts or as each other.  A key may be written with underscores between its words,
members without a meaning do not count, and what is left out is as usual.  One wrong member refuses
the whole value.
-/
namespace OpenApi.Read

/-! ### Members -/

/-- A part of a value is smaller than the value. -/
abbrev Part (node : Node) := { part : Node // part.size < node.size }

/-- A key with underscores between its words, and without capital letters. -/
def underscored (key : String) : String :=
  String.ofList (key.toList.flatMap fun c => if c.isUpper then ['_', c.toLower] else [c])

def part? (key : String) (node : Node) : Option (Part node) :=
  match h : node.get? key with
  | some v => some ⟨v, Node.size_lt_of_get? h⟩
  | none => none

/-- The value at a key in either spelling. -/
def member? (key : String) (node : Node) : Option (Part node) :=
  (part? key node).orElse fun _ => part? (underscored key) node

variable {α : Type}

def required (key : String) (read : Node → Option α) (node : Node) : Option α :=
  (member? key node).bind fun part => read part.1

/-- A member that may be left out. -/
def usual (key : String) (fallback : α) (read : Node → Option α) (node : Node) : Option α :=
  match member? key node with
  | some part => read part.1
  | none => some fallback

/-- A member that may be left out, or null instead. -/
def optional (key : String) (read : Node → Option α) (node : Node) : Option (Option α) :=
  usual key none (fun value => if value.isNull then some none else (read value).map some) node

def listOf (read : Node → Option α) (node : Node) : Option (List α) :=
  node.items?.bind fun items => items.mapM read

/-- The items of the list in a member, which may be left out. -/
def items? (key : String) (node : Node) : Option (List (Part node)) :=
  match member? key node with
  | none => some []
  | some ⟨.list items, small⟩ =>
    some (items.attach.map fun ⟨item, among⟩ =>
      ⟨item, by
        have := Node.size_le_of_mem among
        simp only [Node.size] at small
        omega⟩)
  | some _ => none

/-! ### Flags and numbers -/

/-- The truth value that a word stands for, in letters of either case. -/
def flagWord? (word : String) : Option Bool :=
  let lower := String.ofList (word.toList.map Char.toLower)
  if ["1", "on", "t", "true", "y", "yes"].contains lower then some true
  else if ["0", "off", "f", "false", "n", "no"].contains lower then some false
  else none

def flag : Node → Option Bool
  | .bool b => some b
  | .int n => if n = 1 then some true else if n = 0 then some false else none
  | .float x => if x.equalsInt 1 then some true else if x.equalsInt 0 then some false else none
  | .str word => flagWord? word
  | _ => none

/-- A text without a point and the zeros after it, if it ends in them. -/
def withoutZeroFraction (cs : List Char) : List Char :=
  match cs.dropWhile (· != '.') with
  | '.' :: fraction => if fraction.all (· == '0') then cs.takeWhile (· != '.') else cs
  | _ => cs

/-- The integer that a text names in ASCII digits, which may have single underscores between them.
After a minus sign, a numeral of several digits must not begin with a zero. -/
def wholeNumeral? (text : String) : Option Int :=
  let (negative, rest) := Numeral.sign (Numeral.unpad text.toList)
  let body := withoutZeroFraction rest
  if body.all (fun c => c.isDigit || c == '_') then
    match Numeral.digits? 10 body with
    | none => none
    | some digits =>
      if digits.length > Number.longest then none
      else if negative && digits.head? == some 0 && digits.length > 1 then none
      else some (Numeral.negateIf negative (Numeral.value (body.filter Char.isDigit)))
  else none

/-- Doubles beyond this are not taken for integers. -/
def farthest : Int := 0x8000000000000000

def int : Node → Option Int
  | .int n => some n
  | .bool b => some (if b then 1 else 0)
  | .float x => x.toInt?.filter fun n => -farthest < n && n < farthest
  | .str text => wholeNumeral? text
  | _ => none

/-- A text without its underscores, which stand alone and not at an end. -/
def withoutUnderscores? (cs : List Char) : Option (List Char) :=
  let ends := cs.head? == some '_' || cs.getLast? == some '_'
  if ends || Text.occurs ['_', '_'] cs then none else some (cs.filter (· != '_'))

/-- The double that a text names. -/
def doubleNumeral? (text : String) : Option Double :=
  let cs := text.toList
  let isPlain := (Numeral.unpad cs).all fun c => c.toNat < 128
  if isPlain then
    (Numeral.double? cs).orElse fun _ => (withoutUnderscores? cs).bind Numeral.double?
  else none

/-- A number; a text counts as an integer if it can. -/
def number : Node → Option Number
  | .float x => some (.float x)
  | .str text =>
    ((wholeNumeral? text).map Number.int).orElse fun _ => (doubleNumeral? text).map Number.float
  | node => (int node).map Number.int

/-- A bound; a text counts as a flag if it can. -/
def bound : Node → Option Bound
  | .bool b => some (.flag b)
  | .str text =>
    ((flagWord? text).map Bound.flag).orElse fun _ => (number (.str text)).map Bound.number
  | node => (number node).map Bound.number

/-! ### Models -/

def enumerator (node : Node) : Option Enumerator := do
  return {
    name := ← required "name" Node.str? node
    value := ← required "value" Node.str? node
    type := ← usual "type" "string" Node.str? node
    description := ← optional "description" Node.str? node }

def constraints (node : Node) : Option Constraints := do
  return {
    format := ← optional "format" Node.str? node
    maximum := ← optional "maximum" number node
    exclusiveMaximum := ← optional "exclusiveMaximum" bound node
    minimum := ← optional "minimum" number node
    exclusiveMinimum := ← optional "exclusiveMinimum" bound node
    multipleOf := ← optional "multipleOf" number node
    maxLength := ← optional "maxLength" int node
    minLength := ← optional "minLength" int node
    pattern := ← optional "pattern" Node.str? node
    maxItems := ← optional "maxItems" int node
    minItems := ← optional "minItems" int node
    uniqueItems := ← optional "uniqueItems" flag node
    maxProperties := ← optional "maxProperties" int node
    minProperties := ← optional "minProperties" int node }

def kind (node : Node) : Option ModelKind :=
  node.str?.bind fun name => ModelKind.all.find? (·.name == name)

/-- A model without the models in it. -/
def plainModel (node : Node) : Option Model := do
  return {
    name := ← usual "name" "" Node.str? node
    kind := ← usual "export" .generic kind node
    type := ← usual "type" "any" Node.str? node
    base := ← usual "base" "any" Node.str? node
    template := ← optional "template" Node.str? node
    description := ← optional "description" Node.str? node
    deprecated := ← usual "deprecated" false flag node
    isDefinition := ← usual "isDefinition" false flag node
    isReadOnly := ← usual "isReadOnly" false flag node
    isRequired := ← usual "isRequired" false flag node
    isNullable := ← usual "isNullable" false flag node
    constraints := ← constraints node
    default := ← optional "default" Node.str? node
    enumerators := ← usual "enum" [] (listOf enumerator) node
    imports := ← usual "imports" [] (listOf Node.str?) node }

def model (node : Node) : Option Model := do
  if !node.isMap then none
  let plain ← plainModel node
  let enums ← (← items? "enums" node).mapM fun part => model part.1
  let properties ← (← items? "properties" node).mapM fun part => model part.1
  let link ← match member? "link" node with
    | none => some none
    | some part => if part.1.isNull then some none else (model part.1).map some
  return { plain with link := link, enums := enums, properties := properties }
termination_by node.size
decreasing_by all_goals exact part.2

/-! ### Operations and clients -/

/-- The value of the member for a location, whose other spelling ends in an underscore. -/
def location? (node : Node) : Option Node := (node.get? "in").orElse fun _ => node.get? "in_"

def parameter (node : Node) : Option Parameter := do
  return {
    toModel := ← model node
    location := ← ((location? node).bind Node.str?).bind Location.ofName?
    wireName := ← required "prop" Node.str? node
    mediaType := ← optional "mediaType" Node.str? node }

/-- Where the value of a response comes from; by itself it is the content. -/
def source (node : Node) : Option ResponseSource :=
  match location? node with
  | none => some .content
  | some name => name.str?.bind fun name =>
    [ResponseSource.content, .header].find? (·.name == name)

def response (node : Node) : Option Response := do
  return {
    toModel := ← model node
    source := ← source node
    code := ← required "code" int node }

def errorCase (node : Node) : Option ErrorCase := do
  return {
    code := ← required "code" int node
    description := ← required "description" Node.str? node }

def parameters (key : String) (node : Node) : Option (List Parameter) :=
  usual key [] (listOf parameter) node

def groups (node : Node) : Option LocatedParameters := do
  return {
    path := ← parameters "parametersPath" node
    query := ← parameters "parametersQuery" node
    form := ← parameters "parametersForm" node
    header := ← parameters "parametersHeader" node
    cookie := ← parameters "parametersCookie" node
    body := ← optional "parametersBody" parameter node }

def operation (node : Node) : Option Operation := do
  return {
    service := ← required "service" Node.str? node
    name := ← required "name" Node.str? node
    summary := ← optional "summary" Node.str? node
    description := ← optional "description" Node.str? node
    deprecated := ← usual "deprecated" false flag node
    method := ← required "method" Node.str? node
    path := ← required "path" Node.str? node
    parameters := ← parameters "parameters" node
    groups := ← groups node
    imports := ← usual "imports" [] (listOf Node.str?) node
    errors := ← usual "errors" [] (listOf errorCase) node
    results := ← usual "results" [] (listOf response) node
    responseHeader := ← optional "responseHeader" Node.str? node }

def service (node : Node) : Option Service := do
  return {
    name := ← required "name" Node.str? node
    operations := ← usual "operations" [] (listOf operation) node
    imports := ← usual "imports" [] (listOf Node.str?) node }

def client (node : Node) : Option Client := do
  return {
    version := ← required "version" Node.str? node
    server := ← required "server" Node.str? node
    models := ← usual "models" [] (listOf model) node
    services := ← usual "services" [] (listOf service) node }

end OpenApi.Read
