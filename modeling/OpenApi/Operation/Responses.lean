import OpenApi.Operation.Parameters

/-
Responses of operations, and the results and errors that follow from them.
-/
namespace OpenApi.Response

/-- The status code that a key of a responses map stands for.  `default` counts as success; a key
that is no numeral stands for none. -/
def codeOf? (key : Scalar) : Except Failure (Option Int) :=
  match key with
  | .bool _ => .ok none
  | .int n => .ok (some n)
  | key => do
    let cs := Text.trim (← key.written).toList
    if cs = "default".toList then .ok (some 200)
    else if !cs.isEmpty && cs.all Text.isDigitLike then
      match Numeral.signed? cs with
      | some n => .ok (some n)
      | none => .error (.malformed .noDecimal)
    else .ok none

/-- Where responses that can be shared are declared. -/
def sharedPrefixes : List String := ["#/responses/", "#/components/responses/"]

/-- A schema that refers to a shared response stands for that response. -/
def schemaTarget (shop : Workshop) (schema : Node) : Except Failure Node :=
  match schema.get "$ref" with
  | .str ref =>
    if sharedPrefixes.any fun start => start.toList.isPrefixOf ref.toList then
      Reference.resolve shop.document (.str ref)
    else .ok schema
  | _ => .ok schema

/-- The schema of the body of a response. -/
def schemaOf (shop : Workshop) (node : Node) : Except Failure (Option Node) :=
  if shop.dialect.hasRequestBody then Content.schema shop.preferences (node.get "content")
  else .ok ((node.get? "schema").filter Node.isMap)

/-- The response without a body: its first header takes the place of the body. -/
def ofHeaders (node : Node) (code : Int) : Except Failure Response :=
  let description := (node.get "description").text?
  match node.get "headers" with
  | .map ((key, _) :: _) =>
    key.written.map fun name =>
      { name := name
        type := "string"
        base := "string"
        description := description
        source := .header
        code := code }
  | _ => .ok { description := description, code := code }

/-- The response that a node declares for a status code. -/
def build (shop : Workshop) (node : Node) (code : Int) : Except Failure Response := do
  let target ← Reference.target shop.document node
  match ← schemaOf shop target with
  | some schema =>
    let model ← Schema.build shop.toScope (← schemaTarget shop schema) "" false
    return { model with
      name := ""
      description := (target.get "description").text?
      code := code }
  | none => ofHeaders target code

/-- The response for an entry of a responses map, if its key names a status code. -/
def ofMember? (shop : Workshop) (entry : Scalar × Node) : Except Failure (Option Response) := do
  match ← codeOf? entry.1 with
  | some code => return some (← build shop entry.2 code)
  | none => return none

/-- The responses that a responses map declares, in the order of their codes. -/
def buildAll (shop : Workshop) (node : Node) : Except Failure (List Response) :=
  match node with
  | .map entries => do
    let built ← entries.mapM (ofMember? shop)
    return (built.filterMap id).mergeSort (fun a b => a.code ≤ b.code)
  | _ => .ok []

/-- Whether two models have the same type: the same text and, where both are linked to the model of
their elements, elements of the same type. -/
def sameType : Model → Model → Bool
  | m@{ link := some a, .. }, n =>
    m.toTypeText == n.toTypeText &&
      match n.link with
      | some b => sameType a b
      | none => true
  | m, n => m.toTypeText == n.toTypeText

/-- Success with something to return. -/
def isResult (response : Response) : Bool :=
  200 ≤ response.code && response.code < 300 && response.code != 204

/-- The result of an operation that returns nothing. -/
def nothing : Response := { type := "void", base := "void", code := 200 }

/-- The results among the responses, one of each type; if there are none, the result is nothing. -/
def results (responses : List Response) : List Response :=
  match responses.filter isResult with
  | [] => [nothing]
  | found =>
    found.foldl (fun kept r =>
      if kept.any (fun seen => sameType r.toModel seen.toModel) then kept else kept ++ [r]) []

/-- The errors among the responses: those that say what went wrong. -/
def errors (responses : List Response) : List ErrorCase :=
  responses.filterMap fun r =>
    if r.code < 300 then none
    else (r.description.filter (!·.isEmpty)).map fun description => ⟨r.code, description⟩

/-- The header that the first result out of a header is named for. -/
def headerName? (results : List Response) : Option String :=
  (results.find? (·.source == .header)).map (·.name)

end OpenApi.Response
