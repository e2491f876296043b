import OpenApi.Client.Basic

/-
Clients as plain values, in the form that renderers read.

Members stand in a fixed order.  What a model does not say is left out; flags and lists are always
there.
-/
namespace OpenApi.Dump

def always (key : String) (value : Node) : Entries := [(.str key, value)]

/-- A member that is left out if there is nothing to say. -/
def optional (key : String) (value : Option Node) : Entries :=
  match value with
  | some v => always key v
  | none => []

def text? (s : Option String) : Option Node := s.map Node.str

def number : Number → Node
  | .int n => .int n
  | .float x => .float x

def bound : Bound → Node
  | .flag b => .bool b
  | .number n => number n

def texts (items : List String) : Node := .list (items.map Node.str)

def enumerator (e : Enumerator) : Node :=
  .map (always "name" (.str e.name) ++ always "value" (.str e.value) ++
    always "type" (.str e.type) ++ optional "description" (text? e.description))

def constraints (c : Constraints) : Entries :=
  optional "format" (text? c.format) ++ optional "maximum" (c.maximum.map number) ++
    optional "exclusiveMaximum" (c.exclusiveMaximum.map bound) ++
    optional "minimum" (c.minimum.map number) ++
    optional "exclusiveMinimum" (c.exclusiveMinimum.map bound) ++
    optional "multipleOf" (c.multipleOf.map number) ++
    optional "maxLength" (c.maxLength.map Node.int) ++
    optional "minLength" (c.minLength.map Node.int) ++ optional "pattern" (text? c.pattern) ++
    optional "maxItems" (c.maxItems.map Node.int) ++
    optional "minItems" (c.minItems.map Node.int) ++
    optional "uniqueItems" (c.uniqueItems.map Node.bool) ++
    optional "maxProperties" (c.maxProperties.map Node.int) ++
    optional "minProperties" (c.minProperties.map Node.int)

mutual

def modelEntries : Model → Entries
  | { toTypeText := shape, name, kind, link, description, deprecated, isDefinition, isReadOnly,
      isRequired, isNullable, constraints := limits, default, enumerators, enums, properties,
      imports } =>
    always "name" (.str name) ++ always "export" (.str kind.name) ++
      always "type" (.str shape.type) ++ always "base" (.str shape.base) ++
      optional "template" (text? shape.template) ++ optional "link" (linked link) ++
      optional "description" (text? description) ++ always "deprecated" (.bool deprecated) ++
      always "isDefinition" (.bool isDefinition) ++ always "isReadOnly" (.bool isReadOnly) ++
      always "isRequired" (.bool isRequired) ++ always "isNullable" (.bool isNullable) ++
      constraints limits ++ optional "default" (text? default) ++
      always "enum" (.list (enumerators.map enumerator)) ++ always "enums" (.list (models enums)) ++
      always "properties" (.list (models properties)) ++ always "imports" (texts imports)

def models : List Model → List Node
  | [] => []
  | m :: ms => .map (modelEntries m) :: models ms

def linked : Option Model → Option Node
  | none => none
  | some m => some (.map (modelEntries m))

end

def model (m : Model) : Node := .map (modelEntries m)

def parameter (p : Parameter) : Node :=
  .map (modelEntries p.toModel ++ always "in" (.str p.location.name) ++
    always "prop" (.str p.wireName) ++ optional "mediaType" (text? p.mediaType))

def parameters (ps : List Parameter) : Node := .list (ps.map parameter)

def response (r : Response) : Node :=
  .map (modelEntries r.toModel ++ always "in" (.str r.source.name) ++ always "code" (.int r.code))

def errorCase (e : ErrorCase) : Node :=
  .map (always "code" (.int e.code) ++ always "description" (.str e.description))

def operation (o : Operation) : Node :=
  .map (always "service" (.str o.service) ++ always "name" (.str o.name) ++
    optional "summary" (text? o.summary) ++ optional "description" (text? o.description) ++
    always "deprecated" (.bool o.deprecated) ++ always "method" (.str o.method) ++
    always "path" (.str o.path) ++ always "parameters" (parameters o.parameters) ++
    always "parametersPath" (parameters o.groups.path) ++
    always "parametersQuery" (parameters o.groups.query) ++
    always "parametersForm" (parameters o.groups.form) ++
    always "parametersHeader" (parameters o.groups.header) ++
    always "parametersCookie" (parameters o.groups.cookie) ++
    optional "parametersBody" (o.groups.body.map parameter) ++
    always "imports" (texts o.imports) ++ always "errors" (.list (o.errors.map errorCase)) ++
    always "results" (.list (o.results.map response)) ++
    optional "responseHeader" (text? o.responseHeader))

def service (s : Service) : Node :=
  .map (always "name" (.str s.name) ++ always "operations" (.list (s.operations.map operation)) ++
    always "imports" (texts s.imports))

def client (c : Client) : Node :=
  .map (always "version" (.str c.version) ++ always "server" (.str c.server) ++
    always "models" (.list (models c.models)) ++
    always "services" (.list (c.services.map service)))

end OpenApi.Dump
