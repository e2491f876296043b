import OpenApi.Proofs.ClosedModels
import OpenApi.Proofs.ModelSources

/-
What the models of operations and definitions import.

They have the content of models of schemas that stand somewhere below the operation or are referred
to from there (`Model.IsOfSchema`).  So each is as closed as the one that was built (`closed_built`),
and an operation that takes the imports of its parameters and results covers them all
(`covered_of_build`).
-/
namespace OpenApi

namespace Schema

/-- The model of a schema in the description is closed. -/
theorem closed_built {scope : Scope} {schema : Node} {name : String} {isDefinition : Bool}
    {model : Model} (hdocument : NeverRequires "properties" scope.document)
    (hschema : NeverRequires "properties" schema)
    (h : build scope schema name isDefinition = .ok model) : model.Closed :=
  (@IsInvariant.built _ scope ⟨[], schema, name, isDefinition⟩ model isInvariant_closed hdocument
    hschema h).whole

/-- What is left of a parameter object is a schema that requires nothing. -/
theorem neverRequires_inlineSchema {name : String} {node : Node} (h : NeverRequires name node) :
    NeverRequires name (Parameter.inlineSchema node) := by
  unfold Parameter.inlineSchema
  split
  · rename_i entries
    intro part hocc
    cases hocc with
    | whole =>
      intro hrequired
      obtain ⟨v, hv⟩ := exists_required_of_mem hrequired
      have hkept : (!Parameter.ownKeywords.contains "required") = true :=
        (List.mem_filter.mp (Node.mem_of_get?_entries hv)).2
      exact absurd hkept (by decide)
    | entry mem below => exact h part (.entry (List.mem_of_mem_filter mem) below)
  · exact h

theorem inherited_neverRequires (name : String) : Inherited (NeverRequires name) where
  part hocc h := h.of_occursIn hocc
  null := neverRequires_scalar name .null
  empty := neverRequires_empty name
  inline := neverRequires_inlineSchema

end Schema

section
open Schema

theorem Model.IsOfSchema.closed {scope : Scope} {m : Model}
    (hdocument : NeverRequires "properties" scope.document)
    (h : m.IsOfSchema scope (NeverRequires "properties")) : m.Closed := by
  cases h with
  | schema has made same =>
    exact (closed_built hdocument has made).congr same.imports same.properties same.link
  | nothing same => exact closed_of_leaf same.properties same.link

/-- Every operation that is built imports what its models import. -/
theorem OperationEntry.covered_of_build {shop : Workshop} {entry : OperationEntry}
    {operation : Operation} (hdocument : NeverRequires "properties" shop.document)
    (hentry : NeverRequires "properties" entry.node)
    (hpath : ∀ node ∈ entry.pathParameters, NeverRequires "properties" node)
    (h : (entry.build shop).operation = .ok operation) :
    ∀ m ∈ operation.models, m.CoveredBy operation.imports := by
  intro m hm
  have own := inherited_neverRequires "properties"
  have hclosed := (isOfSchema_of_build own hdocument hentry hpath h m hm).closed hdocument
  exact hclosed.mono (imports_of_build h m hm)

/-- The models of all definitions are closed. -/
theorem closed_definitionModels {scope : Scope} {models : List Model}
    (h : NeverRequires "properties" scope.document) (hbuilt : definitionModels scope = .ok models) :
    ∀ m ∈ models, m.Closed := fun m hm =>
  (isOfSchema_definitionModels (inherited_neverRequires "properties") h hbuilt m hm).closed h

end

end OpenApi
