import OpenApi.Proofs.OperationModels
import OpenApi.Proofs.Resolution
import OpenApi.Proofs.Termination
import OpenApi.Proofs.Tidying

/-
The imports of a client.

Code is generated for definitions and for services, and each file of it begins with the imports of
one of them.  They are complete: whatever is named below a definition is imported by it or is its
own name, and whatever is named below an operation is imported by the operation and by its service.
This is `Client.ImportsClosed`, and it holds of every client whose description never requires a
property named `properties`, the name of the record that compositions wrap their own properties in.
-/
namespace OpenApi

/-! ### Tidying -/

theorem LocatedParameters.all_tidy (groups : LocatedParameters) :
    groups.tidy.all = groups.all.map Parameter.tidy := by
  have hbody : (groups.body.map Parameter.tidy).toList =
      groups.body.toList.map Parameter.tidy := by
    cases groups.body <;> rfl
  simp only [LocatedParameters.all, LocatedParameters.tidy, hbody, List.map_append]

namespace Operation

theorem models_tidy (operation : Operation) :
    operation.tidy.models = operation.models.map Model.tidy := by
  have hparameters (parameters : List Parameter) :
      (parameters.map Parameter.tidy).map (·.toModel) =
        (parameters.map (·.toModel)).map Model.tidy := by
    rw [List.map_map, List.map_map]
    rfl
  have hresults : (operation.results.map Response.tidy).map (·.toModel) =
      (operation.results.map (·.toModel)).map Model.tidy := by
    rw [List.map_map, List.map_map]
    rfl
  unfold models
  rw [List.map_append, List.map_append, ← hparameters, ← hparameters, ← hresults,
    ← LocatedParameters.all_tidy]
  rfl

theorem mem_imports_tidy {operation : Operation} {i : String} (h : i ∈ operation.imports) :
    i ∈ operation.tidy.imports :=
  mem_tidyImports.mpr ⟨List.mem_append.mpr (.inl (List.mem_append.mpr (.inl h))), by simp⟩

/-- Whether an operation imports whatever its models import. -/
def Covers (operation : Operation) : Prop :=
  ∀ m ∈ operation.models, m.CoveredBy operation.imports

theorem Covers.tidy {operation : Operation} (h : operation.Covers) : operation.tidy.Covers := by
  intro m hm
  rw [models_tidy] at hm
  obtain ⟨original, horiginal, rfl⟩ := List.mem_map.mp hm
  exact (h original horiginal).tidy.mono fun i hi => mem_imports_tidy hi

/-- Numbering changes nothing but names. -/
theorem exists_of_mem_tidyFrom {earlier : List String} {operations : List Operation} {o : Operation}
    (h : o ∈ tidyFrom earlier operations) :
    ∃ original ∈ operations, ∃ name, o = { original.tidy with name := name } := by
  induction operations generalizing earlier with
  | nil => cases h
  | cons first rest ih =>
    rcases List.mem_cons.mp h with rfl | h
    · exact ⟨first, List.mem_cons_self, _, rfl⟩
    · obtain ⟨original, horiginal, hname⟩ := ih h
      exact ⟨original, List.mem_cons_of_mem _ horiginal, hname⟩

end Operation

/-! ### The client -/

namespace Client
open Schema

/-- Whether imports are complete and tidy all over a client. -/
structure ImportsClosed (client : Client) : Prop where
  /-- A definition imports whatever stands in it does, except for itself. -/
  models : ∀ m ∈ client.models, IsTidy m.imports ∧ m.CoveredBy (m.name :: m.imports)
  services : ∀ service ∈ client.services, IsTidy service.imports
  operations : ∀ service ∈ client.services, ∀ operation ∈ service.operations,
    IsTidy operation.imports ∧ (∀ i ∈ operation.imports, i ∈ service.imports) ∧ operation.Covers

variable {preferences : Preferences} {document : Node} {shop : Workshop} {root : Entries}
  {models : List Model} {client : Client}

theorem MadeFrom.covers (made : client.MadeFrom shop root models)
    (never : NeverRequires "properties" shop.document) {service : Service} {operation : Operation}
    (hs : service ∈ (collect shop [] (operationEntries shop.preferences root)).services)
    (ho : operation ∈ service.operations) : operation.Covers := by
  rcases exists_entry_of_mem_collect hs ho with ⟨before, hbefore, _⟩ | ⟨entry, hentry, hbuilt⟩
  · cases hbefore
  · have own := inherited_neverRequires "properties"
    obtain ⟨hnode, hpath⟩ := own.operationEntries (made.rooted ▸ never) hentry
    exact OperationEntry.covered_of_build never hnode hpath hbuilt

/-- Imports are complete in every client, unless its description requires a property with the name
of the record of a composition. -/
theorem importsClosed_of_resolve (never : NeverRequires "properties" document)
    (h : (Client.resolve preferences document).client = .ok client) : client.ImportsClosed := by
  obtain ⟨dialect, root, models, _, made⟩ := exists_madeFrom_of_resolve h
  constructor
  · intro m hm
    obtain ⟨before, hbefore, rfl⟩ := made.exists_of_mem_models hm
    rw [Model.name_tidy]
    refine ⟨?_, (closed_definitionModels never made.built before hbefore).tidy⟩
    rw [Model.imports_tidy]
    exact isTidy_tidyImports _ _
  · intro service hs
    obtain ⟨before, _, rfl⟩ := made.exists_of_mem_services hs
    exact isTidy_tidyImports _ _
  · intro service hs operation ho
    obtain ⟨before, hbefore, rfl⟩ := made.exists_of_mem_services hs
    obtain ⟨original, horiginal, name, rfl⟩ := Operation.exists_of_mem_tidyFrom ho
    have hcovers := made.covers never hbefore horiginal
    refine ⟨isTidy_tidyImports _ _, fun i hi => ?_, fun m hm => hcovers.tidy m hm⟩
    exact mem_tidyImports.mpr
      ⟨List.mem_append.mpr (.inr (List.mem_flatMap.mpr ⟨_, ho, hi⟩)), by simp⟩

/-- A description of two definitions and of an operation that lists one of them. -/
def petDocument : Node :=
  .map
    [(.str "swagger", .str "2.0"),
      (.str "paths", .map [(.str "/pets", .map [(.str "get", listPets)])]),
      (.str "definitions", .map [(.str "Pet", pet), (.str "Owner", owner)])]
where
  listPets : Node := .map [(.str "responses", .map [(.str "200", .map [(.str "schema", .map
    [(.str "type", .str "array"), (.str "items", reference "#/definitions/Pet")])])])]
  pet : Node := .map [(.str "properties", .map [(.str "owner", reference "#/definitions/Owner")])]
  owner : Node := .map [(.str "required", .list [.str "name"]),
    (.str "properties", .map [(.str "name", .map [(.str "type", .str "string")])])]
  reference (ref : String) : Node := .map [(.str "$ref", .str ref)]

theorem resolve_petDocument : (Client.resolve {} petDocument).client.isOk = true := by
  have hentries {root : Entries} (hroot : petDocument = .map root) : operationEntries {} root =
      [⟨.str "/pets", "get", "Default", petDocument.listPets, []⟩] := by
    cases hroot
    rfl
  rw [@client_resolve_eq {} petDocument .v2 _ rfl rfl, hentries rfl]
  simp only [collect]
  delta definitionModels definitionModel sharedParameterModel OperationEntry.build
    OperationEntry.finish Parameter.buildAll Parameter.build? OperationEntry.body?
    Parameter.buildBody? Response.buildAll Response.ofMember? Response.build
  rw [build_eq fun _ => .error (.malformed .endless)]
  decide +kernel

theorem importsClosed_petDocument : NeverRequires "properties" petDocument ∧
    ∃ client, (Client.resolve {} petDocument).client = .ok client ∧ client.ImportsClosed := by
  have never : NeverRequires "properties" petDocument := by
    simp [petDocument, petDocument.listPets, petDocument.pet, petDocument.owner,
      petDocument.reference, neverRequires_map_iff, neverRequires_list_iff, neverRequires_scalar,
      requiredNames, Node.get, Node.get?, Node.items?, Entries.get?]
  cases h : (Client.resolve {} petDocument).client with
  | error failure =>
    have hok := resolve_petDocument
    rw [h] at hok
    cases hok
  | ok client => exact ⟨never, client, rfl, importsClosed_of_resolve never h⟩

end Client
end OpenApi
