import OpenApi.Proofs.DeclaredParameters
import OpenApi.Proofs.Inherited
import OpenApi.Proofs.KeptItems

/-
The schemas that the models of a client are made of.

Parameters, bodies, responses and definitions are models of schemas.  Each of them fills in names,
wording and flags of its own and leaves the rest as the schema says (`Model.SameContent`), and each
reads its schema from the description in a way of its own.  A property that passes to all that is
read (`Inherited`) holds of all these schemas, so whatever follows from it for the model of a schema
follows for every model of an operation (`OperationEntry.isOfSchema_of_build`) and of a definition
(`isOfSchema_definitionModels`).
-/
namespace OpenApi

/-- All parameters, from every location. -/
def LocatedParameters.all (groups : LocatedParameters) : List Parameter :=
  groups.path ++ groups.query ++ groups.form ++ groups.header ++ groups.cookie ++ groups.body.toList

/-- All models of an operation: its parameters, once more by location, and its results. -/
def Operation.models (operation : Operation) : List Model :=
  operation.parameters.map (·.toModel) ++ operation.groups.all.map (·.toModel) ++
    operation.results.map (·.toModel)

namespace Model

/-- Whether two models have the same limits, imports and parts. -/
structure SameContent (m m' : Model) : Prop where
  constraints : m.constraints = m'.constraints
  imports : m.imports = m'.imports
  properties : m.properties = m'.properties
  enums : m.enums = m'.enums
  link : m.link = m'.link

/-- Whether a model has the content of the model of a schema with a property, or none at all. -/
inductive IsOfSchema (scope : Scope) (P : Node → Prop) (m : Model) : Prop
  | schema {source : Node} {name : String} {isDefinition : Bool} {built : Model} (has : P source)
      (made : Schema.build scope source name isDefinition = .ok built) (same : m.SameContent built)
  | nothing (same : m.SameContent {})

end Model

variable {P : Node → Prop} {shop : Workshop} {node : Node}

/-! ### Parameters and bodies -/

namespace Parameter

variable {parameter : Parameter} {nodes : List Node} {declared : List Parameter}

theorem isOfSchema_of_build? (own : Inherited P) (hdocument : P shop.document) (h : P node)
    (hbuilt : build? shop node = .ok (some parameter)) :
    parameter.IsOfSchema shop.toScope P := by
  obtain ⟨target, location, wireName, schema, model, htarget, _, _, hschema, hmodel, rfl⟩ :=
    exists_ofModel_of_build? hbuilt
  have hsource := own.parameterSchema (own.target hdocument h htarget) hschema
  exact .schema hsource hmodel ⟨rfl, rfl, rfl, rfl, rfl⟩

theorem Declares.isOfSchema (own : Inherited P) (hdocument : P shop.document)
    (h : ∀ node ∈ nodes, P node) (hdeclared : Declares shop nodes declared) :
    ∀ p ∈ declared, p.IsOfSchema shop.toScope P := by
  induction hdeclared with
  | nil => exact nofun
  | unknown _ _ ih => exact ih (List.forall_mem_of_forall_mem_cons h)
  | excluded _ _ _ ih => exact ih (List.forall_mem_of_forall_mem_cons h)
  | kept built _ _ ih =>
    obtain ⟨hnode, hnodes⟩ := List.forall_mem_cons.mp h
    exact List.forall_mem_cons.mpr ⟨isOfSchema_of_build? own hdocument hnode built, ih hnodes⟩

theorem isOfSchema_of_buildBody? (own : Inherited P) (hdocument : P shop.document) (h : P node)
    (hbuilt : buildBody? shop node = .ok (some parameter)) :
    parameter.IsOfSchema shop.toScope P := by
  obtain ⟨target, htarget, hbuilt⟩ := Except.bind_eq_ok_iff.mp hbuilt
  split at hbuilt
  · cases hbuilt
  · obtain ⟨choice, hchoice, hbuilt⟩ := Except.bind_eq_ok_iff.mp hbuilt
    split at hbuilt
    · obtain ⟨model, hmodel, hbuilt⟩ := Except.bind_eq_ok_iff.mp hbuilt
      cases hbuilt
      have hsource := own.select (own.get (own.target hdocument h htarget) "content") hchoice
      exact .schema hsource hmodel ⟨rfl, rfl, rfl, rfl, rfl⟩
    · cases hbuilt
      exact .nothing ⟨rfl, rfl, rfl, rfl, rfl⟩

/-- Grouping by location loses and adds nothing. -/
theorem mem_of_mem_group {parameters : List Parameter} {p : Parameter}
    (h : p ∈ (group parameters).all) : p ∈ parameters := by
  simp only [LocatedParameters.all, group, located, List.mem_append, List.mem_filter,
    Option.mem_toList] at h
  rcases h with ((((h | h) | h) | h) | h) | h
  · exact h.1
  · exact h.1
  · exact h.1
  · exact h.1
  · exact h.1
  · exact List.mem_of_mem_filter (List.mem_of_getLast? h)

theorem mem_indispensableFirst {parameters : List Parameter} {p : Parameter} :
    p ∈ indispensableFirst parameters ↔ p ∈ parameters := by
  rw [indispensableFirst, List.mem_append, List.mem_filter, List.mem_filter]
  cases isIndispensable p <;> simp

end Parameter

/-! ### Responses -/

namespace Response

variable {code : Int} {response : Response} {responses : List Response}

theorem code_of_build (h : build shop node code = .ok response) : response.code = code := by
  obtain ⟨target, -, h⟩ := Except.bind_eq_ok_iff.mp h
  obtain ⟨schema, -, h⟩ := Except.bind_eq_ok_iff.mp h
  cases schema with
  | some schema =>
    obtain ⟨schema, -, h⟩ := Except.bind_eq_ok_iff.mp h
    obtain ⟨model, -, h⟩ := Except.bind_eq_ok_iff.mp h
    cases h
    rfl
  | none =>
    dsimp only [ofHeaders] at h
    split at h
    · obtain ⟨name, -, rfl⟩ := Except.map_eq_ok_iff.mp h
      rfl
    · cases h
      rfl

theorem sameContent_ofHeaders (h : ofHeaders node code = .ok response) :
    response.SameContent {} := by
  unfold ofHeaders at h
  split at h
  · obtain ⟨_, _, rfl⟩ := Except.map_eq_ok_iff.mp h
    exact ⟨rfl, rfl, rfl, rfl, rfl⟩
  · cases h
    exact ⟨rfl, rfl, rfl, rfl, rfl⟩

theorem isOfSchema_of_build (own : Inherited P) (hdocument : P shop.document) (h : P node)
    (hbuilt : build shop node code = .ok response) : response.IsOfSchema shop.toScope P := by
  obtain ⟨target, htarget, hbuilt⟩ := Except.bind_eq_ok_iff.mp hbuilt
  obtain ⟨found, hfound, hbuilt⟩ := Except.bind_eq_ok_iff.mp hbuilt
  split at hbuilt
  · obtain ⟨schema, hschema, hbuilt⟩ := Except.bind_eq_ok_iff.mp hbuilt
    obtain ⟨model, hmodel, hbuilt⟩ := Except.bind_eq_ok_iff.mp hbuilt
    cases hbuilt
    have hsource := own.schemaTarget hdocument
      (own.responseSchema (own.target hdocument h htarget) hfound) hschema
    exact .schema hsource hmodel ⟨rfl, rfl, rfl, rfl, rfl⟩
  · exact .nothing (sameContent_ofHeaders hbuilt)

/-- Every response is built for an entry of the map whose key stands for a code. -/
theorem exists_entry_of_buildAll (h : buildAll shop node = .ok responses)
    (hr : response ∈ responses) : ∃ entries entry code, node = .map entries ∧ entry ∈ entries ∧
      codeOf? entry.1 = .ok (some code) ∧ build shop entry.2 code = .ok response := by
  unfold buildAll at h
  split at h
  · rename_i entries
    obtain ⟨built, hall, h⟩ := Except.bind_eq_ok_iff.mp h
    cases h
    obtain ⟨found, hfound, hsome⟩ := List.mem_filterMap.mp ((List.mergeSort_perm _ _).mem_iff.mp hr)
    obtain ⟨entry, hentry, hmade⟩ := Except.exists_mem_of_mapM hall hfound
    obtain ⟨code, hcode, hmade⟩ := Except.bind_eq_ok_iff.mp hmade
    split at hmade
    · obtain ⟨response, hresponse, hmade⟩ := Except.bind_eq_ok_iff.mp hmade
      cases hmade
      cases hsome
      exact ⟨entries, entry, _, rfl, hentry, hcode, hresponse⟩
    · cases hmade
      cases hsome
  · cases h
    cases hr

theorem isOfSchema_of_buildAll (own : Inherited P) (hdocument : P shop.document) (h : P node)
    (hbuilt : buildAll shop node = .ok responses) :
    ∀ r ∈ responses, r.IsOfSchema shop.toScope P := by
  intro r hr
  obtain ⟨entries, entry, code, rfl, hentry, _, hbuilt⟩ := exists_entry_of_buildAll hbuilt hr
  exact isOfSchema_of_build own hdocument (own.of_mem h hentry) hbuilt

/-- Results are responses, unless there is nothing to return. -/
theorem mem_of_mem_results {r : Response} (h : r ∈ results responses) :
    r = nothing ∨ r ∈ responses := by
  unfold results at h
  split at h
  · exact .inl (List.mem_singleton.mp h)
  · have hkept := @firstOnes_sublist _ (fun seen r => sameType r.toModel seen.toModel)
      (responses.filter isResult)
    exact .inr (List.mem_of_mem_filter (hkept.subset h))

end Response

/-! ### Operations -/

namespace OperationEntry

variable {entry : OperationEntry} {operation : Operation}

section
variable {path : String} {declared : List Parameter} {body : Option Parameter}
  {responses : List Response}

theorem mem_of_mem_groups {p : Parameter}
    (h : p ∈ (assemble shop entry path declared body responses).groups.all) :
    p ∈ declared ++ body.toList := by
  cases body with
  | none => exact List.mem_append.mpr (.inl (Parameter.mem_of_mem_group h))
  | some b =>
    rcases List.mem_append.mp h with h | h
    · exact List.mem_append.mpr (.inl (Parameter.mem_of_mem_group (List.mem_append.mpr (.inl h))))
    · exact List.mem_append.mpr (.inr h)

/-- The models of an assembled operation are those of its parts. -/
theorem exists_part_of_mem_models {m : Model}
    (h : m ∈ (assemble shop entry path declared body responses).models) :
    (∃ p ∈ declared ++ body.toList, p.toModel = m) ∨
      ∃ r ∈ Response.results responses, r.toModel = m := by
  rcases List.mem_append.mp h with h | h
  · rcases List.mem_append.mp h with h | h
    · obtain ⟨p, hp, rfl⟩ := List.mem_map.mp h
      exact .inl ⟨p, Parameter.mem_indispensableFirst.mp hp, rfl⟩
    · obtain ⟨p, hp, rfl⟩ := List.mem_map.mp h
      exact .inl ⟨p, mem_of_mem_groups hp, rfl⟩
  · exact .inr (List.mem_map.mp h)

end

/-- An operation has the imports of all its models. -/
theorem imports_of_build (h : (entry.build shop).operation = .ok operation) :
    ∀ m ∈ operation.models, ∀ i ∈ m.imports, i ∈ operation.imports := by
  obtain ⟨path, declared, body, responses, _, _, _, _, rfl⟩ := exists_assemble_of_build h
  intro m hm i hi
  rcases exists_part_of_mem_models hm with ⟨p, hp, rfl⟩ | ⟨r, hr, rfl⟩
  · exact List.mem_append.mpr (.inl (List.mem_flatMap.mpr ⟨p, hp, hi⟩))
  · exact List.mem_append.mpr (.inr (List.mem_flatMap.mpr ⟨r, hr, hi⟩))

theorem exists_node_of_body? {body : Parameter} (h : entry.body? shop = .ok (some body)) :
    ∃ node, entry.node.get? "requestBody" = some node ∧
      Parameter.buildBody? shop node = .ok (some body) := by
  unfold body? at h
  split at h
  · split at h
    · rename_i node hnode
      exact ⟨node, hnode, h⟩
    · cases h
  · cases h

/-- The models of an operation are made of schemas that are read of its node, of the nodes of its
path and of the description. -/
theorem isOfSchema_of_build (own : Inherited P) (hdocument : P shop.document)
    (hentry : P entry.node) (hpath : ∀ node ∈ entry.pathParameters, P node)
    (h : (entry.build shop).operation = .ok operation) :
    ∀ m ∈ operation.models, m.IsOfSchema shop.toScope P := by
  obtain ⟨path, declared, body, responses, _, hdeclared, hbody, hresponses, rfl⟩ :=
    exists_assemble_of_build h
  have hnodes : ∀ node ∈ entry.parameterNodes, P node := by
    intro node hnode
    rcases List.mem_append.mp hnode with hnode | hnode
    · exact hpath node hnode
    · exact own.of_mem_items? (own.get hentry "parameters") hnode
  intro m hm
  rcases exists_part_of_mem_models hm with ⟨p, hp, rfl⟩ | ⟨r, hr, rfl⟩
  · rcases List.mem_append.mp hp with hp | hp
    · exact hdeclared.isOfSchema own hdocument hnodes p hp
    · obtain rfl := Option.mem_toList.mp hp
      obtain ⟨node, hnode, hmade⟩ := exists_node_of_body? hbody
      exact Parameter.isOfSchema_of_buildBody? own hdocument
        (own.part (Node.occursIn_of_get? hnode) hentry) hmade
  · rcases Response.mem_of_mem_results hr with rfl | hr
    · exact .nothing ⟨rfl, rfl, rfl, rfl, rfl⟩
    · exact Response.isOfSchema_of_buildAll own hdocument (own.get hentry "responses") hresponses
        r hr

end OperationEntry

/-! ### Definitions -/

/-- The models of definitions are made of schemas that are read of the description. -/
theorem isOfSchema_definitionModels {scope : Scope} {models : List Model} (own : Inherited P)
    (h : P scope.document) (hbuilt : definitionModels scope = .ok models) :
    ∀ m ∈ models, m.IsOfSchema scope P := by
  intro m hm
  obtain ⟨schemas, hschemas, hbuilt⟩ := Except.bind_eq_ok_iff.mp hbuilt
  obtain ⟨shared, hshared, hbuilt⟩ := Except.bind_eq_ok_iff.mp hbuilt
  obtain ⟨parameters, hparameters, hbuilt⟩ := Except.bind_eq_ok_iff.mp hbuilt
  cases hbuilt
  rcases List.mem_append.mp hm with hm | hm
  · obtain ⟨e, he, hmade⟩ := Except.exists_mem_of_mapM hschemas hm
    obtain ⟨name, _, hmade⟩ := Except.bind_eq_ok_iff.mp hmade
    exact .schema (own.schemas h he) hmade ⟨rfl, rfl, rfl, rfl, rfl⟩
  · obtain ⟨e, he, hmade⟩ := Except.exists_mem_of_mapM hparameters hm
    obtain ⟨name, _, hmade⟩ := Except.bind_eq_ok_iff.mp hmade
    obtain ⟨model, hmodel, hmade⟩ := Except.bind_eq_ok_iff.mp hmade
    cases hmade
    have hsource := own.get (own.sharedParameters h hshared he) "schema"
    exact .schema hsource hmodel ⟨rfl, rfl, rfl, rfl, rfl⟩

end OpenApi
