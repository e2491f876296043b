import OpenApi.Proofs.Correspondence
import OpenApi.Proofs.Resolution

/-
Operations of two descriptions that stand for each other.

An operation is put together from parameters, a body and responses, and each of these from the model
of a schema and from what is read of the node that declares it.  Where schemas come to the same
models (`SameModels`), it is enough that the nodes say the same, and references lead to nodes that
do.  `OperationCorrespondence` asks this of the parts of operations, and then operations and the
services that they are filed under are the same.
-/
namespace OpenApi

section
variable (shop shop' : Workshop) (same : Node → Node → Prop) (excused : Failure → Prop)

/-- Whether schemas that stand for each other come to the same models. -/
def SameModels : Prop :=
  ∀ schema schema', same schema schema' →
    InStepUnless excused Eq (Schema.build shop.toScope schema "" false)
      (Schema.build shop'.toScope schema' "" false)

/-- Media types of one name whose schemas stand for each other. -/
structure SameChoice (choice choice' : String × Node) : Prop where
  mediaType : choice.1 = choice'.1
  schema : same choice.2 choice'.2

variable (node node' : Node)

/-- Nodes that declare the same parameter, if the models of their schemas are the same. -/
structure SameParameter : Prop where
  isMap : node.isMap = node'.isMap
  location : Parameter.locationOf? shop.dialect (node.get "in") =
    Parameter.locationOf? shop'.dialect (node'.get "in")
  wireName {location : Location}
    (h : Parameter.locationOf? shop.dialect (node.get "in") = .ok (some location)) :
    Parameter.wireNameOf node = Parameter.wireNameOf node'
  schema {location : Location}
    (h : Parameter.locationOf? shop.dialect (node.get "in") = .ok (some location)) :
    InStepUnless excused same (Parameter.schemaOf shop node location)
      (Parameter.schemaOf shop' node' location)
  ofModel {location : Location} {schema : Node} {model : Model} (wireName : String)
    (h : Parameter.locationOf? shop.dialect (node.get "in") = .ok (some location))
    (hschema : Parameter.schemaOf shop node location = .ok schema)
    (hmodel : Schema.build shop.toScope schema "" false = .ok model) :
    Parameter.ofModel node location wireName model =
      Parameter.ofModel node' location wireName model

/-- Nodes that declare the same request body, if the models of their schemas are the same. -/
structure SameBody : Prop where
  isMap : node.isMap = node'.isMap
  choice : InStepUnless excused (Option.Rel (SameChoice same))
    (Content.select shop.preferences (node.get "content"))
    (Content.select shop'.preferences (node'.get "content"))
  ofBody (mediaType : Option String) (model : Model) :
    Parameter.ofBody node mediaType model = Parameter.ofBody node' mediaType model

/-- Nodes that declare the same response, if the models of their schemas are the same. -/
structure SameResponse : Prop where
  schema : InStepUnless excused (Option.Rel same) (Response.schemaOf shop node)
    (Response.schemaOf shop' node')
  description : (node.get "description").text? = (node'.get "description").text?
  ofHeaders (code : Int) : Response.ofHeaders node code = Response.ofHeaders node' code

/-- Entries for one status code whose responses stand for each other. -/
structure SameMember (entry entry' : Scalar × Node) : Prop where
  code : Response.codeOf? entry.1 = Response.codeOf? entry'.1
  response {code : Int} (h : Response.codeOf? entry.1 = .ok (some code)) :
    InStepUnless excused (SameResponse shop shop' same excused)
      (Reference.target shop.document entry.2) (Reference.target shop'.document entry'.2)

/-- How the operations of one description stand for those of another. -/
structure OperationCorrespondence (sameEntry : OperationEntry → OperationEntry → Prop) : Prop where
  models : SameModels shop shop' same excused
  schemaTarget {schema schema' : Node} (h : same schema schema') :
    InStepUnless excused same (Response.schemaTarget shop schema)
      (Response.schemaTarget shop' schema')
  preferences : shop.preferences = shop'.preferences
  path {entry entry' : OperationEntry} (h : sameEntry entry entry') :
    entry.path.written = entry'.path.written
  parameters {entry entry' : OperationEntry} (h : sameEntry entry entry') :
    List.Forall₂ (fun node node' => InStepUnless excused (SameParameter shop shop' same excused)
      (Reference.target shop.document node) (Reference.target shop'.document node'))
      entry.parameterNodes entry'.parameterNodes
  body {entry entry' : OperationEntry} (h : sameEntry entry entry') :
    InStepUnless excused Eq (entry.body? shop) (entry'.body? shop')
  responses {entry entry' : OperationEntry} (h : sameEntry entry entry') :
    List.Forall₂ (SameMember shop shop' same excused)
      ((entry.node.get "responses").entries?.getD [])
      ((entry'.node.get "responses").entries?.getD [])
  assemble {entry entry' : OperationEntry} (h : sameEntry entry entry') (path : String)
    (declared : List Parameter) (body : Option Parameter) (responses : List Response) :
    entry.assemble shop path declared body responses =
      entry'.assemble shop' path declared body responses

end

variable {shop shop' : Workshop} {same : Node → Node → Prop} {excused : Failure → Prop}
  {node node' : Node}

theorem Schema.Correspondence.sameModels {link : String → String → Prop}
    (c : Correspondence shop.toScope shop'.toScope link same excused) :
    SameModels shop shop' same excused := fun _ _ h => c.build_inStep h "" false

theorem Parameter.build?_inStep (hmodels : SameModels shop shop' same excused)
    (h : InStepUnless excused (SameParameter shop shop' same excused)
      (Reference.target shop.document node) (Reference.target shop'.document node')) :
    InStepUnless excused Eq (build? shop node) (build? shop' node') := by
  unfold build?
  refine h.bind fun target target' _ hsame => ?_
  rw [← hsame.isMap, ← hsame.location]
  by_cases hmap : target.isMap = true
  · rw [hmap]
    refine (InStepUnless.refl (locationOf? shop.dialect (target.get "in"))).bind_eq
      fun location hlocation => ?_
    cases location with
    | none => exact .refl _
    | some location =>
      dsimp only
      rw [← hsame.wireName hlocation]
      refine (InStepUnless.refl (wireNameOf target)).bind_eq fun wireName _ => ?_
      refine (hsame.schema hlocation).bind fun schema schema' hschema hboth => ?_
      refine (hmodels schema schema' hboth).bind_eq fun model hmodel => ?_
      rw [hsame.ofModel wireName hlocation hschema hmodel]
      exact .refl _
  · rw [Bool.eq_false_iff.mpr hmap]
    exact .refl _

theorem Parameter.buildBody?_inStep (hmodels : SameModels shop shop' same excused)
    (h : InStepUnless excused (SameBody shop shop' same excused)
      (Reference.target shop.document node) (Reference.target shop'.document node')) :
    InStepUnless excused Eq (buildBody? shop node) (buildBody? shop' node') := by
  unfold buildBody?
  refine h.bind fun target target' _ hsame => ?_
  rw [← hsame.isMap]
  by_cases hmap : target.isMap = true
  · rw [hmap]
    refine hsame.choice.bind fun choice choice' _ hchoice => ?_
    cases hchoice with
    | none =>
      rw [hsame.ofBody]
      exact .refl _
    | some hchosen =>
      dsimp only
      rw [hchosen.mediaType]
      refine (hmodels _ _ hchosen.schema).bind_eq fun model _ => ?_
      rw [hsame.ofBody]
      exact .refl _
  · rw [Bool.eq_false_iff.mpr hmap]
    exact .refl _

/-- A value that is no map declares no responses. -/
theorem Response.buildAll_eq (shop : Workshop) (node : Node) : buildAll shop node =
    ((node.entries?.getD []).mapM (ofMember? shop)).map fun built =>
      (built.filterMap id).mergeSort fun a b => a.code ≤ b.code := by
  cases node with
  | map entries =>
    show (entries.mapM (ofMember? shop) >>= _) = (entries.mapM (ofMember? shop)).map _
    cases entries.mapM (ofMember? shop) <;> rfl
  | _ => exact congrArg Except.ok List.mergeSort_nil.symm

namespace OperationCorrespondence

variable {sameEntry : OperationEntry → OperationEntry → Prop} {entry entry' : OperationEntry}

theorem response_inStep (c : OperationCorrespondence shop shop' same excused sameEntry)
    (h : InStepUnless excused (SameResponse shop shop' same excused)
      (Reference.target shop.document node) (Reference.target shop'.document node')) (code : Int) :
    InStepUnless excused Eq (Response.build shop node code) (Response.build shop' node' code) := by
  unfold Response.build
  refine h.bind fun target target' _ hsame => ?_
  refine hsame.schema.bind fun schema schema' _ hschema => ?_
  cases hschema with
  | none => exact .of_eq (hsame.ofHeaders code)
  | some hschema =>
    refine (c.schemaTarget hschema).bind fun found found' _ hfound => ?_
    refine (c.models found found' hfound).bind_eq fun model _ => ?_
    rw [hsame.description]
    exact .refl _

theorem ofMember?_inStep (c : OperationCorrespondence shop shop' same excused sameEntry)
    {member member' : Scalar × Node} (h : SameMember shop shop' same excused member member') :
    InStepUnless excused Eq (Response.ofMember? shop member)
      (Response.ofMember? shop' member') := by
  unfold Response.ofMember?
  rw [← h.code]
  refine (InStepUnless.refl (Response.codeOf? member.1)).bind_eq fun code? hcode => ?_
  cases code? with
  | none => exact .refl _
  | some code => exact (c.response_inStep (h.response hcode) code).bind_eq fun _ _ => .refl _

theorem responses_inStep (c : OperationCorrespondence shop shop' same excused sameEntry)
    (h : List.Forall₂ (SameMember shop shop' same excused) (node.entries?.getD [])
      (node'.entries?.getD [])) :
    InStepUnless excused Eq (Response.buildAll shop node) (Response.buildAll shop' node') := by
  have hbuilt := InStepUnless.mapM h fun member _ _ hmember => c.ofMember?_inStep hmember
  rw [Response.buildAll_eq, Response.buildAll_eq]
  exact hbuilt.map_eq _

theorem parameters_inStep (c : OperationCorrespondence shop shop' same excused sameEntry)
    (h : sameEntry entry entry') :
    InStepUnless excused Eq (Parameter.buildAll shop entry.parameterNodes)
      (Parameter.buildAll shop' entry'.parameterNodes) := by
  unfold Parameter.buildAll
  rw [← c.preferences]
  exact (InStepUnless.mapM (c.parameters h) fun node _ node' hnode =>
    Parameter.build?_inStep c.models hnode).bind_eq fun _ _ => .refl _

/-- Operations that correspond are the same. -/
theorem operation_inStep (c : OperationCorrespondence shop shop' same excused sameEntry)
    (h : sameEntry entry entry') :
    InStepUnless excused Eq (entry.build shop).operation (entry'.build shop').operation := by
  rw [operation_build, operation_build, ← c.path h]
  refine (InStepUnless.refl entry.path.written).bind_eq fun path _ => ?_
  refine (c.parameters_inStep h).bind_eq fun declared _ => ?_
  unfold OperationEntry.finish
  refine (c.body h).bind_eq fun body _ => ?_
  refine (c.responses_inStep (c.responses h)).bind_eq fun responses _ => ?_
  rw [c.assemble h]
  exact .refl _

theorem collect_inStep (c : OperationCorrespondence shop shop' same excused sameEntry)
    {entries entries' : List OperationEntry} (h : List.Forall₂ sameEntry entries entries')
    (services : List Service) :
    InStepUnless excused Eq (collect shop services entries).outcome
      (collect shop' services entries').outcome := by
  induction h generalizing services with
  | nil => exact .refl (Except.ok services)
  | cons hentry _ ih =>
    rw [outcome_collect_cons, outcome_collect_cons]
    exact (c.operation_inStep hentry).bind_eq fun operation _ => ih _

end OperationCorrespondence

end OpenApi
