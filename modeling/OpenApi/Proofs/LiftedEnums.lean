import OpenApi.Proofs.ModelInvariants
import OpenApi.Proofs.Termination

/-
The enumerations that a model lifts.

Code for an enumeration is generated with the outermost model that it stands in, so every model
keeps a list of the enumerations below it.  A record lifts what its properties have lifted, and
those of them that are enumerations; a composition lifts what its members have lifted, and what its
own properties give it, promoted or declared.

What comes of that can be told from the tree of models alone: the enumerations that are properties
of a record at some depth, each as often as it stands there and with all its fields
(`enums_eq_propertyEnums`).  Members of a composition are no properties of a record, even if they
are enumerations, and neither are the elements of arrays and dictionaries.
-/
namespace OpenApi

namespace Model

mutual

/-- The properties in a model at any depth, each with the model that it is a property of. -/
def edges : Model → List (Model × Model)
  | m@{ properties, .. } => edgesOf m properties

def edgesOf (owner : Model) : List Model → List (Model × Model)
  | [] => []
  | p :: rest => p.edges ++ (owner, p) :: edgesOf owner rest

end

/-- The enumerations in a model, at any depth, that are properties of a record. -/
def propertyEnums (m : Model) : List Model :=
  (m.edges.filter fun (owner, p) => owner.kind = .record ∧ p.kind = .enumeration).map (·.2)

/-- Whether a model lifts the enumerations that are properties of a record in it. -/
def Lifts (m : Model) : Prop := m.enums = m.propertyEnums

theorem edgesOf_eq (owner : Model) (properties : List Model) :
    edgesOf owner properties = properties.flatMap fun p => p.edges ++ [(owner, p)] := by
  induction properties with
  | nil => rfl
  | cons p rest ih =>
    rw [edgesOf, ih, List.flatMap_cons, List.append_assoc]
    rfl

theorem edges_eq (m : Model) : m.edges = m.properties.flatMap fun p => p.edges ++ [(m, p)] := by
  rw [← edgesOf_eq]
  cases m
  rfl

/-- A property that a model owns: what stands in it, and itself if it is an enumeration of a
record. -/
theorem propertyEnums_eq (m : Model) : m.propertyEnums = m.properties.flatMap fun p =>
    p.propertyEnums ++ if m.kind = .record ∧ p.kind = .enumeration then [p] else [] := by
  unfold propertyEnums
  rw [edges_eq, List.filter_flatMap, List.map_flatMap]
  refine congrArg (List.flatMap · m.properties) (funext fun p => ?_)
  rw [List.filter_append, List.map_append, List.filter_singleton]
  by_cases hp : m.kind = .record ∧ p.kind = .enumeration
  · simp [hp]
  · simp [hp]

theorem propertyEnums_of_leaf {m : Model} (h : m.properties = []) : m.propertyEnums = [] := by
  rw [propertyEnums_eq, h, List.flatMap_nil]

/-- Only the kind and the properties matter. -/
theorem propertyEnums_congr {m m' : Model} (hk : m'.kind = m.kind)
    (hp : m'.properties = m.properties) : m'.propertyEnums = m.propertyEnums := by
  rw [propertyEnums_eq, propertyEnums_eq, hk, hp]

/-- What a record has, if its properties lift theirs. -/
theorem propertyEnums_of_record {m : Model} (record : m.kind = .record)
    (h : ∀ p ∈ m.properties, p.Lifts) :
    m.propertyEnums = m.properties.flatMap Schema.ownEnums := by
  rw [propertyEnums_eq]
  refine List.flatMap_congr fun p hp => ?_
  rw [Schema.ownEnums, ← h p hp]
  simp only [record, true_and]

/-- What a model that is no record has, if its properties lift theirs. -/
theorem propertyEnums_of_not_record {m : Model} (named : m.kind ≠ .record) :
    m.propertyEnums = m.properties.flatMap propertyEnums := by
  rw [propertyEnums_eq]
  refine List.flatMap_congr fun p _ => ?_
  rw [if_neg fun h => named h.1, List.append_nil]

end Model

namespace Schema

theorem lifts_withMembers {model : Model} {kind : ModelKind} {children own : List Model}
    (named : kind ≠ .record) (hchildren : ∀ m ∈ children, m.Lifts) (h : ∀ p ∈ own, p.Lifts) :
    (withMembers model kind children own).Lifts := by
  have hmembers : (children.filter (!saysNothing ·)).flatMap Model.propertyEnums =
      (children.filter (!saysNothing ·)).flatMap (·.enums) :=
    List.flatMap_congr fun m hm => (hchildren m (List.mem_of_mem_filter hm)).symm
  have hown : (ownRecord own).flatMap Model.propertyEnums = own.flatMap ownEnums := by
    unfold ownRecord
    split
    · rename_i hempty
      rw [List.isEmpty_iff.mp hempty]
      rfl
    · rw [List.flatMap_singleton]
      exact Model.propertyEnums_of_record rfl h
  rw [Model.Lifts, Model.propertyEnums_of_not_record named]
  show _ = (children.filter (!saysNothing ·) ++ ownRecord own).flatMap Model.propertyEnums
  rw [List.flatMap_append, hmembers, hown]
  rfl

theorem isInvariant_lifts : IsInvariant Model.Lifts where
  congr h kind _ properties enums _ := by
    rw [Model.Lifts, enums, Model.propertyEnums_congr kind properties]
    exact h
  leaf properties enums _ := by
    rw [Model.Lifts, enums, Model.propertyEnums_of_leaf properties]
  element _ _ _ _ _ := (Model.propertyEnums_of_leaf rfl).symm
  record job own h :=
    (@Model.propertyEnums_of_record (withProperties job.plain own) rfl h).symm
  composition _ _ _ _ named hchildren h := lifts_withMembers named hchildren h

/-- Every model lifts exactly the enumerations that are properties of a record in it, in a
description that never requires the record of a composition. -/
theorem enums_eq_propertyEnums {scope : Scope} {job : Job} {model : Model}
    (hdocument : NeverRequires "properties" scope.document)
    (hschema : NeverRequires "properties" job.schema) (h : Job.built scope job = .ok model) :
    model.enums = model.propertyEnums :=
  (isInvariant_lifts.built hdocument hschema h).whole

/-- A composition that takes over an enumeration from a record and declares a record with another
one. -/
def orderScope : Scope where
  document := .map [(.str "openapi", .str "3.0.0"), (.str "paths", .map []),
    (.str "components", .map [(.str "schemas", .map [(.str "Order", order)])])]
  dialect := .v3
where
  enumeration (member : String) : Node := .map
    [(.str "type", .str "string"), (.str "enum", .list [.str member])]
  order : Node := .map
    [(.str "type", .str "object"),
      (.str "properties", .map [(.str "status", enumeration "placed")])]
  parcel : Node := .map
    [(.str "type", .str "object"), (.str "properties", .map [(.str "size", enumeration "small")])]
  shipment : Node := .map
    [(.str "allOf", .list [.map [(.str "$ref", .str "#/components/schemas/Order")]]),
      (.str "required", .list [.str "status"]), (.str "properties", .map [(.str "parcel", parcel)])]

open orderScope in
theorem neverRequires_orderScope : NeverRequires "properties" orderScope.document ∧
    NeverRequires "properties" shipment := by
  simp [orderScope, order, parcel, shipment, enumeration, neverRequires_map_iff,
    neverRequires_list_iff, neverRequires_scalar, requiredNames, Node.get, Node.get?, Node.items?,
    Entries.get?]

open orderScope in
theorem enums_shipment : NeverRequires "properties" orderScope.document ∧
    NeverRequires "properties" shipment ∧ ∃ model,
      Job.built orderScope ⟨[], shipment, "Shipment", true⟩ = .ok model ∧
        model.enums.map (·.name) = ["status", "size"] ∧ model.enums = model.propertyEnums := by
  obtain ⟨hdocument, hschema⟩ := neverRequires_orderScope
  have hnames : (build orderScope shipment "Shipment" true).toOption.map
      (fun model => model.enums.map (·.name)) = some ["status", "size"] := by
    rw [build_eq fun _ => .error (.malformed .endless)]
    decide +kernel
  obtain ⟨model, hmodel, henums⟩ := Except.exists_of_toOption_map hnames
  have hbuilt : Job.built orderScope ⟨[], shipment, "Shipment", true⟩ = .ok model := hmodel
  exact ⟨hdocument, hschema, model, hbuilt, henums,
    enums_eq_propertyEnums hdocument hschema hbuilt⟩

end Schema
end OpenApi
