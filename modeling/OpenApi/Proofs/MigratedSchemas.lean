import OpenApi.Proofs.Correspondence
import OpenApi.Proofs.MigratedDocument

/-
Models of rewritten schemas.

A schema has the same shape after it has been rewritten, with rewritten parts, and everything that
is read from its own keywords is the same.  So the two descriptions correspond
(`corresponds_migrate`), and a schema and the rewritten one come to the same model or fail together
(`build_inStep`).
-/
namespace OpenApi.Migration

open Schema

/-! ### Keywords -/

section
variable {key : String} (schema : Node)

theorem get?_of_isInert (h : (Place.keyword key).isInert = true) :
    (migrate .schema schema).get? key = schema.get? key := by
  rw [get?_migrate rfl]
  show Option.map (migrate (Place.keyword key)) _ = _
  rw [funext (migrate_of_isInert _ h)]
  exact Option.map_id'

theorem get_of_isInert (h : (Place.keyword key).isInert = true) :
    (migrate .schema schema).get key = schema.get key := by
  rw [Node.get, get?_of_isInert schema h, Node.get]

theorem sameKeywords_migrate : SameKeywords (migrate .schema schema) schema := by
  have hinert : ∀ key ∈ plainKeywords, (Place.keyword key).isInert = true := by decide
  exact fun key hkey => get?_of_isInert schema (hinert key hkey)

/-! ### Shapes -/

theorem arrayItems?_migrate :
    arrayItems? (migrate .schema schema) = (arrayItems? schema).map (migrate .schema) := by
  have hitems : (migrate .schema schema).get? "items" =
      (schema.get? "items").map (migrate .schema) := get?_migrate rfl _ _
  rw [arrayItems?, (sameKeywords_migrate schema).declaresType_eq, hitems, arrayItems?]
  by_cases harray : declaresType schema "array" = true
  · rw [if_pos harray, if_pos harray]
    cases schema.get? "items" with
    | none => rfl
    | some items =>
      rw [Option.map_some, Option.filter_some, Option.filter_some, isMap_migrate]
      cases items.isMap <;> rfl
  · rw [if_neg harray, if_neg harray, Option.map_none]

/-- A map of schemas is empty after it has been rewritten if it was empty before. -/
theorem isTruthy_migrate (node : Node) :
    (migrate .properties node).isTruthy = node.isTruthy := by
  cases node with
  | map entries =>
    rw [migrate_map rfl, migrateEntries_eq, Node.isTruthy, Node.isTruthy, List.isEmpty_map]
  | list items =>
    rw [migrate, migrateItems_eq, Node.isTruthy, Node.isTruthy, List.isEmpty_map]
  | scalar s => rw [migrate_scalar (by decide)]
  | _ => rfl

theorem dictionaryValues?_migrate : dictionaryValues? (migrate .schema schema) =
    (dictionaryValues? schema).map (migrate .schema) := by
  have hvalues : (migrate .schema schema).get? "additionalProperties" =
      (schema.get? "additionalProperties").map (migrate .schema) := get?_migrate rfl _ _
  have hproperties : (migrate .schema schema).get "properties" =
      migrate .properties (schema.get "properties") := get_migrate rfl _ _
  rw [dictionaryValues?, (sameKeywords_migrate schema).declaresType_eq, hvalues, hproperties,
    isTruthy_migrate, dictionaryValues?]
  by_cases hobject : declaresType schema "object" = true
  · rw [if_pos hobject, if_pos hobject]
    cases schema.get? "additionalProperties" with
    | none => rfl
    | some values =>
      cases values with
      | map entries => rw [Option.map_some, migrate_map rfl]
      | scalar s =>
        rw [Option.map_some, migrate_scalar (by decide)]
        cases s with
        | bool b => cases b <;> cases (schema.get "properties").isTruthy <;> rfl
        | _ => rfl
      | _ => rfl
  · rw [if_neg hobject, if_neg hobject, Option.map_none]

/-- A composition with its members rewritten. -/
def migrateMembers (composition : ModelKind × List Node) : ModelKind × List Node :=
  (composition.1, composition.2.map (migrate .schema))

theorem composed?_migrate {keyword : String} (h : Place.keyword keyword = .members)
    (kind : ModelKind) : composed? (migrate .schema schema) keyword kind =
      (composed? schema keyword kind).map migrateMembers := by
  have hmembers : (migrate .schema schema).get? keyword =
      (schema.get? keyword).map (migrate .members) := by
    rw [get?_migrate rfl]
    show Option.map (migrate (Place.keyword keyword)) _ = _
    rw [h]
  rw [composed?, hmembers, composed?]
  cases schema.get? keyword with
  | none => rfl
  | some members =>
    cases members with
    | list items =>
      rw [Option.map_some, migrate, migrateItems_eq]
      cases items <;> rfl
    | scalar s => rw [Option.map_some, migrate_scalar (by decide)]; rfl
    | _ => rfl

theorem composition?_migrate :
    composition? (migrate .schema schema) = (composition? schema).map migrateMembers := by
  rw [composition?, composed?_migrate schema rfl, composed?_migrate schema rfl,
    composed?_migrate schema rfl, ← Option.map_or, ← Option.map_or, composition?]

theorem isRecord_migrate : isRecord (migrate .schema schema) = isRecord schema := by
  have hproperties : (migrate .schema schema).get "properties" =
      migrate .properties (schema.get "properties") := get_migrate rfl _ _
  rw [isRecord, (sameKeywords_migrate schema).declaresType_eq, has_migrate rfl, hproperties,
    isMap_migrate, isRecord]

/-- A shape with its parts rewritten. -/
def migrateShape : Shape → Shape
  | .reference ref => .reference (migrate .reference ref)
  | .array items => .array (migrate .schema items)
  | .dictionary values => .dictionary (migrate .schema values)
  | .composition kind members => .composition kind (members.map (migrate .schema))
  | other => other

theorem structure?_migrate :
    structure? (migrate .schema schema) = (structure? schema).map migrateShape := by
  have hrest : (if isRecord schema then some .record
      else ((migrate .schema schema).get? "type").map .generic) =
      (if isRecord schema then some .record else (schema.get? "type").map .generic).map
        migrateShape := by
    rw [get?_of_isInert schema (by decide)]
    by_cases hrecord : isRecord schema = true
    · rw [if_pos hrecord]
      rfl
    · rw [if_neg hrecord]
      cases schema.get? "type" <;> rfl
  rw [structure?, arrayItems?_migrate, dictionaryValues?_migrate, composition?_migrate,
    isRecord_migrate, hrest, structure?, Option.map_or, Option.map_or, Option.map_or]
  simp only [Option.map_map]
  rfl

theorem isEdge_migrate : isEdge (migrate .schema schema) = isEdge schema := by
  cases schema with
  | map entries =>
    rw [migrate_map rfl, migrateEntries_eq, isEdge, isEdge, List.any_map]
    refine congrArg (List.any entries) (funext fun e => ?_)
    obtain ⟨key, value⟩ := e
    dsimp only [Function.comp_apply]
    cases value with
    | map entries | list items => rw [migrate]
    | scalar s =>
      rcases migrate_scalar_cases (Place.child .schema key) s with h | ⟨ref, rfl, h⟩ <;> rw [h]
    | set members | pair first second =>
      cases Place.child .schema key <;> rfl
    | endless => cases Place.child .schema key <;> rfl
  | scalar s => rw [migrate_scalar (by decide)]
  | _ => rfl

theorem innerShape_migrate :
    innerShape (migrate .schema schema) = (innerShape schema).map migrateShape := by
  have href : (migrate .schema schema).get? "$ref" =
      (schema.get? "$ref").map (migrate .reference) := get?_migrate rfl _ _
  rw [innerShape, href, (sameKeywords_migrate schema).listedMembers_eq,
    (sameKeywords_migrate schema).describedMembers_eq, structure?_migrate, innerShape]
  cases schema.get? "$ref" with
  | some ref => rfl
  | none =>
    dsimp only [Option.map_none]
    cases listedMembers schema with
    | error failure => rfl
    | ok listed =>
      cases listed with
      | cons member members => rfl
      | nil =>
        cases describedMembers schema with
        | error failure => rfl
        | ok described =>
          cases described with
          | cons member members => rfl
          | nil => cases structure? schema <;> rfl

theorem shape_migrate : shape (migrate .schema schema) = (shape schema).map migrateShape := by
  rw [shape, isEdge_migrate, innerShape_migrate, shape]
  by_cases hedge : isEdge schema = true
  · rw [if_pos hedge, if_pos hedge]
    rfl
  · rw [if_neg hedge, if_neg hedge]

end

/-! ### Conditions on shapes -/

/-- What a shape consists of is as the rewriting asks. -/
def RegularShape : Shape → Prop
  | .reference ref => Regular .reference ref
  | .generic type => Regular .type type
  | found => ∀ part ∈ found.parts, Regular .schema part

section
variable {schema : Node}

theorem regular_of_arrayItems? (h : Regular .schema schema) {items : Node}
    (hitems : arrayItems? schema = some items) : Regular .schema items := by
  unfold arrayItems? at hitems
  split at hitems
  · exact h.get? (Option.filter_eq_some_iff.mp hitems).1
  · cases hitems

theorem regular_empty : Regular .schema (.map []) :=
  regular_map_iff.mpr ⟨rfl, fun _ he => absurd he List.not_mem_nil⟩

theorem regular_of_dictionaryValues? (h : Regular .schema schema) {values : Node}
    (hvalues : dictionaryValues? schema = some values) : Regular .schema values := by
  unfold dictionaryValues? at hvalues
  split at hvalues
  · split at hvalues
    · split at hvalues
      · cases hvalues
      · cases hvalues
        exact regular_empty
    · rename_i found
      cases hvalues
      exact h.get? found
    · cases hvalues
  · cases hvalues

theorem regular_of_composed? (h : Regular .schema schema) {keyword : String}
    (hkeyword : Place.keyword keyword = .members) {kind kind' : ModelKind} {members : List Node}
    (hmembers : composed? schema keyword kind = some (kind', members)) :
    ∀ member ∈ members, Regular .schema member := by
  unfold composed? at hmembers
  split at hmembers
  · rename_i found
    cases hmembers
    have hlist : Regular (Place.keyword keyword) (.list _) := h.get? found
    rw [hkeyword] at hlist
    exact (regular_list_iff.mp hlist).2
  · cases hmembers

theorem regular_of_composition? (h : Regular .schema schema) {kind : ModelKind}
    {members : List Node} (hmembers : composition? schema = some (kind, members)) :
    ∀ member ∈ members, Regular .schema member := by
  unfold composition? at hmembers
  simp only [Option.or_eq_some_iff] at hmembers
  rcases hmembers with hm | ⟨_, hm | ⟨_, hm⟩⟩
  · exact regular_of_composed? h rfl hm
  · exact regular_of_composed? h rfl hm
  · exact regular_of_composed? h rfl hm

theorem regular_of_shape (h : Regular .schema schema) {found : Shape}
    (hs : shape schema = .ok found) : RegularShape found := by
  cases shapeOf_shape hs with
  | reference found => exact h.get? found
  | array found => exact List.forall_mem_singleton.mpr (regular_of_arrayItems? h found)
  | dictionary found => exact List.forall_mem_singleton.mpr (regular_of_dictionaryValues? h found)
  | composition found => exact regular_of_composition? h found
  | generic found => exact h.get? found
  | enumeration | record | unknown => exact fun _ hp => absurd hp List.not_mem_nil

end

/-! ### Models -/

/-- A schema and the one that it is rewritten to. -/
structure Migrated (schema schema' : Node) : Prop where
  regular : Regular .schema schema
  eq : schema' = migrate .schema schema

/-- A reference to a definition and the one to the place where it has moved. -/
structure Moved (ref ref' : String) : Prop where
  isLocal : isLocal ref = true
  eq : ref' = movedText ref

theorem sameReference_migrate {ref : Node} (h : Regular .reference ref) :
    SameReference Moved ref (migrate .reference ref) := by
  rcases isLocal_or_kind_ne h with ⟨text, rfl, hlocal⟩ | hkind
  · rw [migrate_reference]
    exact .text ⟨hlocal, rfl⟩
  · exact .noText hkind (by rwa [kind_migrate])

section
variable {root : Entries}

theorem valueOf_migrate (hm : Migratable (.map root)) (schema schema' : Node)
    (parent name : String) :
    (propertyContext (before root) schema parent).valueOf (before root) name =
      (propertyContext (after root) schema' parent).valueOf (after root) name := by
  refine valueOf_eq (hm.discriminator?_migrate parent) (fun discriminator hfound => ?_) _ _ _
  have hname : (migrate .discriminator discriminator).get "propertyName" =
      discriminator.get "propertyName" := by
    rw [get_migrate rfl]
    exact migrate_of_isInert .other rfl _
  exact ⟨fun _ => by rw [hname], fixedValue_migrate (hm.regular_of_discriminator? hfound) parent⟩

theorem sameShape_migrate {schema : Node} {found : Shape} (h : RegularShape found) :
    SameShape (before root) (after root) Moved Migrated schema (migrate .schema schema) found
      (migrateShape found) := by
  cases found with
  | reference ref => exact .reference (sameReference_migrate h)
  | enumeration type members => exact .enumeration type members
  | array items => exact .array ⟨h items (List.mem_singleton_self items), rfl⟩
  | dictionary values => exact .dictionary ⟨h values (List.mem_singleton_self values), rfl⟩
  | composition kind members =>
    exact .composition kind (List.forall₂_map_right_iff.mpr
      (List.forall₂_same.mpr fun member hmem => ⟨h member hmem, rfl⟩))
  | record => exact .record
  | generic type =>
    refine .generic ?_
    rw [get_of_isInert schema (by decide), typeOf_type h]
  | unknown => exact .unknown

/-- A description and the rewritten one correspond. -/
theorem corresponds_migrate (hm : Migratable (.map root)) :
    Correspondence (before root) (after root) Moved Migrated (fun _ => False) where
  eq_iff {ref ref' other other'} h hother := by
    rw [h.eq, hother.eq]
    exact (Reference.movedText_inj h.isLocal hother.isLocal).symm
  resolve {ref ref'} h := by
    rw [h.eq]
    exact .of_inStep (hm.resolve_str_inStep h.isLocal) fun target htarget =>
      ⟨hm.regular_of_resolve h.isLocal htarget, rfl⟩
  typeOf {ref ref' target} h found := by
    rw [h.eq, hm.typeOf_movedText h.isLocal found]
  reference {schema schema'} h := by
    rw [h.eq, get?_migrate rfl]
    cases href : schema.get? "$ref" with
    | none => exact .none
    | some ref => exact .some (sameReference_migrate (h.regular.get? href))
  shaped {schema schema'} h := by
    rw [h.eq]
    exact .of_map (shape_migrate schema) fun found hs =>
      sameShape_migrate (regular_of_shape h.regular hs)
  alike {schema schema'} h := by
    rw [h.eq]
    exact (sameKeywords_migrate schema).symm.alike (valueOf_migrate hm schema _)
  properties {schema schema'} h := by
    have hproperties : ((migrate .schema schema).get "properties").entries?.getD [] =
        ((schema.get "properties").entries?.getD []).map fun e => (e.1, migrate .schema e.2) := by
      rw [get_migrate rfl]
      exact getD_entries?_migrate rfl _
    rw [h.eq, hproperties, List.forall₂_map_right_iff, List.forall₂_same]
    exact fun entry hentry => ⟨rfl, (h.regular.get "properties").of_mem_entries? hentry, rfl⟩

/-- The model of a schema is that of the rewritten schema. -/
theorem build_inStep (hm : Migratable (.map root)) {schema : Node} (h : Regular .schema schema)
    (name : String) (isDefinition : Bool) :
    InStep id (Schema.build (before root) schema name isDefinition)
      (Schema.build (after root) (migrate .schema schema) name isDefinition) :=
  ((corresponds_migrate hm).build_inStep ⟨h, rfl⟩ name isDefinition).inStep

end

end OpenApi.Migration
