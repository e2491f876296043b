import OpenApi.Proofs.QuotedReferences

/-
Models of schemas whose keys are quoted.

The keywords of a schema are no numerals, so they are found as before.  The shape of the schema
stays the same, with the keys in its parts quoted, and so does all else that a model takes from it;
the names of properties are texts in any case.  So a schema and the one with its keys quoted
correspond (`corresponds_quoted`), and come to the same model, unless a reference meets a number.
-/
namespace OpenApi.Schema

open Node

/-! ### Keywords -/

section
variable (node : Node)

@[simp]
theorem number?_quoteKeys : number? node.quoteKeys = number? node := by
  cases node <;> rfl

@[simp]
theorem bound?_quoteKeys : bound? node.quoteKeys = bound? node := by
  cases node <;> rfl

@[simp]
theorem int?_quoteKeys : int? node.quoteKeys = int? node := by
  cases node <;> rfl

@[simp]
theorem bool?_quoteKeys : bool? node.quoteKeys = bool? node := by
  cases node <;> rfl

@[simp]
theorem pattern?_quoteKeys : pattern? node.quoteKeys = pattern? node := by
  cases node <;> rfl

end

section
variable (schema : Node)

theorem declaresType_quoteKeys (name : String) :
    declaresType schema.quoteKeys name = declaresType schema name := by
  rw [declaresType, get_quoteKeys (by decide), declaresType]
  cases schema.get "type" with
  | list names =>
    rw [quoteKeys_list]
    exact listHas_quoteKeys name names
  | _ => rfl

theorem requiredNames_quoteKeys :
    requiredNames schema.quoteKeys = (requiredNames schema).map quoteKeys := by
  rw [requiredNames, get_quoteKeys (by decide), getD_items?_quoteKeys, requiredNames]

theorem promote_quoteKeys (required : List Node) (candidates : List Model) :
    promote (required.map quoteKeys) candidates = promote required candidates := by
  rw [promote, List.filterMap_map, promote]
  refine congrArg (List.filterMap · required) (funext fun name => ?_)
  cases name <;> rfl

theorem allowsNull_quoteKeys : allowsNull schema.quoteKeys = allowsNull schema := by
  simp (disch := decide) only [allowsNull, get_quoteKeys, isTrue_quoteKeys]
  cases schema.get "type" with
  | list names =>
    rw [quoteKeys_list]
    dsimp only
    rw [listHas_quoteKeys]
  | _ => rfl

theorem plainModel_quoteKeys (name : String) (isDefinition : Bool) :
    plainModel schema.quoteKeys name isDefinition = plainModel schema name isDefinition := by
  simp (disch := decide) [plainModel, constraints, get_quoteKeys, allowsNull_quoteKeys]

end

section
variable {schema : Node} (h : schema.Quotable)
include h

theorem literalOf_quoteKeys (members : List Enumerator) :
    literalOf members schema.quoteKeys = literalOf members schema := by
  cases schema with
  | list items =>
    have hrender := Json.render?_quoteKeys (show literalStyle.sorted = false from rfl) h
    rw [quoteKeys_list] at hrender ⊢
    exact congrArg Except.ok hrender
  | map entries =>
    have hrender := Json.render?_quoteKeys (show literalStyle.sorted = false from rfl) h
    rw [quoteKeys_map] at hrender ⊢
    exact congrArg Except.ok hrender
  | _ => rfl

theorem withDefault_quoteKeys (model : Model) :
    withDefault schema.quoteKeys model = withDefault schema model := by
  rw [withDefault, defaultLiteral, get?_quoteKeys (by decide), withDefault, defaultLiteral]
  cases hvalue : schema.get? "default" with
  | none => rfl
  | some value =>
    dsimp only [Option.map_some]
    rw [literalOf_quoteKeys (inherited_quotable.part (occursIn_of_get? hvalue) h)]

/-! ### Shapes -/

/-- A list of types or of the members of an enumeration has no numbers for keys. -/
theorem quoteKeys_listed {key : String} (hkey : key ∈ ["enum", "type"]) {items : List Node}
    (hget : schema.get? key = some (.list items)) : quoteKeys (.list items) = .list items := by
  cases schema with
  | map entries =>
    have hlisted := List.all_eq_true.mp h.own.listed key hkey
    replace hget : Entries.get? key entries = some (.list items) := hget
    rw [hget] at hlisted
    exact quoteKeys_of_isUnnumbered hlisted
  | _ => cases hget

theorem listedMembers_quoteKeys : listedMembers schema.quoteKeys = listedMembers schema := by
  have htexts (node : Node) : Enumerator.texts node.quoteKeys = Enumerator.texts node := by
    cases node with
    | list items =>
      rw [quoteKeys_list, Enumerator.texts, List.filterMap_map, Enumerator.texts]
      exact congrArg (List.filterMap · items) (funext str?_quoteKeys)
    | _ => rfl
  have hextend (members : List Enumerator) :
      Enumerator.extend members schema.quoteKeys = Enumerator.extend members schema := by
    simp (disch := decide) only [Enumerator.extend, get_quoteKeys, htexts]
  rw [listedMembers, get?_quoteKeys (by decide), get_quoteKeys (by decide), isText_quoteKeys,
    listedMembers]
  cases hvalues : schema.get? "enum" with
  | none => rfl
  | some values =>
    have hsame : Enumerator.ofValues values.quoteKeys = Enumerator.ofValues values := by
      cases values with
      | list items => rw [quoteKeys_listed h (by decide) hvalues]
      | _ => rfl
    dsimp only [Option.map_some]
    rw [hsame, funext hextend]

end

section
variable (schema : Node)

theorem describedMembers_quoteKeys :
    describedMembers schema.quoteKeys = describedMembers schema := by
  have hdescription (node : Node) :
      Enumerator.ofDescription node.quoteKeys = Enumerator.ofDescription node := by
    cases node <;> rfl
  simp (disch := decide) only [describedMembers, get_quoteKeys, isText_quoteKeys, hdescription]

theorem filter_isMap_quoteKeys (found : Option Node) :
    (found.map quoteKeys).filter isMap = (found.filter isMap).map quoteKeys := by
  cases found with
  | none => rfl
  | some node =>
    rw [Option.map_some, Option.filter_some, Option.filter_some, isMap_quoteKeys]
    cases node.isMap <;> rfl

theorem arrayItems?_quoteKeys :
    arrayItems? schema.quoteKeys = (arrayItems? schema).map quoteKeys := by
  rw [arrayItems?, declaresType_quoteKeys, get?_quoteKeys (by decide), filter_isMap_quoteKeys,
    arrayItems?]
  by_cases harray : declaresType schema "array" = true
  · rw [if_pos harray, if_pos harray]
  · rw [if_neg harray, if_neg harray, Option.map_none]

theorem dictionaryValues?_quoteKeys :
    dictionaryValues? schema.quoteKeys = (dictionaryValues? schema).map quoteKeys := by
  rw [dictionaryValues?, declaresType_quoteKeys, get?_quoteKeys (by decide),
    get_quoteKeys (by decide), isTruthy_quoteKeys, dictionaryValues?]
  by_cases hobject : declaresType schema "object" = true
  · rw [if_pos hobject, if_pos hobject]
    cases schema.get? "additionalProperties" with
    | none => rfl
    | some values =>
      cases values with
      | map entries => simp only [Option.map_some, quoteKeys_map]
      | scalar s =>
        cases s with
        | bool b => cases b <;> cases (schema.get "properties").isTruthy <;> rfl
        | _ => rfl
      | _ => rfl
  · rw [if_neg hobject, if_neg hobject, Option.map_none]

/-- A composition with the keys in its members quoted. -/
def quoteMembers (composition : ModelKind × List Node) : ModelKind × List Node :=
  (composition.1, composition.2.map quoteKeys)

theorem composed?_quoteKeys {keyword : String} (h : isNumeral keyword = false)
    (kind : ModelKind) : composed? schema.quoteKeys keyword kind =
      (composed? schema keyword kind).map quoteMembers := by
  rw [composed?, get?_quoteKeys h, composed?]
  cases schema.get? keyword with
  | none => rfl
  | some members =>
    cases members with
    | list items =>
      rw [Option.map_some, quoteKeys_list]
      cases items <;> rfl
    | _ => rfl

theorem composition?_quoteKeys :
    composition? schema.quoteKeys = (composition? schema).map quoteMembers := by
  rw [composition?, composed?_quoteKeys schema (by decide), composed?_quoteKeys schema (by decide),
    composed?_quoteKeys schema (by decide), ← Option.map_or, ← Option.map_or, composition?]

theorem isRecord_quoteKeys : isRecord schema.quoteKeys = isRecord schema := by
  rw [isRecord, declaresType_quoteKeys, has_quoteKeys (by decide), get_quoteKeys (by decide),
    isMap_quoteKeys, isRecord]

/-- A shape with the keys in its parts quoted. -/
def quoteShape : Shape → Shape
  | .reference ref => .reference ref.quoteKeys
  | .array items => .array items.quoteKeys
  | .dictionary values => .dictionary values.quoteKeys
  | .composition kind members => .composition kind (members.map quoteKeys)
  | .generic type => .generic type.quoteKeys
  | other => other

theorem structure?_quoteKeys :
    structure? schema.quoteKeys = (structure? schema).map quoteShape := by
  have hrest : (if isRecord schema then some .record
      else ((schema.get? "type").map quoteKeys).map .generic) =
      (if isRecord schema then some .record else (schema.get? "type").map .generic).map
        quoteShape := by
    by_cases hrecord : isRecord schema = true
    · rw [if_pos hrecord, if_pos hrecord]
      rfl
    · rw [if_neg hrecord, if_neg hrecord]
      cases schema.get? "type" <;> rfl
  rw [structure?, arrayItems?_quoteKeys, dictionaryValues?_quoteKeys, composition?_quoteKeys,
    isRecord_quoteKeys, get?_quoteKeys (by decide), hrest, structure?, Option.map_or, Option.map_or,
    Option.map_or]
  simp only [Option.map_map]
  rfl

theorem isEdge_quoteKeys : isEdge schema.quoteKeys = isEdge schema := by
  cases schema with
  | map entries =>
    rw [quoteKeys_map, isEdge, isEdge, List.any_map]
    refine congrArg (List.any entries) (funext fun e => ?_)
    obtain ⟨key, value⟩ := e
    cases value <;> rfl
  | _ => rfl

end

section
variable {schema : Node} (h : schema.Quotable)
include h

theorem innerShape_quoteKeys :
    innerShape schema.quoteKeys = (innerShape schema).map quoteShape := by
  rw [innerShape, get?_quoteKeys (by decide), listedMembers_quoteKeys h,
    describedMembers_quoteKeys, structure?_quoteKeys, innerShape]
  cases schema.get? "$ref" with
  | some ref => rfl
  | none =>
    dsimp only [Option.map_none]
    cases listedMembers schema with
    | error failure => rfl
    | ok listed =>
      cases listed with
      | cons member members => rfl
      | nil =>
        cases describedMembers schema with
        | error failure => rfl
        | ok described =>
          cases described with
          | cons member members => rfl
          | nil => cases structure? schema <;> rfl

theorem shape_quoteKeys : shape schema.quoteKeys = (shape schema).map quoteShape := by
  rw [shape, isEdge_quoteKeys, innerShape_quoteKeys h, shape]
  by_cases hedge : isEdge schema = true
  · rw [if_pos hedge, if_pos hedge]
    rfl
  · rw [if_neg hedge, if_neg hedge]

/-! ### Types and discriminators -/

/-- Only lists of types are written out, and these have no numbers for keys. -/
theorem typeOf_quoteKeys (scope : Scope) {type : Node} (hget : schema.get? "type" = some type)
    (format : Node) :
    scope.quoted.typeOf type.quoteKeys format.quoteKeys = scope.typeOf type format := by
  have hmapped : (TypeUse.mapped? · format.quoteKeys) = (TypeUse.mapped? · format) := by
    funext name
    rw [TypeUse.mapped?, isText_quoteKeys, TypeUse.mapped?]
  show TypeUse.ofNode scope.dialect type.quoteKeys format.quoteKeys =
    TypeUse.ofNode scope.dialect type format
  cases type with
  | list items =>
    rw [quoteKeys_listed h (by decide) hget]
    show TypeUse.ofList items format.quoteKeys = TypeUse.ofList items format
    rw [TypeUse.ofList, hmapped, TypeUse.ofList]
  | scalar s =>
    cases s with
    | null => exact congrArg (fun f => Except.ok (TypeUse.ofName ((f "any").getD "any"))) hmapped
    | str text =>
      show Except.ok (TypeUse.ofText _ text format.quoteKeys) =
        Except.ok (TypeUse.ofText _ text format)
      rw [TypeUse.ofText, isText_quoteKeys, TypeUse.ofText]
    | _ => rfl
  | _ => rfl

end

theorem valueOf_quoteKeys {scope : Scope} (hdocument : scope.document.Quotable)
    (schema schema' : Node) (parent name : String) :
    (propertyContext scope schema parent).valueOf scope name =
      (propertyContext scope.quoted schema' parent).valueOf scope.quoted name := by
  refine valueOf_eq (scope.discriminator?_quoteKeys parent) (fun discriminator hfound => ?_) _ _ _
  have hquotable := inherited_quotable.discriminator? hdocument hfound
  exact ⟨fun _ => by rw [get_quoteKeys (by decide), isText_quoteKeys],
    Scope.fixedValue_quoteKeys scope parent hquotable⟩

/-! ### Models -/

theorem sameReference_quoteKeys (ref : Node) : SameReference Eq ref ref.quoteKeys := by
  by_cases hkind : ref.kind = .str
  · obtain ⟨text, rfl⟩ := exists_text_of_kind hkind
    exact .text rfl
  · exact .noText hkind (by rwa [kind_quoteKeys])

section
variable {scope : Scope}

theorem shaped_quoteKeys {schema : Node} (h : schema.Quotable) :
    InStepUnless (Reference.MissesNumber scope.document)
      (SameShape scope scope.quoted Eq Quoted schema schema.quoteKeys) (shape schema)
      (shape schema.quoteKeys) := by
  rw [shape_quoteKeys h]
  cases hs : shape schema with
  | error failure => exact True.intro
  | ok found =>
    have hpart (part : Node) (hp : part ∈ found.parts) : Quoted part part.quoteKeys :=
      ⟨inherited_quotable.of_partsOf h (partsOf_shape hs) hp, rfl⟩
    show SameShape scope scope.quoted Eq Quoted schema schema.quoteKeys found (quoteShape found)
    cases hkind : shapeOf_shape hs with
    | reference _ => exact .reference (sameReference_quoteKeys _)
    | enumeration => exact .enumeration _ _
    | array _ => exact .array (hpart _ (List.mem_singleton_self _))
    | dictionary _ => exact .dictionary (hpart _ (List.mem_singleton_self _))
    | composition _ =>
      exact .composition _ (List.forall₂_map_right_iff.mpr (List.forall₂_same.mpr hpart))
    | record => exact .record
    | generic hget =>
      refine .generic ?_
      rw [get_quoteKeys (by decide), typeOf_quoteKeys h scope hget]
    | unknown => exact .unknown

/-- A description and the one with its keys quoted correspond, but for references that meet a
number. -/
theorem corresponds_quoted (hdocument : scope.document.Quotable) :
    Correspondence scope scope.quoted Eq Quoted (Reference.MissesNumber scope.document) where
  eq_iff h hother := by rw [h, hother]
  resolve {ref _} h := h ▸ Reference.resolve_str_inStep hdocument ref
  typeOf h _ := h ▸ rfl
  reference {schema schema'} h := by
    rw [h.eq, get?_quoteKeys (by decide)]
    cases schema.get? "$ref" with
    | none => exact .none
    | some ref => exact .some (sameReference_quoteKeys ref)
  shaped h := h.eq ▸ shaped_quoteKeys h.quotable
  alike {schema schema'} h := by
    rw [h.eq]
    exact
      { plainModel := fun name isDefinition => (plainModel_quoteKeys schema name isDefinition).symm
        withDefault := fun model => (withDefault_quoteKeys h.quotable model).symm
        isEmpty := by rw [requiredNames_quoteKeys, List.isEmpty_map]
        promote := fun candidates => by rw [requiredNames_quoteKeys, promote_quoteKeys]
        listHas := fun name => by rw [requiredNames_quoteKeys, listHas_quoteKeys]
        valueOf := valueOf_quoteKeys hdocument schema _ }
  properties {schema schema'} h := by
    have hproperties := inherited_quotable.get h.quotable "properties"
    rw [h.eq, get_quoteKeys (by decide), getD_entries?_quoteKeys, List.forall₂_map_right_iff,
      List.forall₂_same]
    intro e he
    have hquotable := inherited_quotable.of_mem_entries? hproperties he
    exact ⟨(hproperties.written_key he).symm, hquotable, rfl⟩

/-- A schema whose keys are quoted comes to the same model, unless a reference meets a number. -/
theorem build_quoteKeys (hdocument : scope.document.Quotable) {schema : Node} (h : schema.Quotable)
    (name : String) (isDefinition : Bool) :
    InStepUnless (Reference.MissesNumber scope.document) Eq (build scope schema name isDefinition)
      (build scope.quoted schema.quoteKeys name isDefinition) :=
  (corresponds_quoted hdocument).build_inStep ⟨h, rfl⟩ name isDefinition

end

end OpenApi.Schema
