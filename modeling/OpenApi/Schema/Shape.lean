import OpenApi.Schema.Keywords
import OpenApi.Schema.Scope

/-
The shape of a schema decides which kind of model is built from it.

One schema may carry the keywords of several shapes.  They are looked for in a fixed order, and the
first shape found wins: a reference, an enumeration, an enumeration in a description, an array, a
dictionary, a composition, a record, a plain type.  Telling the shape of a schema looks at its own
keywords only, so that what is built from its parts is a question apart.

A schema that contains itself has no shape at the depth where its unfolding ends.
-/
namespace OpenApi.Schema

inductive Shape where
  | reference (ref : Node)
  /-- An enumeration whose members are written as texts or as numbers. -/
  | enumeration (type : String) (members : List Enumerator)
  | array (items : Node)
  | dictionary (values : Node)
  | composition (kind : ModelKind) (members : List Node)
  | record
  | generic (type : Node)
  | unknown

/-- The members that the `enum` keyword lists; a truth value is never an enumeration. -/
def listedMembers (schema : Node) : Except Failure (List Enumerator) :=
  match schema.get? "enum" with
  | some values =>
    if (schema.get "type").isText "boolean" then .ok []
    else (Enumerator.ofValues values).map (Enumerator.extend · schema)
  | none => .ok []

/-- The members that the description of an integer lists. -/
def describedMembers (schema : Node) : Except Failure (List Enumerator) :=
  let type := schema.get "type"
  if type.isText "int" || type.isText "integer" then
    Enumerator.ofDescription (schema.get "description")
  else .ok []

def arrayItems? (schema : Node) : Option Node :=
  if declaresType schema "array" then (schema.get? "items").filter Node.isMap else none

/-- The schema of the values of a dictionary.  Any values are allowed by `true`, but only where no
properties are declared. -/
def dictionaryValues? (schema : Node) : Option Node :=
  if declaresType schema "object" then
    match schema.get? "additionalProperties" with
    | some (.bool true) =>
      if (schema.get "properties").isTruthy then none else some (.map [])
    | some (.map entries) => some (.map entries)
    | _ => none
  else none

/-- The members of a composition under one keyword, if there are any. -/
def composed? (schema : Node) (keyword : String) (kind : ModelKind) :
    Option (ModelKind × List Node) :=
  match schema.get? keyword with
  | some (.list (x :: xs)) => some (kind, x :: xs)
  | _ => none

def composition? (schema : Node) : Option (ModelKind × List Node) :=
  (composed? schema "oneOf" .oneOf).or
    ((composed? schema "anyOf" .anyOf).or (composed? schema "allOf" .allOf))

/-- An object, or properties without any type. -/
def isRecord (schema : Node) : Bool :=
  declaresType schema "object" || (!schema.has "type" && (schema.get "properties").isMap)

/-- The shapes that are told from the parts of a schema. -/
def structure? (schema : Node) : Option Shape :=
  ((arrayItems? schema).map .array).or <|
    ((dictionaryValues? schema).map .dictionary).or <|
      ((composition? schema).map fun (kind, members) => .composition kind members).or <|
        if isRecord schema then some .record else (schema.get? "type").map .generic

/-- Whether the unfolding of a value ends at it or right below it. -/
def isEdge : Node → Bool
  | .endless => true
  | .map entries => entries.any fun (_, value) => match value with
    | .endless => true
    | _ => false
  | _ => false

/-- The shape of a schema whose keywords are all there. -/
def innerShape (schema : Node) : Except Failure Shape :=
  match schema.get? "$ref" with
  | some ref => .ok (.reference ref)
  | none =>
    match listedMembers schema with
    | .error failure => .error failure
    | .ok (member :: members) => .ok (.enumeration "string" (member :: members))
    | .ok [] =>
      match describedMembers schema with
      | .error failure => .error failure
      | .ok (member :: members) => .ok (.enumeration "number" (member :: members))
      | .ok [] => .ok ((structure? schema).getD .unknown)

/-- The shape of a schema. -/
def shape (schema : Node) : Except Failure Shape :=
  if isEdge schema then .error (.malformed .endless) else innerShape schema

/-- How the shape of a schema is told: a keyword counts where those before it say nothing. -/
inductive Told (schema : Node) (found : Shape) : Prop where
  | referenced {ref : Node} (referenced : schema.get? "$ref" = some ref)
      (eq : found = .reference ref)
  | listed {member : Enumerator} {members : List Enumerator}
      (unreferenced : schema.get? "$ref" = none)
      (listed : listedMembers schema = .ok (member :: members))
      (eq : found = .enumeration "string" (member :: members))
  | described {member : Enumerator} {members : List Enumerator}
      (unreferenced : schema.get? "$ref" = none) (unlisted : listedMembers schema = .ok [])
      (described : describedMembers schema = .ok (member :: members))
      (eq : found = .enumeration "number" (member :: members))
  | structured (unreferenced : schema.get? "$ref" = none)
      (unlisted : listedMembers schema = .ok []) (undescribed : describedMembers schema = .ok [])
      (eq : found = (structure? schema).getD .unknown)

theorem told_of_innerShape {schema : Node} {found : Shape} (h : innerShape schema = .ok found) :
    Told schema found := by
  unfold innerShape at h
  split at h
  · rename_i ref href
    cases h
    exact .referenced href rfl
  · rename_i href
    split at h
    · cases h
    · rename_i hlisted
      cases h
      exact .listed href hlisted rfl
    · rename_i hlisted
      split at h
      · cases h
      · rename_i hdescribed
        cases h
        exact .described href hlisted hdescribed rfl
      · rename_i hdescribed
        cases h
        exact .structured href hlisted hdescribed rfl

theorem told_of_shape {schema : Node} {found : Shape} (h : shape schema = .ok found) :
    Told schema found := by
  unfold shape at h
  split at h
  · cases h
  · exact told_of_innerShape h

/-- What the shape of a schema can be, and what it is told from. -/
inductive ShapeOf (schema : Node) : Shape → Prop where
  | reference {ref : Node} (found : schema.get? "$ref" = some ref) : ShapeOf schema (.reference ref)
  | enumeration {type : String} {members : List Enumerator} :
    ShapeOf schema (.enumeration type members)
  | array {items : Node} (found : arrayItems? schema = some items) : ShapeOf schema (.array items)
  | dictionary {values : Node} (found : dictionaryValues? schema = some values) :
    ShapeOf schema (.dictionary values)
  | composition {kind : ModelKind} {members : List Node}
    (found : composition? schema = some (kind, members)) : ShapeOf schema (.composition kind members)
  | record : ShapeOf schema .record
  | generic {type : Node} (found : schema.get? "type" = some type) : ShapeOf schema (.generic type)
  | unknown : ShapeOf schema .unknown

theorem shapeOf_structure? {schema : Node} {found : Shape} (h : structure? schema = some found) :
    ShapeOf schema found := by
  unfold structure? at h
  simp only [Option.or_eq_some_iff, Option.map_eq_some_iff] at h
  rcases h with
    ⟨items, hi, rfl⟩ | ⟨_, ⟨values, hv, rfl⟩ | ⟨_, ⟨⟨kind, members⟩, hc, rfl⟩ | ⟨_, hg⟩⟩⟩
  · exact .array hi
  · exact .dictionary hv
  · exact .composition hc
  · split at hg
    · cases hg
      exact .record
    · obtain ⟨type, htype, rfl⟩ := Option.map_eq_some_iff.mp hg
      exact .generic htype

theorem shapeOf_shape {schema : Node} {found : Shape} (h : shape schema = .ok found) :
    ShapeOf schema found := by
  cases told_of_shape h with
  | referenced href hfound => exact hfound ▸ .reference href
  | listed _ _ hfound => exact hfound ▸ .enumeration
  | described _ _ _ hfound => exact hfound ▸ .enumeration
  | structured _ _ _ hfound =>
    cases hs : structure? schema with
    | none =>
      rw [hs] at hfound
      exact hfound ▸ .unknown
    | some inner =>
      rw [hs] at hfound
      exact hfound ▸ shapeOf_structure? hs

/-- The kind of the models of a shape. -/
def Shape.kind : Shape → ModelKind
  | .reference _ => .reference
  | .enumeration .. => .enumeration
  | .array _ => .array
  | .dictionary _ => .dictionary
  | .composition kind _ => kind
  | .record => .record
  | .generic _ | .unknown => .generic

/-- The parts of a shape for which models are built in turn. -/
def Shape.parts : Shape → List Node
  | .array items => [items]
  | .dictionary values => [values]
  | .composition _ members => members
  | _ => []

/-- Where the parts of a schema come from: they are a member of it or the items of one, or say
nothing. -/
inductive PartsOf (schema : Node) : List Node → Prop where
  | nothing : PartsOf schema []
  | anything {key : String} {value : Node} (found : schema.get? key = some value) :
      PartsOf schema [.map []]
  | member {key : String} {value : Node} (found : schema.get? key = some value) :
      PartsOf schema [value]
  | items {key : String} {items : List Node} (found : schema.get? key = some (.list items)) :
      PartsOf schema items

theorem partsOf_arrayItems? {schema items : Node} (h : arrayItems? schema = some items) :
    PartsOf schema [items] := by
  unfold arrayItems? at h
  split at h
  · exact .member (Option.filter_eq_some_iff.mp h).1
  · cases h

theorem partsOf_dictionaryValues? {schema values : Node}
    (h : dictionaryValues? schema = some values) : PartsOf schema [values] := by
  unfold dictionaryValues? at h
  split at h
  · split at h
    · rename_i found
      split at h
      · cases h
      · cases h
        exact .anything found
    · rename_i found
      cases h
      exact .member found
    · cases h
  · cases h

theorem partsOf_composed? {schema : Node} {keyword : String} {kind kind' : ModelKind}
    {members : List Node} (h : composed? schema keyword kind = some (kind', members)) :
    PartsOf schema members := by
  unfold composed? at h
  split at h
  · rename_i found
    cases h
    exact .items found
  · cases h

theorem partsOf_composition? {schema : Node} {kind : ModelKind} {members : List Node}
    (h : composition? schema = some (kind, members)) : PartsOf schema members := by
  unfold composition? at h
  simp only [Option.or_eq_some_iff] at h
  rcases h with h | ⟨_, h | ⟨_, h⟩⟩ <;> exact partsOf_composed? h

theorem partsOf_shape {schema : Node} {found : Shape} (h : shape schema = .ok found) :
    PartsOf schema found.parts := by
  cases shapeOf_shape h with
  | array found => exact partsOf_arrayItems? found
  | dictionary found => exact partsOf_dictionaryValues? found
  | composition found => exact partsOf_composition? found
  | reference | enumeration | record | generic | unknown => exact .nothing

/-- The parts of a schema are smaller than the schema, taken together. -/
theorem PartsOf.size_lt {schema : Node} {parts : List Node} (h : PartsOf schema parts) :
    Node.sizeItems parts < schema.size := by
  cases h with
  | nothing => exact Node.size_pos schema
  | anything found =>
    rename_i value
    have pos := Node.size_pos value
    have := Node.size_lt_of_get? found
    simp only [Node.sizeItems, Node.size, Node.sizeEntries]
    omega
  | member found =>
    have := Node.size_lt_of_get? found
    simpa [Node.sizeItems] using this
  | items found =>
    have := Node.size_lt_of_get? found
    simp only [Node.size] at this
    omega

/-- The references in the parts of a schema are references of the schema. -/
theorem PartsOf.references_subset {schema : Node} {parts : List Node} (h : PartsOf schema parts) :
    ∀ r ∈ Node.referencesOfItems parts, r ∈ schema.references := by
  cases h with
  | nothing => simp [Node.referencesOfItems]
  | anything _ => simp [Node.referencesOfItems, Node.references, Node.referencesOfEntries]
  | member found =>
    simpa [Node.referencesOfItems] using Node.references_subset_of_get? found
  | items found =>
    have := Node.references_subset_of_get? found
    simpa [Node.references] using this

theorem size_lt_of_shape {schema : Node} {found : Shape} (h : shape schema = .ok found) :
    Node.sizeItems found.parts < schema.size := (partsOf_shape h).size_lt

end OpenApi.Schema
