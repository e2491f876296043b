import OpenApi.Client.Resolve
import OpenApi.Proofs.Spelling

/-
Rewriting a Swagger 2 description as one of OpenAPI 3.

The two dialects say the same things in different places.  Definitions move below `components`, and
the references to them change accordingly; the keywords of a parameter's schema, written into the
parameter itself before, get an object of their own; and the schema of a response is declared for a
media type.

What has to be rewritten depends on where a value stands: a property may be called `$ref`, and the
default of a schema may look like a schema.  So every value is given a place (`Place.child`,
`Place.item`), and the rewriting (`migrate`) as well as the conditions under which it keeps the
meaning of a description (`Place.allows`) are told by places.  Keywords that resolving never reads
have the place `other`, where nothing is changed and anything is allowed.
-/
namespace OpenApi.Migration

open Reference

/-- What a value in a description stands for. -/
inductive Place where
  | document
  | paths
  | pathItem
  | operation
  | parameters
  | parameter
  | responses
  | response
  | definitions
  | schema
  | properties
  | members
  | discriminator
  | mapping
  | reference
  | type
  | other
  deriving DecidableEq, Repr

/-- Whether a key of a responses map stands for a response: for that of a status code, or for the
one of all codes that are not listed. -/
def namesResponse (key : Scalar) : Bool :=
  key = .str "default" ||
    match Response.codeOf? key with
    | .ok (some _) => true
    | _ => false

namespace Place

/-- The place of the value of a keyword of a schema. -/
def keyword (key : String) : Place :=
  if key = "$ref" then .reference
  else if key = "type" then .type
  else if key = "properties" then .properties
  else if key = "discriminator" then .discriminator
  else if key ∈ ["items", "additionalProperties"] then .schema
  else if key ∈ ["oneOf", "anyOf", "allOf"] then .members
  else .other

/-- The place of the value at a key of a map. -/
def child : Place → Scalar → Place
  | .document, .str key =>
    if key = "paths" then .paths else if key = "definitions" then .definitions else .other
  | .paths, _ => .pathItem
  | .pathItem, .str key =>
    if key = "parameters" then .parameters
    else if key ∈ requestMethods then .operation else .other
  | .operation, .str key =>
    if key = "parameters" then .parameters
    else if key = "responses" then .responses else .other
  | .parameter, .str key => if key ∈ Parameter.ownKeywords then .other else keyword key
  | .responses, key => if namesResponse key then .response else .other
  | .response, .str key => if key = "schema" then .schema else .other
  | .definitions, _ => .schema
  | .schema, .str key => keyword key
  | .properties, _ => .schema
  | .discriminator, .str key => if key = "mapping" then .mapping else .other
  | .mapping, _ => .reference
  | _, _ => .other

/-- The place of the items of a list. -/
def item : Place → Place
  | .parameters => .parameter
  | .definitions | .members => .schema
  | _ => .other

/-- Whether nothing at a place is rewritten. -/
def isInert : Place → Bool
  | .type | .other => true
  | _ => false

/-- Whether the entries of maps at a place stay where they are. -/
def keepsEntries : Place → Bool
  | .document | .parameter | .response => false
  | _ => true

end Place

/-! ### The rewriting -/

/-- A reference to a definition, as it is spelled after the definitions have moved. -/
def movedText (ref : String) : String :=
  if (schemasNamespace .v2).toList <+: ref.toList then
    schemasNamespace .v3 ++ String.ofList (ref.toList.drop (schemasNamespace .v2).length)
  else ref

def hasKey (keys : List String) (entry : Scalar × Node) : Bool :=
  match entry.1 with
  | .str key => keys.contains key
  | _ => false

/-- The map with one entry. -/
def single (key : String) (value : Node) : Node := .map [(.str key, value)]

/-- The entries of a description in their new order: the marker of the version is another one, and
definitions are schemas among the components. -/
def arrangeDocument (entries : Entries) : Entries :=
  (.str "openapi", .str "3.0.0") ::
    entries.filter (!hasKey ["swagger", "openapi", "definitions"] ·) ++
      match Entries.get? "definitions" entries with
      | some definitions => [(.str "components", single "schemas" definitions)]
      | none => []

/-- The entries of a parameter with the keywords of its schema under one key. -/
def arrangeParameter (entries : Entries) : Entries :=
  entries.filter (hasKey Parameter.ownKeywords) ++
    [(.str "schema", Parameter.inlineSchema (.map entries))]

/-- The entries of a response with the schema under a media type. -/
def arrangeResponse (entries : Entries) : Entries :=
  entries.filter (!hasKey ["schema"] ·) ++
    match Entries.get? "schema" entries with
    | some schema => [(.str "content", single "application/json" (single "schema" schema))]
    | none => []

def Place.arrange : Place → Entries → Entries
  | .document => arrangeDocument
  | .parameter => arrangeParameter
  | .response => arrangeResponse
  | _ => id

mutual

/-- A value at a place, rewritten. -/
def migrate : Place → Node → Node
  | place, .map entries => .map (place.arrange (migrateEntries place entries))
  | place, .list items => .list (migrateItems place.item items)
  | .reference, .str ref => .str (movedText ref)
  | _, node => node

def migrateEntries : Place → Entries → Entries
  | _, [] => []
  | place, (key, value) :: rest =>
    (key, migrate (place.child key) value) :: migrateEntries place rest

def migrateItems : Place → List Node → List Node
  | _, [] => []
  | place, node :: rest => migrate place node :: migrateItems place rest

end

/-! ### What can be rewritten -/

mutual

/-- A value at a place and all values in it, each with its place. -/
def standing : Place → Node → List (Place × Node)
  | place, .map entries => (place, .map entries) :: standingEntries place entries
  | place, .list items => (place, .list items) :: standingItems place.item items
  | place, node => [(place, node)]

def standingEntries : Place → Entries → List (Place × Node)
  | _, [] => []
  | place, (key, value) :: rest => standing (place.child key) value ++ standingEntries place rest

def standingItems : Place → List Node → List (Place × Node)
  | _, [] => []
  | place, node :: rest => standing place node ++ standingItems place rest

end

/-- A text without number signs and percent signs, so that it holds no path and no escape. -/
def isUnmarked (cs : List Char) : Bool := !cs.contains '#' && !cs.contains '%'

/-- The path to the definitions and one segment that is not empty. -/
def isLocal (ref : String) : Bool :=
  let start := (schemasNamespace .v2).toList
  let segment := ref.toList.drop start.length
  start.isPrefixOf ref.toList && !segment.isEmpty && !segment.contains '/'

/-- The locations that both dialects have. -/
def sharedLocations : List Location := [.path, .query, .header, .formData]

/-- What is asked of a value at a place. -/
def Place.allows : Place → Node → Bool
  -- No address of a server, and nothing at the place where definitions move to.
  | .document, node =>
    ["schemes", "host", "basePath", "servers", "components"].all fun key => !node.has key
  | .operation, node => !node.has "requestBody"
  -- Parameters and responses are written out, in the manner of Swagger 2.
  | .parameter, .map entries =>
    (sharedLocations.any fun location =>
      ((Node.map entries).get "in").isText location.name) &&
      ["schema", "content", "$ref"].all fun key => !(Node.map entries).has key
  | .response, node => ["content", "$ref"].all fun key => !node.has key
  | .definitions, .map entries =>
    entries.all fun (key, _) => key.text?.all fun name => isUnmarked name.toList
  | .reference, .str ref => isLocal ref
  | .type, .str token => isUnmarked token.toList
  | _, _ => true

/-- Everything in a value at a place is as the rewriting asks. -/
def Regular (place : Place) (node : Node) : Prop :=
  ∀ p ∈ standing place node, p.1.allows p.2 = true

/-- A Swagger 2 description that says nothing for which OpenAPI 3 has other rules. -/
structure Migratable (document : Node) : Prop where
  detected : Dialect.detect document = .ok .v2
  regular : Regular .document document

/-! ### Rewriting a value -/

section
variable {place : Place}

theorem migrateEntries_eq (place : Place) (entries : Entries) :
    migrateEntries place entries = entries.map fun e => (e.1, migrate (place.child e.1) e.2) := by
  induction entries with
  | nil => rw [migrateEntries, List.map_nil]
  | cons e rest ih => rw [migrateEntries, ih, List.map_cons]

theorem migrateItems_eq (place : Place) (items : List Node) :
    migrateItems place items = items.map (migrate place) := by
  induction items with
  | nil => rw [migrateItems, List.map_nil]
  | cons node rest ih => rw [migrateItems, ih, List.map_cons]

theorem arrange_of_keepsEntries (h : place.keepsEntries = true) (entries : Entries) :
    place.arrange entries = entries := by
  cases place with
  | document | parameter | response => cases h
  | _ => rfl

theorem migrate_map (h : place.keepsEntries = true) (entries : Entries) :
    migrate place (.map entries) = .map (migrateEntries place entries) := by
  rw [migrate, arrange_of_keepsEntries h]

theorem child_of_isInert (h : place.isInert = true) (key : Scalar) : place.child key = .other := by
  cases place with
  | type | other => cases key <;> rfl
  | _ => cases h

theorem item_of_isInert (h : place.isInert = true) : place.item = .other := by
  cases place with
  | type | other => rfl
  | _ => cases h

theorem keepsEntries_of_isInert (h : place.isInert = true) : place.keepsEntries = true := by
  cases place with
  | type | other => rfl
  | _ => cases h

mutual

theorem migrate_of_isInert (place : Place) (h : place.isInert = true) :
    ∀ node, migrate place node = node
  | .map entries => by
    rw [migrate_map (keepsEntries_of_isInert h), migrateEntries_of_isInert place h entries]
  | .list items => by
    rw [migrate, item_of_isInert h, migrateItems_other items]
  | .scalar _ | .set _ | .pair .. | .endless => by
    cases place with
    | type | other => rw [migrate] <;> simp
    | _ => cases h

theorem migrateEntries_of_isInert (place : Place) (h : place.isInert = true) :
    ∀ entries, migrateEntries place entries = entries
  | [] => by rw [migrateEntries]
  | (key, value) :: rest => by
    rw [migrateEntries, child_of_isInert h, migrate_of_isInert .other rfl value,
      migrateEntries_of_isInert place h rest]

theorem migrateItems_other : ∀ items, migrateItems .other items = items
  | [] => by rw [migrateItems]
  | node :: rest => by
    rw [migrateItems, migrate_of_isInert .other rfl node, migrateItems_other rest]

end

theorem migrate_reference (ref : String) :
    migrate .reference (.str ref) = .str (movedText ref) := by rw [migrate]

theorem migrate_scalar (h : place ≠ .reference) (s : Scalar) :
    migrate place (.scalar s) = .scalar s := by
  cases place with
  | reference => exact absurd rfl h
  | _ => cases s <;> rfl

/-- Only texts are rewritten to another value without parts. -/
theorem migrate_scalar_cases (place : Place) (s : Scalar) :
    migrate place (.scalar s) = .scalar s ∨ ∃ ref, s = .str ref ∧
      migrate place (.scalar s) = .str (movedText ref) := by
  by_cases h : place = .reference
  · subst h
    cases s with
    | str ref => exact .inr ⟨ref, rfl, migrate_reference ref⟩
    | _ => exact .inl rfl
  · exact .inl (migrate_scalar h s)

theorem migrate_null (place : Place) : migrate place .null = .null := by
  cases place <;> rfl

theorem get?_migrateEntries (place : Place) (key : String) (entries : Entries) :
    Entries.get? key (migrateEntries place entries) =
      (Entries.get? key entries).map (migrate (place.child (.str key))) := by
  induction entries with
  | nil => rw [migrateEntries, Entries.get?, Option.map_none]
  | cons e rest ih =>
    obtain ⟨k, value⟩ := e
    rw [migrateEntries, Entries.get?, Entries.get?]
    by_cases hk : k = .str key
    · rw [if_pos hk, if_pos hk, hk, Option.map_some]
    · rw [if_neg hk, if_neg hk, ih]

theorem get?_migrate (h : place.keepsEntries = true) (key : String) (node : Node) :
    (migrate place node).get? key = (node.get? key).map (migrate (place.child (.str key))) := by
  cases node with
  | map entries =>
    rw [migrate_map h]
    exact get?_migrateEntries place key entries
  | scalar s =>
    rcases migrate_scalar_cases place s with hs | ⟨ref, _, hs⟩ <;> rw [hs] <;> rfl
  | _ => cases place <;> rfl

theorem get_migrate (h : place.keepsEntries = true) (key : String) (node : Node) :
    (migrate place node).get key = migrate (place.child (.str key)) (node.get key) := by
  rw [Node.get, get?_migrate h, Node.get]
  cases node.get? key with
  | none => exact (migrate_null _).symm
  | some value => rfl

theorem has_migrate (h : place.keepsEntries = true) (key : String) (node : Node) :
    (migrate place node).has key = node.has key := by
  rw [Node.has, get?_migrate h, Option.isSome_map, Node.has]

theorem isMap_migrate (place : Place) (node : Node) : (migrate place node).isMap = node.isMap := by
  cases node with
  | map entries => rw [migrate]; rfl
  | scalar s =>
    rcases migrate_scalar_cases place s with hs | ⟨ref, rfl, hs⟩
    · rw [hs]
    · rw [hs]
      rfl
  | _ => cases place <;> rfl

theorem items?_migrate (place : Place) (node : Node) :
    (migrate place node).items? = node.items?.map (List.map (migrate place.item)) := by
  cases node with
  | list items => rw [migrate, migrateItems_eq]; rfl
  | map entries => rw [migrate]; rfl
  | scalar s => rcases migrate_scalar_cases place s with hs | ⟨ref, rfl, hs⟩ <;> rw [hs] <;> rfl
  | _ => cases place <;> rfl

theorem getD_items?_migrate (place : Place) (node : Node) :
    (migrate place node).items?.getD [] = (node.items?.getD []).map (migrate place.item) := by
  rw [items?_migrate]
  cases node.items? <;> rfl

theorem entries?_migrate (h : place.keepsEntries = true) (node : Node) :
    (migrate place node).entries? = node.entries?.map (migrateEntries place) := by
  cases node with
  | map entries => rw [migrate_map h]; rfl
  | scalar s => rcases migrate_scalar_cases place s with hs | ⟨ref, rfl, hs⟩ <;> rw [hs] <;> rfl
  | _ => cases place <;> rfl

theorem getD_entries?_migrate (h : place.keepsEntries = true) (node : Node) :
    (migrate place node).entries?.getD [] =
      (node.entries?.getD []).map fun e => (e.1, migrate (place.child e.1) e.2) := by
  rw [entries?_migrate h]
  cases node.entries? with
  | none => rfl
  | some entries => exact migrateEntries_eq place entries

/-- The rewriting keeps the kind of a value. -/
theorem kind_migrate (place : Place) (node : Node) : (migrate place node).kind = node.kind := by
  cases node with
  | map entries => rw [migrate]; rfl
  | scalar s =>
    rcases migrate_scalar_cases place s with hs | ⟨ref, rfl, hs⟩
    · rw [hs]
    · rw [hs]
      rfl
  | _ => cases place <;> rfl

end

/-! ### Conditions on parts -/

section
variable {place : Place} {node : Node} {entries : Entries} {items : List Node}

theorem mem_standing_self (place : Place) (node : Node) : (place, node) ∈ standing place node := by
  cases node with
  | map entries | list items => exact List.mem_cons_self
  | _ => exact List.mem_singleton_self _

theorem standingEntries_eq (place : Place) (entries : Entries) :
    standingEntries place entries = entries.flatMap fun e => standing (place.child e.1) e.2 := by
  induction entries with
  | nil => rw [standingEntries, List.flatMap_nil]
  | cons e rest ih => rw [standingEntries, ih, List.flatMap_cons]

theorem standingItems_eq (place : Place) (items : List Node) :
    standingItems place items = items.flatMap (standing place) := by
  induction items with
  | nil => rw [standingItems, List.flatMap_nil]
  | cons node rest ih => rw [standingItems, ih, List.flatMap_cons]

theorem Regular.allowed (h : Regular place node) : place.allows node = true :=
  h _ (mem_standing_self place node)

theorem regular_map_iff : Regular place (.map entries) ↔
    place.allows (.map entries) = true ∧ ∀ e ∈ entries, Regular (place.child e.1) e.2 := by
  simp only [Regular, standing, List.forall_mem_cons, standingEntries_eq, List.mem_flatMap]
  exact and_congr_right fun _ =>
    ⟨fun h e he p hp => h p ⟨e, he, hp⟩, fun h p ⟨e, he, hp⟩ => h e he p hp⟩

theorem regular_list_iff : Regular place (.list items) ↔
    place.allows (.list items) = true ∧ ∀ x ∈ items, Regular place.item x := by
  simp only [Regular, standing, List.forall_mem_cons, standingItems_eq, List.mem_flatMap]
  exact and_congr_right fun _ =>
    ⟨fun h x hx p hp => h p ⟨x, hx, hp⟩, fun h p ⟨x, hx, hp⟩ => h x hx p hp⟩

theorem regular_null (place : Place) : Regular place .null := by
  intro p hp
  rw [List.mem_singleton.mp hp]
  cases place <;> rfl

theorem Regular.entry (h : Regular place (.map entries)) {key : String} {value : Node}
    (hv : Entries.get? key entries = some value) : Regular (place.child (.str key)) value :=
  (regular_map_iff.mp h).2 _ (Node.mem_of_get?_entries hv)

theorem Regular.get? (h : Regular place node) {key : String} {value : Node}
    (hv : node.get? key = some value) : Regular (place.child (.str key)) value := by
  cases node with
  | map entries => exact h.entry hv
  | _ => cases hv

theorem Regular.get (h : Regular place node) (key : String) :
    Regular (place.child (.str key)) (node.get key) := by
  rw [Node.get]
  cases hv : node.get? key with
  | none => exact regular_null _
  | some value => exact h.get? hv

theorem Regular.of_mem_entries? (h : Regular place node) {e : Scalar × Node}
    (he : e ∈ node.entries?.getD []) : Regular (place.child e.1) e.2 := by
  cases node with
  | map entries => exact (regular_map_iff.mp h).2 e he
  | _ => cases he

/-- The keys of definitions have no marks. -/
theorem Regular.isUnmarked_key (h : Regular .definitions node) {e : Scalar × Node}
    (he : e ∈ node.entries?.getD []) :
    (e.1.text?.all fun name => isUnmarked name.toList) = true := by
  cases node with
  | map entries => exact List.all_eq_true.mp h.allowed e he
  | _ => cases he

theorem Regular.of_mem_items? (h : Regular place node) {x : Node}
    (hx : x ∈ node.items?.getD []) : Regular place.item x := by
  cases node with
  | list items => exact (regular_list_iff.mp h).2 x hx
  | _ => cases hx

end

end OpenApi.Migration
