import OpenApi.Client.Resolve
import OpenApi.Proofs.Except

/-
Properties of values that their parts inherit.

What is read of a description is a part of it: an item, a member or null for a missing one, the
target of a reference, or a parameter without the members that are its own.  A property that all of
these inherit from the values they stand in holds wherever reading arrives, once it holds of the
whole description.
-/
namespace OpenApi

namespace Parameter

/-- Whether an entry of a parameter is one of its schema. -/
def isKeyword (entry : Scalar × Node) : Bool :=
  match entry.1 with
  | .str key => !ownKeywords.contains key
  | _ => true

theorem inlineSchema_eq (entries : Entries) :
    inlineSchema (.map entries) = .map (entries.filter isKeyword) := rfl

end Parameter

/-- The discriminator that the properties of a schema are read against is that of its parent. -/
theorem Schema.discriminator?_of_propertyContext {scope : Scope} {schema discriminator : Node}
    {parent : String}
    (h : (propertyContext scope schema parent).discriminator = some discriminator) :
    scope.discriminator? parent = some discriminator := by
  unfold propertyContext at h
  dsimp only at h
  split at h
  · cases h
  · exact h

/-- Whether a property passes from a value to all that is read of it. -/
structure Inherited (P : Node → Prop) : Prop where
  part : ∀ {part whole : Node}, part.OccursIn whole → P whole → P part
  null : P .null
  empty : P (.map [])
  inline : ∀ {node : Node}, P node → P (Parameter.inlineSchema node)

namespace Inherited

variable {P : Node → Prop} {shop : Workshop} {node : Node} {entries root : Entries}

theorem get (own : Inherited P) (h : P node) (key : String) : P (node.get key) := by
  rw [Node.get]
  cases hfound : node.get? key with
  | none => exact own.null
  | some value => exact own.part (Node.occursIn_of_get? hfound) h

theorem of_mem_items? (own : Inherited P) (h : P node) {item : Node}
    (hitem : item ∈ node.items?.getD []) : P item := by
  cases node with
  | list items => exact own.part (Node.occursIn_of_mem hitem) h
  | scalar | map | set | pair | endless => cases hitem

theorem of_mem (own : Inherited P) (h : P (.map entries)) {entry : Scalar × Node}
    (hentry : entry ∈ entries) : P entry.2 :=
  own.part (.entry hentry .whole) h

theorem of_mem_entries? (own : Inherited P) (h : P node) {entry : Scalar × Node}
    (hentry : entry ∈ node.entries?.getD []) : P entry.2 := by
  cases node with
  | map entries => exact own.of_mem h hentry
  | scalar | list | set | pair | endless => cases hentry

theorem target (own : Inherited P) {document found : Node} (hdocument : P document) (h : P node)
    (hfound : Reference.target document node = .ok found) : P found := by
  unfold Reference.target at hfound
  split at hfound
  · exact own.part (Reference.occursIn_of_resolve hfound) hdocument
  · cases hfound
    exact h

theorem of_partsOf (own : Inherited P) {schema part : Node} {parts : List Node} (h : P schema)
    (hparts : Schema.PartsOf schema parts) (hpart : part ∈ parts) : P part := by
  cases hparts with
  | nothing => cases hpart
  | anything _ => exact List.mem_singleton.mp hpart ▸ own.empty
  | member found => exact List.mem_singleton.mp hpart ▸ own.part (Node.occursIn_of_get? found) h
  | items found => exact own.of_mem_items? (own.part (Node.occursIn_of_get? found) h) hpart

/-! ### Operations -/

theorem of_mem_withSchema (own : Inherited P) {content schema : Node} {mediaType : String}
    {choices : List (String × Node)} (h : P content)
    (hchoices : Content.withSchema content = .ok choices)
    (hmem : (mediaType, schema) ∈ choices) : P schema := by
  unfold Content.withSchema at hchoices
  split at hchoices
  · rename_i entries
    obtain ⟨found, hfound, rfl⟩ := Except.map_eq_ok_iff.mp hchoices
    obtain ⟨choice, hchoice, hsome⟩ := List.mem_filterMap.mp hmem
    obtain ⟨entry, hentry, hmade⟩ := Except.exists_mem_of_mapM hfound hchoice
    unfold Content.choice? at hmade
    split at hmade
    · cases hmade
      cases hsome
    · rename_i kept hkept
      obtain ⟨_, _, rfl⟩ := Except.map_eq_ok_iff.mp hmade
      cases hsome
      have hget := (Option.filter_eq_some_iff.mp hkept).1
      exact own.part (Node.occursIn_of_get? hget) (own.of_mem h hentry)
  · cases hchoices
    cases hmem

/-- The preferences choose among what the media types declare. -/
theorem select (own : Inherited P) {preferences : Preferences} {content schema : Node}
    {mediaType : String} (h : P content)
    (hselect : Content.select preferences content = .ok (some (mediaType, schema))) : P schema := by
  obtain ⟨choices, hchoices, hselect⟩ := Except.bind_eq_ok_iff.mp hselect
  have hmem : (mediaType, schema) ∈ choices := by
    rcases Option.or_eq_some_iff.mp (Except.pure_eq_ok_iff.mp hselect) with hfound | ⟨_, hfirst⟩
    · obtain ⟨_, _, hfind⟩ := List.exists_of_findSome?_eq_some hfound
      exact List.mem_of_find?_eq_some hfind
    · exact List.mem_of_head? hfirst
  exact own.of_mem_withSchema h hchoices hmem

theorem parameterSchema (own : Inherited P) {location : Location} {schema : Node} (h : P node)
    (hschema : Parameter.schemaOf shop node location = .ok schema) : P schema := by
  unfold Parameter.schemaOf at hschema
  split at hschema
  · rename_i entries hentries
    cases hschema
    exact hentries ▸ own.get h "schema"
  · split at hschema
    · cases hschema
      exact own.inline h
    · obtain ⟨found, hfound, rfl⟩ := Except.map_eq_ok_iff.mp hschema
      obtain ⟨choice, hchoice, rfl⟩ := Except.map_eq_ok_iff.mp hfound
      cases choice with
      | none => exact own.empty
      | some choice => exact own.select (own.get h "content") hchoice

theorem responseSchema (own : Inherited P) {schema : Node} (h : P node)
    (hschema : Response.schemaOf shop node = .ok (some schema)) : P schema := by
  unfold Response.schemaOf at hschema
  split at hschema
  · obtain ⟨choice, hchoice, hsome⟩ := Except.map_eq_ok_iff.mp hschema
    obtain ⟨⟨mediaType, chosen⟩, rfl, rfl⟩ := Option.map_eq_some_iff.mp hsome
    exact own.select (own.get h "content") hchoice
  · have hget := (Option.filter_eq_some_iff.mp (Except.ok.inj hschema)).1
    exact own.part (Node.occursIn_of_get? hget) h

theorem schemaTarget (own : Inherited P) {schema found : Node} (hdocument : P shop.document)
    (h : P schema) (hfound : Response.schemaTarget shop schema = .ok found) : P found := by
  unfold Response.schemaTarget at hfound
  split at hfound
  · split at hfound
    · exact own.part (Reference.occursIn_of_resolve hfound) hdocument
    · cases hfound
      exact h
  · cases hfound
    exact h

theorem entriesOfPath (own : Inherited P) {preferences : Preferences} {path : Scalar} {item : Node}
    {entry : OperationEntry} (h : P item)
    (hentry : entry ∈ OpenApi.entriesOfPath preferences path item) :
    P entry.node ∧ ∀ node ∈ entry.pathParameters, P node := by
  obtain ⟨method, _, hentry⟩ := List.mem_flatMap.mp hentry
  dsimp only at hentry
  split at hentry
  · obtain ⟨tag, _, rfl⟩ := List.mem_map.mp hentry
    exact ⟨own.get h method, fun node hnode => own.of_mem_items? (own.get h "parameters") hnode⟩
  · cases hentry

theorem operationEntries (own : Inherited P) {preferences : Preferences} {entry : OperationEntry}
    (h : P (.map root)) (hentry : entry ∈ OpenApi.operationEntries preferences root) :
    P entry.node ∧ ∀ node ∈ entry.pathParameters, P node := by
  unfold OpenApi.operationEntries at hentry
  split at hentry
  · rename_i paths hpaths
    obtain ⟨⟨path, item⟩, hitem, hentry⟩ := List.mem_flatMap.mp hentry
    have hmap : P (.map paths) := hpaths ▸ own.get h "paths"
    exact own.entriesOfPath (own.of_mem hmap hitem) hentry
  · cases hentry

/-! ### Definitions -/

theorem foldl_get (own : Inherited P) (keys : List String) (h : P node) :
    P (keys.foldl (fun node key => node.get key) node) := by
  induction keys generalizing node with
  | nil => exact h
  | cons key rest ih => exact ih (own.get h key)

theorem schemas (own : Inherited P) {dialect : Dialect} {document : Node} {entry : Scalar × Node}
    (h : P document) (hentry : entry ∈ dialect.schemas document) : P entry.2 :=
  own.of_mem_entries? (own.foldl_get dialect.schemasPath h) hentry

/-- A discriminator is a member of a definition. -/
theorem discriminator? (own : Inherited P) {scope : Scope} {name : String} {discriminator : Node}
    (h : P scope.document) (hfound : scope.discriminator? name = some discriminator) :
    P discriminator := by
  obtain ⟨⟨key, definition⟩, hmem, hmatch⟩ := List.exists_of_findSome?_eq_some hfound
  have hdefinition : P definition := own.schemas h hmem
  replace hmatch : scope.discriminatorOf? name definition = some discriminator := hmatch
  unfold Scope.discriminatorOf? at hmatch
  split at hmatch
  · rename_i entries members hentries _
    obtain ⟨_, hsame⟩ := Option.ite_none_right_eq_some.mp hmatch
    cases hsame
    exact hentries ▸ own.get hdefinition "discriminator"
  · cases hmatch

theorem propertyContext (own : Inherited P) {scope : Scope} {schema discriminator : Node}
    {parent : String} (h : P scope.document)
    (hfound : (Schema.propertyContext scope schema parent).discriminator = some discriminator) :
    P discriminator :=
  own.discriminator? h (Schema.discriminator?_of_propertyContext hfound)

theorem sharedParameters (own : Inherited P) {scope : Scope} {entry : Scalar × Node}
    (h : P scope.document) (hshared : OpenApi.sharedParameters scope = .ok entries)
    (hentry : entry ∈ entries) : P entry.2 := by
  unfold OpenApi.sharedParameters at hshared
  split at hshared
  · cases hshared
    cases hentry
  · obtain ⟨root, hroot, hshared⟩ := Except.bind_eq_ok_iff.mp hshared
    have hcomponents : P (Dialect.member "components" root) := by
      unfold Dialect.members at hroot
      split at hroot
      · rename_i hdocument
        cases hroot
        rw [hdocument] at h
        exact own.get h "components"
      · cases hroot
    split at hshared
    · rename_i parameters hparameters
      cases hshared
      have hmap : P (.map parameters) := hparameters ▸ own.get hcomponents "parameters"
      exact own.of_mem hmap (List.mem_of_mem_filter hentry)
    · cases hshared
      cases hentry

end Inherited
end OpenApi
