import OpenApi.Proofs.CorrespondingOperations
import OpenApi.Proofs.MigratedSchemas

/-
Operations of a rewritten description.

Where the schema of a parameter or a response is declared depends on the dialect, and the rewriting
puts it where OpenAPI 3 looks for it.  Both readings find the same schema, once as it was and once
rewritten, so operations correspond (`corresponds_operations`).  One keyword is read by both a
parameter and its schema, and moves away from the parameter: whether it may be null.  Nothing is
lost, since no rule for building a model forgets it (`isNullable_of_build`).
-/
namespace OpenApi.Migration

open Entries Schema
open Parameter (isKeyword inlineSchema_eq)

/-- Every model of a schema that allows null is nullable. -/
theorem isNullable_of_build {scope : Scope} {schema : Node} {name : String} {isDefinition : Bool}
    {model : Model} (h : Schema.build scope schema name isDefinition = .ok model)
    (hnull : allowsNull schema = true) : model.isNullable = true := by
  have hrun : Job.built scope ⟨[], schema, name, isDefinition⟩ = .ok model := h
  rw [Job.built_eq] at hrun
  cases Job.rule_of_run hrun with
  | reference _ _ _ done =>
    obtain ⟨literal, rfl⟩ := Job.withDefault_eq_ok done
    exact Bool.or_eq_true_iff.mpr (.inl hnull)
  | enumeration _ done =>
    obtain ⟨literal, rfl⟩ := Job.withDefault_eq_ok done
    exact hnull
  | container _ _ done =>
    obtain ⟨literal, rfl⟩ := Job.withDefault_eq_ok done
    exact hnull
  | composition _ _ _ _ => exact hnull
  | record _ _ done =>
    obtain ⟨literal, rfl⟩ := Job.withDefault_eq_ok done
    exact hnull
  | generic _ _ done =>
    obtain ⟨literal, rfl⟩ := Job.withDefault_eq_ok done
    exact Bool.or_eq_true_iff.mpr (.inl hnull)
  | unknown _ => exact hnull

/-! ### Parameters -/

section
variable {entries : Entries}

theorem migrate_parameter (entries : Entries) : migrate .parameter (.map entries) =
    .map (arrangeParameter (migrateEntries .parameter entries)) := by
  rw [migrate]
  rfl

/-- What a parameter says besides its schema stays in it. -/
theorem get?_parameter {key : String} (h : key ∈ Parameter.ownKeywords) (hschema : key ≠ "schema") :
    (migrate .parameter (.map entries)).get? key = (Node.map entries).get? key := by
  have hkept (value : Node) : hasKey Parameter.ownKeywords (.str key, value) = true :=
    List.contains_iff_mem.mpr h
  have hother : Scalar.str "schema" ≠ .str key := by
    rintro ⟨⟩
    exact hschema rfl
  have hchild : Place.child .parameter (.str key) = .other := if_pos h
  rw [migrate_parameter, Node.get?, arrangeParameter, get?_append, get?_filter _ _ _ hkept,
    get?_migrateEntries, hchild, funext (migrate_of_isInert .other rfl), Entries.get?,
    if_neg hother, Entries.get?, Option.or_none]
  exact Option.map_id'

/-- All else leaves it. -/
theorem get?_parameter_eq_none {key : String} (h : key ∉ Parameter.ownKeywords) :
    (migrate .parameter (.map entries)).get? key = none := by
  have hdropped (value : Node) : hasKey Parameter.ownKeywords (.str key, value) = false := by
    simpa [hasKey] using h
  have hother : Scalar.str "schema" ≠ .str key := by
    rintro ⟨⟩
    exact h (by decide)
  rw [migrate_parameter, Node.get?, arrangeParameter, get?_append,
    get?_filter_eq_none _ _ _ hdropped, Entries.get?, if_neg hother]
  rfl

theorem child_of_isKeyword {entry : Scalar × Node} (h : isKeyword entry = true) :
    Place.child .parameter entry.1 = Place.child .schema entry.1 := by
  obtain ⟨key, value⟩ := entry
  cases key with
  | str key =>
    have hout : key ∉ Parameter.ownKeywords := by
      simpa [isKeyword] using h
    exact if_neg hout
  | _ => rfl

/-- The schema of a parameter is rewritten where it stands in it. -/
theorem inlineSchema_migrate (entries : Entries) :
    Parameter.inlineSchema (.map (migrateEntries .parameter entries)) =
      migrate .schema (Parameter.inlineSchema (.map entries)) := by
  rw [inlineSchema_eq, inlineSchema_eq, migrate_map rfl]
  congr 1
  induction entries with
  | nil => rw [migrateEntries, List.filter_nil, migrateEntries]
  | cons e rest ih =>
    obtain ⟨key, value⟩ := e
    rw [migrateEntries]
    by_cases hkeyword : isKeyword (key, value) = true
    · have hmoved : isKeyword (key, migrate (Place.child .parameter key) value) = true := hkeyword
      rw [List.filter_cons_of_pos hmoved, List.filter_cons_of_pos hkeyword, ih, migrateEntries,
        child_of_isKeyword hkeyword]
    · have hmoved : ¬ isKeyword (key, migrate (Place.child .parameter key) value) = true := hkeyword
      rw [List.filter_cons_of_neg hmoved, List.filter_cons_of_neg hkeyword, ih]

theorem regular_inlineSchema (h : Regular .parameter (.map entries)) :
    Regular .schema (Parameter.inlineSchema (.map entries)) := by
  rw [inlineSchema_eq]
  refine regular_map_iff.mpr ⟨rfl, fun e he => ?_⟩
  obtain ⟨hmem, hkeyword⟩ := List.mem_filter.mp he
  rw [← child_of_isKeyword hkeyword]
  exact (regular_map_iff.mp h).2 e hmem

theorem get?_schema_parameter (h : (Node.map entries).get? "schema" = none) :
    (migrate .parameter (.map entries)).get? "schema" =
      some (migrate .schema (Parameter.inlineSchema (.map entries))) := by
  have hnone : Entries.get? "schema" (migrateEntries .parameter entries) = none := by
    rw [get?_migrateEntries, show Entries.get? "schema" entries = none from h, Option.map_none]
  rw [migrate_parameter, Node.get?, arrangeParameter, get?_append, get?_filter _ _ _ fun _ => rfl,
    hnone, Entries.get?, if_pos rfl, inlineSchema_migrate]
  rfl

/-- What is asked of a parameter, read off one by one. -/
structure PlainParameter (entries : Entries) (location : Location) : Prop where
  shared : location ∈ sharedLocations
  located : (Node.map entries).get "in" = .str location.name
  noSchema : (Node.map entries).get? "schema" = none
  noReference : (Node.map entries).get? "$ref" = none

theorem exists_plainParameter (h : Place.allows .parameter (.map entries) = true) :
    ∃ location, PlainParameter entries location := by
  rw [Place.allows, Bool.and_eq_true, List.any_eq_true, List.all_eq_true] at h
  obtain ⟨⟨location, hshared, hin⟩, habsent⟩ := h
  have hnone {key : String} (hkey : key ∈ ["schema", "content", "$ref"]) :
      (Node.map entries).get? key = none := Node.get?_eq_none_of_not_has (habsent key hkey)
  refine ⟨location, hshared, ?_, hnone (by decide), hnone (by decide)⟩
  unfold Node.isText at hin
  split at hin
  · rename_i text heq
    rw [heq, beq_iff_eq.mp hin]
  · cases hin

theorem locationOf?_shared (dialect : Dialect) {location : Location}
    (h : location ∈ sharedLocations) :
    Parameter.locationOf? dialect (.str location.name) = .ok (some location) := by
  have hall : ∀ dialect ∈ [Dialect.v2, Dialect.v3], ∀ location ∈ sharedLocations,
      (Location.ofDialect dialect).find? (·.name == location.name) = some location := by decide
  rw [Parameter.locationOf?, hall dialect (by cases dialect <;> decide) location h]

end

/-- What the operations of a description are built with, before and after it is rewritten. -/
def shopBefore (root : Entries) (preferences : Preferences) : Workshop := ⟨before root, preferences⟩

def shopAfter (root : Entries) (preferences : Preferences) : Workshop := ⟨after root, preferences⟩

section
variable {root : Entries} {preferences : Preferences} {excused : Failure → Prop}

theorem get?_of_ne_map {node : Node} (h : ∀ entries, node ≠ .map entries) (key : String) :
    node.get? key = none := by
  cases node with
  | map entries => exact absurd rfl (h entries)
  | _ => rfl

theorem migrate_ne_map {node : Node} (h : ∀ entries, node ≠ .map entries) (entries : Entries) :
    migrate .parameter node ≠ .map entries := by
  cases node with
  | map entries => exact absurd rfl (h entries)
  | list items => rw [migrate]; exact Node.noConfusion
  | scalar s => rw [migrate_scalar (by decide)]; exact Node.noConfusion
  | _ => exact Node.noConfusion

theorem get_eq_of_get?_eq {key : String} {node node' : Node} (h : node.get? key = node'.get? key) :
    node.get key = node'.get key := by
  rw [Node.get, h, Node.get]

/-- The parameter that is made of a rewritten one is the same, since its model knows whether it may
be null. -/
theorem ofModel_migrate {entries : Entries} {model : Model} (location : Location)
    (wireName : String)
    (hnull : allowsNull (Parameter.inlineSchema (.map entries)) = true → model.isNullable = true) :
    Parameter.ofModel (migrate .parameter (.map entries)) location wireName model =
      Parameter.ofModel (.map entries) location wireName model := by
  have hown {key : String} (hkey : key ∈ Parameter.ownKeywords) (hschema : key ≠ "schema") :
      (migrate .parameter (.map entries)).get key = (Node.map entries).get key :=
    get_eq_of_get?_eq (get?_parameter hkey hschema)
  -- The keyword moves into the schema, where the model takes it from.
  have hgone : (migrate .parameter (.map entries)).get "x-nullable" = .null := by
    rw [Node.get, get?_parameter_eq_none (by decide)]
    rfl
  have hkept : (Parameter.inlineSchema (.map entries)).get "x-nullable" =
      (Node.map entries).get "x-nullable" :=
    get_eq_of_get?_eq (get?_filter _ _ _ fun _ => rfl)
  have hnullable : (model.isNullable || ((Node.map entries).get "x-nullable").isTrue) =
      (model.isNullable || Node.null.isTrue) := by
    by_cases htrue : ((Node.map entries).get "x-nullable").isTrue = true
    · have hallows : allowsNull (Parameter.inlineSchema (.map entries)) = true := by
        rw [allowsNull, hkept, htrue, Bool.or_true, Bool.true_or]
      rw [hnull hallows, Bool.true_or, Bool.true_or]
    · rw [Bool.eq_false_iff.mpr htrue]
      rfl
  rw [Parameter.ofModel, hown (by decide) (by decide), hown (by decide) (by decide),
    hown (by decide) (by decide), hgone, ← hnullable, Parameter.ofModel]

namespace PlainParameter

variable {entries : Entries} {location : Location}

theorem locationOf?_before (h : PlainParameter entries location) :
    Parameter.locationOf? .v2 ((Node.map entries).get "in") = .ok (some location) := by
  rw [h.located, locationOf?_shared _ h.shared]

theorem locationOf?_after (h : PlainParameter entries location) :
    Parameter.locationOf? .v3 ((migrate .parameter (.map entries)).get "in") =
      .ok (some location) := by
  rw [get_eq_of_get?_eq (get?_parameter (by decide) (by decide)), h.located,
    locationOf?_shared _ h.shared]

theorem schemaOf_before (h : PlainParameter entries location) :
    Parameter.schemaOf (shopBefore root preferences) (.map entries) location =
      .ok (Parameter.inlineSchema (.map entries)) := by
  have hall : ∀ location ∈ sharedLocations, (location != Location.body) = true := by decide
  have hbody : (location != .body) = true := hall location h.shared
  rw [Parameter.schemaOf, Node.get, h.noSchema]
  show (if (true && location != .body) = true then _ else _) = _
  rw [hbody, if_pos (by decide)]

theorem schemaOf_after (h : PlainParameter entries location) :
    Parameter.schemaOf (shopAfter root preferences) (migrate .parameter (.map entries)) location =
      .ok (migrate .schema (Parameter.inlineSchema (.map entries))) := by
  rw [Parameter.schemaOf, Node.get, get?_schema_parameter h.noSchema, Option.getD_some,
    inlineSchema_eq, migrate_map rfl]

theorem sameParameter (hplain : PlainParameter entries location)
    (h : Regular .parameter (.map entries)) :
    SameParameter (shopBefore root preferences) (shopAfter root preferences) Migrated excused
      (.map entries) (migrate .parameter (.map entries)) where
  isMap := (isMap_migrate _ _).symm
  location := hplain.locationOf?_before.trans hplain.locationOf?_after.symm
  wireName _ := by
    rw [Parameter.wireNameOf, Parameter.wireNameOf,
      get_eq_of_get?_eq (get?_parameter (by decide) (by decide))]
  schema hlocation := by
    cases hplain.locationOf?_before.symm.trans hlocation
    rw [hplain.schemaOf_before, hplain.schemaOf_after]
    exact ⟨regular_inlineSchema h, rfl⟩
  ofModel wireName hlocation hschema hmodel := by
    cases hplain.locationOf?_before.symm.trans hlocation
    cases hplain.schemaOf_before.symm.trans hschema
    exact (ofModel_migrate _ wireName (isNullable_of_build hmodel)).symm

end PlainParameter

/-- Values that are no maps declare no parameters. -/
theorem sameParameter_of_ne_map {node : Node} (h : ∀ entries, node ≠ .map entries) :
    SameParameter (shopBefore root preferences) (shopAfter root preferences) Migrated excused
      node (migrate .parameter node) := by
  have hget {node : Node} (h : ∀ entries, node ≠ .map entries) : node.get "in" = .null := by
    rw [Node.get, get?_of_ne_map h]
    rfl
  have hnowhere {location : Location} : Parameter.locationOf? .v2 (node.get "in") ≠
      .ok (some location) := by
    rw [hget h]
    intro hfound
    cases hfound
  refine ⟨(isMap_migrate _ _).symm, ?_, fun hin => absurd hin hnowhere,
    fun hin => absurd hin hnowhere, fun _ hin => absurd hin hnowhere⟩
  rw [hget h, hget (migrate_ne_map h)]
  rfl

/-- A parameter is written out, so it is its own target, and so is the rewritten one. -/
theorem parameterTarget_inStep {node : Node} (h : Regular .parameter node) :
    InStepUnless excused
      (SameParameter (shopBefore root preferences) (shopAfter root preferences) Migrated excused)
      (Reference.target (.map root) node)
      (Reference.target (.map (moved root)) (migrate .parameter node)) := by
  by_cases hmap : ∃ entries, node = .map entries
  · obtain ⟨entries, rfl⟩ := hmap
    obtain ⟨location, hplain⟩ := exists_plainParameter h.allowed
    rw [Reference.target_of_get?_eq_none hplain.noReference,
      Reference.target_of_get?_eq_none (get?_parameter_eq_none (by decide))]
    exact hplain.sameParameter h
  · have hother (entries : Entries) : node ≠ .map entries := fun heq => hmap ⟨entries, heq⟩
    rw [Reference.target_of_get?_eq_none (get?_of_ne_map hother _),
      Reference.target_of_get?_eq_none (get?_of_ne_map (migrate_ne_map hother) _)]
    exact sameParameter_of_ne_map hother

/-! ### Responses -/

theorem migrate_response (entries : Entries) : migrate .response (.map entries) =
    .map (arrangeResponse (migrateEntries .response entries)) := by
  rw [migrate]
  rfl

theorem get?_arrangeResponse {key : String} (h : key ∉ ["schema", "content"]) (entries : Entries) :
    Entries.get? key (arrangeResponse entries) = Entries.get? key entries := by
  have hschema : key ≠ "schema" := fun heq => h (heq ▸ List.mem_cons_self)
  have hkept (value : Node) : (!hasKey ["schema"] (.str key, value)) = true := by
    simpa [hasKey] using hschema
  have hcontent : Scalar.str "content" ≠ .str key := by
    rintro ⟨⟩
    exact h (by decide)
  rw [arrangeResponse, get?_append, get?_filter _ _ _ hkept]
  cases Entries.get? "schema" entries with
  | none => exact Option.or_none
  | some schema =>
    rw [Entries.get?, if_neg hcontent]
    exact Option.or_none

/-- What a response says besides its schema stays. -/
theorem get?_response {key : String} (h : key ∉ ["schema", "content"]) (node : Node) :
    (migrate .response node).get? key = node.get? key := by
  cases node with
  | map entries =>
    have hschema : ¬ key = "schema" := fun heq => h (heq ▸ List.mem_cons_self)
    have hchild : Place.child .response (.str key) = .other := if_neg hschema
    rw [migrate_response, Node.get?, get?_arrangeResponse h, get?_migrateEntries, hchild,
      funext (migrate_of_isInert .other rfl)]
    exact Option.map_id'
  | list items => rw [migrate]; rfl
  | scalar s => rw [migrate_scalar (by decide)]
  | _ => rfl

theorem get?_content {node : Node} (h : node.get? "content" = none) :
    (migrate .response node).get? "content" = ((node.get? "schema").map (migrate .schema)).map
      fun schema => single "application/json" (single "schema" schema) := by
  cases node with
  | map entries =>
    have hcontent : Entries.get? "content" (migrateEntries .response entries) = none := by
      rw [get?_migrateEntries, show Entries.get? "content" entries = none from h, Option.map_none]
    have hschema : Entries.get? "schema" (migrateEntries .response entries) =
        ((Node.map entries).get? "schema").map (migrate .schema) := get?_migrateEntries _ _ _
    rw [migrate_response, Node.get?, arrangeResponse, get?_append, get?_filter _ _ _ fun _ => rfl,
      hcontent, hschema]
    cases (Node.map entries).get? "schema" <;> rfl
  | list items => rw [migrate]; rfl
  | scalar s => rw [migrate_scalar (by decide)]; rfl
  | _ => rfl

/-- If there is one media type to choose, it is chosen, whatever is preferred. -/
theorem or_head?_toList (types : List String) (choice : Option (String × Node)) :
    (types.findSome? fun preferred => choice.toList.find? fun (mediaType, _) =>
      Content.baseType mediaType == preferred).or choice.toList.head? = choice := by
  cases choice with
  | none =>
    have hnone : (types.findSome? fun preferred => (none : Option (String × Node)).toList.find?
        fun (mediaType, _) => Content.baseType mediaType == preferred) = none := by
      rw [List.findSome?_eq_none_iff]
      exact fun _ _ => rfl
    rw [hnone]
    rfl
  | some choice =>
    cases hfound : types.findSome? fun preferred => (some choice).toList.find?
        fun (mediaType, _) => Content.baseType mediaType == preferred with
    | none => rfl
    | some found =>
      obtain ⟨preferred, _, hfind⟩ := List.exists_of_findSome?_eq_some hfound
      rw [List.mem_singleton.mp (List.mem_of_find?_eq_some hfind)]
      rfl

/-- A content map with one media type holds its schema, and one that is missing holds none. -/
theorem schema_single (preferences : Preferences) (schema : Option Node) :
    Content.schema preferences ((schema.map fun schema =>
      single "application/json" (single "schema" schema)).getD .null) =
      .ok (schema.filter Node.isMap) := by
  have hchoices : Content.withSchema ((schema.map fun schema =>
      single "application/json" (single "schema" schema)).getD .null) =
      .ok ((schema.filter Node.isMap).map fun schema => ("application/json", schema)).toList := by
    cases schema with
    | none => rfl
    | some schema =>
      have hchoice : Content.choice? (.str "application/json", single "schema" schema) =
          .ok (((some schema).filter Node.isMap).map ("application/json", ·)) := by
        have hfound : (single "schema" schema).get? "schema" = some schema := rfl
        rw [Content.choice?, hfound]
        cases (some schema).filter Node.isMap <;> rfl
      rw [Option.map_some, Option.getD_some, single, Content.withSchema, List.mapM_cons, hchoice]
      cases (some schema).filter Node.isMap <;> rfl
  rw [Content.schema, Content.select, hchoices]
  show Except.ok (Option.map Prod.snd (Option.or _ _)) = _
  rw [or_head?_toList, Option.map_map]
  exact congrArg Except.ok Option.map_id'

theorem schemaOf_inStep {node : Node} (h : node.get? "content" = none) :
    InStep (Option.map (migrate .schema)) (Response.schemaOf (shopBefore root preferences) node)
      (Response.schemaOf (shopAfter root preferences) (migrate .response node)) := by
  have hold : Response.schemaOf (shopBefore root preferences) node =
      .ok ((node.get? "schema").filter Node.isMap) := rfl
  have hnew : Response.schemaOf (shopAfter root preferences) (migrate .response node) =
      .ok (((node.get? "schema").map (migrate .schema)).filter Node.isMap) := by
    rw [← schema_single preferences]
    show Content.schema preferences ((migrate .response node).get "content") = _
    rw [Node.get, get?_content h]
  rw [hold, hnew]
  refine InStep.of_map (congrArg Except.ok ?_)
  cases node.get? "schema" with
  | none => rfl
  | some schema =>
    rw [Option.map_some, Option.filter_some, Option.filter_some, isMap_migrate]
    cases schema.isMap <;> rfl

/-- A schema that refers to a definition is no shared response. -/
theorem schemaTarget_of_names {shop : Workshop} {schema : Node} {ref : String}
    {dialect : Dialect} {segment : List Char} (href : schema.get "$ref" = .str ref)
    (h : Reference.Names dialect ref segment) : Response.schemaTarget shop schema = .ok schema := by
  have hshared : (Response.sharedPrefixes.any fun start => start.toList.isPrefixOf ref.toList) =
      false := by
    rw [h.text]
    cases dialect <;> rfl
  rw [Response.schemaTarget, href]
  dsimp only
  rw [hshared, if_neg (by decide)]

theorem schemaTarget_of_kind_ne {shop : Workshop} {schema : Node}
    (h : (schema.get "$ref").kind ≠ .str) : Response.schemaTarget shop schema = .ok schema := by
  unfold Response.schemaTarget
  split
  · rename_i ref heq
    rw [heq] at h
    exact absurd rfl h
  · rfl

theorem schemaTarget_eq (shop shop' : Workshop) {schema : Node} (h : Regular .schema schema) :
    Response.schemaTarget shop schema = .ok schema ∧
      Response.schemaTarget shop' (migrate .schema schema) = .ok (migrate .schema schema) := by
  have hget : (migrate .schema schema).get "$ref" = migrate .reference (schema.get "$ref") :=
    get_migrate rfl "$ref" schema
  have hregular : Regular .reference (schema.get "$ref") := h.get "$ref"
  rcases isLocal_or_kind_ne hregular with ⟨text, htext, hlocal⟩ | hkind
  · obtain ⟨segment, hold, hnew⟩ := Reference.exists_names_of_isLocal hlocal
    rw [htext, migrate_reference] at hget
    exact ⟨schemaTarget_of_names htext hold, schemaTarget_of_names hget hnew⟩
  · exact ⟨schemaTarget_of_kind_ne hkind, schemaTarget_of_kind_ne (by rwa [hget, kind_migrate])⟩

theorem ofHeaders_migrate (node : Node) (code : Int) :
    Response.ofHeaders (migrate .response node) code = Response.ofHeaders node code := by
  rw [Response.ofHeaders, get_eq_of_get?_eq (get?_response (by decide) node),
    get_eq_of_get?_eq (get?_response (by decide) node), Response.ofHeaders]

theorem sameResponse_migrate {node : Node} (h : Regular .response node)
    (hcontent : node.get? "content" = none) :
    SameResponse (shopBefore root preferences) (shopAfter root preferences) Migrated excused node
      (migrate .response node) where
  schema := .of_inStep (schemaOf_inStep hcontent) fun schema hschema => by
    have hfilter : (node.get? "schema").filter Node.isMap = schema := Except.ok.inj hschema
    cases schema with
    | none => exact .none
    | some schema => exact .some ⟨h.get? (Option.filter_eq_some_iff.mp hfilter).1, rfl⟩
  description := by rw [get_eq_of_get?_eq (get?_response (by decide) node)]
  ofHeaders code := (ofHeaders_migrate node code).symm

/-- A response is written out, so it is its own target, and so is the rewritten one. -/
theorem responseTarget_inStep {node : Node} (h : Regular .response node) :
    InStepUnless excused
      (SameResponse (shopBefore root preferences) (shopAfter root preferences) Migrated excused)
      (Reference.target (.map root) node)
      (Reference.target (.map (moved root)) (migrate .response node)) := by
  have habsent := List.all_eq_true.mp h.allowed
  have hnone {key : String} (hkey : key ∈ ["content", "$ref"]) : node.get? key = none :=
    Node.get?_eq_none_of_not_has (habsent key hkey)
  have href : (migrate .response node).get? "$ref" = none := by
    rw [get?_response (by decide), hnone (by decide)]
  rw [Reference.target_of_get?_eq_none (hnone (by decide)), Reference.target_of_get?_eq_none href]
  exact sameResponse_migrate h (hnone (by decide))

theorem sameMember_migrate {member : Scalar × Node}
    (h : Regular (Place.child .responses member.1) member.2) :
    SameMember (shopBefore root preferences) (shopAfter root preferences) Migrated excused member
      (member.1, migrate (Place.child .responses member.1) member.2) where
  code := rfl
  response hcode := by
    have hchild : Place.child .responses member.1 = .response := by
      have hnames : namesResponse member.1 = true := by
        rw [namesResponse, hcode, Bool.or_true]
      exact if_pos hnames
    rw [hchild] at h ⊢
    exact responseTarget_inStep h

/-! ### Operations -/

/-- An operation to be built, after its description is rewritten. -/
def migrateEntry (entry : OperationEntry) : OperationEntry :=
  { entry with
    node := migrate .operation entry.node
    pathParameters := entry.pathParameters.map (migrate .parameter) }

/-- What an operation is built from is as the rewriting asks. -/
structure RegularEntry (entry : OperationEntry) : Prop where
  node : Regular .operation entry.node
  pathParameters : ∀ node ∈ entry.pathParameters, Regular .parameter node

section
variable {entry : OperationEntry}

theorem get_operation {key : String} (h : Place.child .operation (.str key) = .other)
    (node : Node) : (migrate .operation node).get key = node.get key := by
  rw [get_migrate rfl, h]
  exact migrate_of_isInert .other rfl _

theorem parameterNodes_migrate (entry : OperationEntry) :
    (migrateEntry entry).parameterNodes = entry.parameterNodes.map (migrate .parameter) := by
  rw [OperationEntry.parameterNodes, OperationEntry.parameterNodes, List.map_append]
  show entry.pathParameters.map _ ++
    (((migrate .operation entry.node).get "parameters").items?.getD []) = _
  rw [get_migrate rfl, getD_items?_migrate]
  rfl

theorem RegularEntry.regular_of_mem_parameterNodes (h : RegularEntry entry) {node : Node}
    (hnode : node ∈ entry.parameterNodes) : Regular .parameter node := by
  rcases List.mem_append.mp hnode with hnode | hnode
  · exact h.pathParameters node hnode
  · exact (h.node.get "parameters").of_mem_items? hnode

theorem assemble_migrate (path : String) (declared : List Parameter) (body : Option Parameter)
    (responses : List Response) :
    (migrateEntry entry).assemble (shopAfter root preferences) path declared body responses =
      entry.assemble (shopBefore root preferences) path declared body responses := by
  have hname : OperationEntry.nameFor (migrateEntry entry).node (migrateEntry entry).method =
      OperationEntry.nameFor entry.node entry.method := by
    show OperationEntry.nameFor (migrate .operation entry.node) entry.method = _
    rw [OperationEntry.nameFor, get_operation rfl, OperationEntry.nameFor]
  rw [OperationEntry.assemble, hname]
  show Operation.mk _ _ ((migrate .operation entry.node).get "summary").text?
    ((migrate .operation entry.node).get "description").text?
    ((migrate .operation entry.node).get "deprecated").isTrue _ _ _ _ _ _ _ _ = _
  rw [get_operation rfl, get_operation rfl, get_operation rfl]
  rfl

theorem body?_eq_none (root : Entries) (preferences : Preferences) (h : RegularEntry entry) :
    entry.body? (shopBefore root preferences) = .ok none ∧
      (migrateEntry entry).body? (shopAfter root preferences) = .ok none := by
  have habsent : entry.node.get? "requestBody" = none :=
    Node.get?_eq_none_of_not_has h.node.allowed
  have habsent' : (migrateEntry entry).node.get? "requestBody" = none := by
    show (migrate .operation entry.node).get? "requestBody" = none
    rw [get?_migrate rfl, habsent, Option.map_none]
  refine ⟨rfl, ?_⟩
  have hbody : (shopAfter root preferences).dialect.hasRequestBody = true := rfl
  rw [OperationEntry.body?, if_pos hbody, habsent']

/-- Operations to be built, of which one is that of the rewritten description. -/
structure MigratedEntry (entry entry' : OperationEntry) : Prop where
  regular : RegularEntry entry
  eq : entry' = migrateEntry entry

/-- The operations of a description and those of the rewritten one correspond. -/
theorem corresponds_operations (hm : Migratable (.map root)) :
    OperationCorrespondence (shopBefore root preferences) (shopAfter root preferences) Migrated
      (fun _ => False) MigratedEntry where
  models := (corresponds_migrate hm).sameModels
  schemaTarget {schema schema'} h := by
    have hboth := schemaTarget_eq (shopBefore root preferences) (shopAfter root preferences)
      h.regular
    rw [h.eq, hboth.1, hboth.2]
    exact ⟨h.regular, rfl⟩
  preferences := rfl
  path h := by rw [h.eq, migrateEntry]
  parameters {entry entry'} h := by
    rw [h.eq, parameterNodes_migrate, List.forall₂_map_right_iff, List.forall₂_same]
    exact fun node hnode => parameterTarget_inStep (h.regular.regular_of_mem_parameterNodes hnode)
  body {entry entry'} h := by
    have hnone := body?_eq_none root preferences h.regular
    rw [h.eq, hnone.1, hnone.2]
    exact .refl _
  responses {entry entry'} h := by
    have hresponses : (migrateEntry entry).node.get "responses" =
        migrate .responses (entry.node.get "responses") := get_migrate rfl _ _
    rw [h.eq, hresponses, getD_entries?_migrate rfl, List.forall₂_map_right_iff, List.forall₂_same]
    exact fun member hmember =>
      sameMember_migrate ((h.regular.node.get "responses").of_mem_entries? hmember)
  assemble h path declared body responses := by rw [h.eq, assemble_migrate]

/-! ### All operations -/

theorem get_method {method : String} (h : method ∈ requestMethods) (item : Node) :
    (migrate .pathItem item).get method = migrate .operation (item.get method) := by
  have hall : ∀ method ∈ requestMethods, Place.child .pathItem (.str method) = .operation := by
    decide
  rw [get_migrate rfl, hall method h]

theorem entriesOfPath_migrate (path : Scalar) (item : Node) :
    entriesOfPath preferences path (migrate .pathItem item) =
      (entriesOfPath preferences path item).map migrateEntry := by
  have hparameters : ((migrate .pathItem item).get "parameters").items?.getD [] =
      ((item.get "parameters").items?.getD []).map (migrate .parameter) := by
    rw [get_migrate rfl, getD_items?_migrate]
    rfl
  have htags (node : Node) : tagsOf preferences (migrate .operation node) =
      tagsOf preferences node := by
    rw [tagsOf, get_operation rfl, tagsOf]
  unfold entriesOfPath
  rw [List.map_flatMap]
  refine List.flatMap_congr fun method hmethod => ?_
  dsimp only
  rw [get_method hmethod, isMap_migrate, htags, hparameters]
  by_cases hmap : (item.get method).isMap = true
  · rw [if_pos hmap, if_pos hmap, List.map_map]
    rfl
  · rw [if_neg hmap, if_neg hmap, List.map_nil]

theorem operationEntries_migrate (root : Entries) :
    operationEntries preferences (moved root) =
      (operationEntries preferences root).map migrateEntry := by
  have hpaths : Dialect.member "paths" (moved root) =
      migrate .paths (Dialect.member "paths" root) := by
    rw [Dialect.member, get?_moved (by decide), Dialect.member]
    cases Entries.get? "paths" root with
    | none => exact (migrate_null _).symm
    | some paths => rfl
  rw [operationEntries, hpaths, operationEntries]
  cases Dialect.member "paths" root with
  | map paths =>
    rw [migrate_map rfl, migrateEntries_eq]
    dsimp only
    rw [List.flatMap_map, List.map_flatMap]
    exact List.flatMap_congr fun e _ => entriesOfPath_migrate e.1 e.2
  | list items => rw [migrate]; rfl
  | scalar s => rw [migrate_scalar (by decide)]; rfl
  | _ => rfl

theorem regular_of_mem_entriesOfPath {path : Scalar} {item : Node} (h : Regular .pathItem item)
    {entry : OperationEntry} (hentry : entry ∈ entriesOfPath preferences path item) :
    RegularEntry entry := by
  obtain ⟨method, hmethod, hentry⟩ := List.mem_flatMap.mp hentry
  dsimp only at hentry
  split at hentry
  · obtain ⟨tag, _, rfl⟩ := List.mem_map.mp hentry
    have hall : ∀ method ∈ requestMethods, Place.child .pathItem (.str method) = .operation := by
      decide
    have hnode := h.get method
    rw [hall method hmethod] at hnode
    exact ⟨hnode, fun node hnode => (h.get "parameters").of_mem_items? hnode⟩
  · cases hentry

theorem regular_of_mem_operationEntries (h : Regular .document (.map root))
    {entry : OperationEntry} (hentry : entry ∈ operationEntries preferences root) :
    RegularEntry entry := by
  have hpaths : Regular .paths (Dialect.member "paths" root) := h.get "paths"
  unfold operationEntries at hentry
  split at hentry
  · rename_i paths heq
    rw [heq] at hpaths
    obtain ⟨e, he, hentry⟩ := List.mem_flatMap.mp hentry
    exact regular_of_mem_entriesOfPath ((regular_map_iff.mp hpaths).2 e he) hentry
  · cases hentry

theorem collect_inStep (hm : Migratable (.map root)) (services : List Service)
    {entries : List OperationEntry} (h : ∀ entry ∈ entries, RegularEntry entry) :
    InStep id (collect (shopBefore root preferences) services entries).outcome
      (collect (shopAfter root preferences) services (entries.map migrateEntry)).outcome := by
  have hentries : List.Forall₂ MigratedEntry entries (entries.map migrateEntry) :=
    List.forall₂_map_right_iff.mpr (List.forall₂_same.mpr fun entry hentry => ⟨h entry hentry, rfl⟩)
  exact ((corresponds_operations hm).collect_inStep hentries services).inStep

end

end

end OpenApi.Migration
