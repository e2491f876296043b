import OpenApi.Proofs.CorrespondingOperations
import OpenApi.Proofs.OperationFailures
import OpenApi.Proofs.QuotedSchemas

/-
Operations of a description whose keys are quoted.

Status codes, media types and the names of headers are read off keys, and each of them is written
out first, so that a number and the text of its digits are the same to it.  What an operation is
built from is therefore the same but for the keys in it (`OperationEntry.quoted`), and operations
correspond, unless a reference meets a number (`OperationEntry.corresponds_quoted`).
-/
namespace OpenApi

open Node

/-! ### Media types -/

namespace Content

/-- A media type with the keys in its schema quoted. -/
def quoteChoice (choice : String × Node) : String × Node := (choice.1, choice.2.quoteKeys)

theorem choice?_quoteEntry {entries : Entries} (h : (Node.map entries).Quotable)
    {e : Scalar × Node} (he : e ∈ entries) :
    choice? (quoteEntry e) = (choice? e).map (Option.map quoteChoice) := by
  have hschema : (e.2.quoteKeys.get? "schema").filter isMap =
      ((e.2.get? "schema").filter isMap).map quoteKeys := by
    rw [get?_quoteKeys (by decide), Schema.filter_isMap_quoteKeys]
  rw [choice?, quoteEntry, hschema, h.written_key he, choice?]
  cases (e.2.get? "schema").filter isMap with
  | none => rfl
  | some schema => cases e.1.written <;> rfl

theorem withSchema_quoteKeys {content : Node} (h : content.Quotable) :
    withSchema content.quoteKeys = (withSchema content).map (List.map quoteChoice) := by
  cases content with
  | map entries =>
    have hchoices : (entries.map quoteEntry).mapM choice? =
        (entries.mapM choice?).map (List.map (Option.map quoteChoice)) :=
      Except.mapM_map fun e he => choice?_quoteEntry h he
    rw [quoteKeys_map, withSchema, hchoices, withSchema]
    cases entries.mapM choice? with
    | error failure => rfl
    | ok choices =>
      refine congrArg Except.ok ?_
      show (choices.map (Option.map quoteChoice)).filterMap id =
        (choices.filterMap id).map quoteChoice
      rw [List.filterMap_map, List.map_filterMap]
      rfl
  | _ => rfl

/-- The preferences choose by the names of media types. -/
theorem select_quoteKeys (preferences : Preferences) {content : Node} (h : content.Quotable) :
    select preferences content.quoteKeys =
      (select preferences content).map (Option.map quoteChoice) := by
  rw [select, withSchema_quoteKeys h, select]
  cases withSchema content with
  | error failure => rfl
  | ok choices =>
    refine congrArg Except.ok ?_
    have hfind (preferred : String) :
        (choices.map quoteChoice).find? (fun c => baseType c.1 == preferred) =
          (choices.find? fun c => baseType c.1 == preferred).map quoteChoice := by
      rw [List.find?_map]
      rfl
    rw [List.head?_map, funext hfind, Option.map_or, List.map_findSome?]
    rfl

theorem schema_quoteKeys (preferences : Preferences) {content : Node} (h : content.Quotable) :
    schema preferences content.quoteKeys =
      (schema preferences content).map (Option.map quoteKeys) := by
  rw [schema, select_quoteKeys preferences h, schema]
  cases select preferences content with
  | error failure => rfl
  | ok choice => cases choice <;> rfl

end Content

/-- What operations are built with, once the keys in the description are quoted. -/
def Workshop.quoted (shop : Workshop) : Workshop := { shop with toScope := shop.toScope.quoted }

section
variable {shop : Workshop} {node node' : Node} {excused : Failure → Prop}

/-! ### Parameters -/

namespace Parameter

theorem isKeyword_quoteEntry (e : Scalar × Node) : isKeyword (quoteEntry e) = isKeyword e := by
  obtain ⟨k, value⟩ := e
  cases hnatural : k.isNatural with
  | false => rw [quoteEntry, Scalar.quoted_of_not_isNatural hnatural, isKeyword, isKeyword]
  | true =>
    -- No member that is the parameter's own is named by a numeral.
    have hnumeral : ∀ key ∈ ownKeywords, isNumeral key = false := by decide
    obtain ⟨n, rfl, hn, hquoted⟩ := Scalar.quoted_of_isNatural hnatural
    have hother : Number.intText n ∉ ownKeywords := fun hmem => by
      have hfalse := hnumeral _ hmem
      rw [Scalar.isNumeral_intText hn] at hfalse
      cases hfalse
    rw [quoteEntry, hquoted]
    simpa [isKeyword] using hother

theorem inlineSchema_quoteKeys (node : Node) :
    inlineSchema node.quoteKeys = (inlineSchema node).quoteKeys := by
  cases node with
  | map entries =>
    rw [quoteKeys_map, inlineSchema_eq, inlineSchema_eq, quoteKeys_map, List.filter_map]
    exact congrArg (fun p => Node.map ((entries.filter p).map quoteEntry))
      (funext isKeyword_quoteEntry)
  | _ => rfl

theorem schemaOf_eq (shop : Workshop) (node : Node) (location : Location) :
    schemaOf shop node location =
      match (node.get "schema").entries? with
      | some entries => .ok (.map entries)
      | none =>
        if !shop.dialect.hasRequestBody && location != .body then .ok (inlineSchema node)
        else (Content.schema shop.preferences (node.get "content")).map (·.getD (.map [])) := by
  unfold schemaOf
  cases node.get "schema" <;> rfl

theorem schemaOf_quoteKeys (h : node.Quotable) (location : Location) :
    schemaOf shop.quoted node.quoteKeys location = (schemaOf shop node location).map quoteKeys := by
  have hshop : shop.quoted.dialect = shop.dialect ∧ shop.quoted.preferences = shop.preferences :=
    ⟨rfl, rfl⟩
  rw [schemaOf_eq, schemaOf_eq, get_quoteKeys (by decide), entries?_quoteKeys, hshop.1, hshop.2]
  cases (node.get "schema").entries? with
  | some entries => exact congrArg Except.ok (quoteKeys_map entries).symm
  | none =>
    dsimp only [Option.map_none]
    by_cases hinline : (!shop.dialect.hasRequestBody && location != .body) = true
    · rw [if_pos hinline, if_pos hinline, inlineSchema_quoteKeys]
      rfl
    · rw [if_neg hinline, if_neg hinline, get_quoteKeys (by decide),
        Content.schema_quoteKeys _ (inherited_quotable.get h "content")]
      cases Content.schema shop.preferences (node.get "content") with
      | error failure => rfl
      | ok schema => cases schema <;> rfl

theorem locationOf?_quoteKeys (dialect : Dialect) (node : Node) :
    locationOf? dialect node.quoteKeys = locationOf? dialect node := by
  cases node <;> rfl

theorem exists_text_of_locationOf? {dialect : Dialect} {location : Location}
    (h : locationOf? dialect node = .ok (some location)) : ∃ name, node = .str name := by
  unfold locationOf? at h
  split at h
  · exact ⟨_, rfl⟩
  · cases h
  · cases h
  · cases h

/-- A parameter with a location is named by a value that has no numbers for keys. -/
theorem wireNameOf_quoteKeys {dialect : Dialect} {location : Location} (h : node.Quotable)
    (hlocation : locationOf? dialect (node.get "in") = .ok (some location)) :
    wireNameOf node.quoteKeys = wireNameOf node := by
  obtain ⟨name, hname⟩ := exists_text_of_locationOf? hlocation
  have hsame : (node.get "name").quoteKeys = node.get "name" := by
    cases node with
    | map entries =>
      have hnamed := h.own.named
      have hget : Entries.get? "in" entries = some (.str name) :=
        get?_of_get hname fun hnull => by cases hnull
      rw [Entries.namesText, hget] at hnamed
      exact quoteKeys_of_isUnnumbered hnamed
    | _ => rfl
  rw [wireNameOf, get_quoteKeys (by decide), hsame, wireNameOf]

theorem ofModel_quoteKeys (node : Node) (location : Location) (wireName : String)
    (model : Model) :
    ofModel node.quoteKeys location wireName model = ofModel node location wireName model := by
  simp (disch := decide) [ofModel, get_quoteKeys]

theorem sameParameter_quoteKeys (h : Quoted node node') :
    SameParameter shop shop.quoted Quoted excused node node' := by
  obtain ⟨hquotable, rfl⟩ := h
  exact
    { isMap := (isMap_quoteKeys node).symm
      location := by
        rw [get_quoteKeys (by decide), locationOf?_quoteKeys]
        rfl
      wireName := fun hlocation => (wireNameOf_quoteKeys hquotable hlocation).symm
      schema := fun _ => .of_map (schemaOf_quoteKeys hquotable _) fun _ hschema =>
        ⟨inherited_quotable.parameterSchema hquotable hschema, rfl⟩
      ofModel := fun wireName _ _ _ => (ofModel_quoteKeys node _ wireName _).symm }

theorem ofBody_quoteKeys (node : Node) (mediaType : Option String) (model : Model) :
    ofBody node.quoteKeys mediaType model = ofBody node mediaType model := by
  simp (disch := decide) [ofBody, get_quoteKeys]

theorem sameBody_quoteKeys (h : Quoted node node') :
    SameBody shop shop.quoted Quoted excused node node' := by
  obtain ⟨hquotable, rfl⟩ := h
  refine ⟨(isMap_quoteKeys node).symm, ?_, fun _ _ => (ofBody_quoteKeys node _ _).symm⟩
  have hcontent := inherited_quotable.get hquotable "content"
  rw [get_quoteKeys (by decide)]
  refine .of_map (Content.select_quoteKeys shop.preferences hcontent) fun choice hchoice => ?_
  cases choice with
  | none => exact .none
  | some chosen => exact .some ⟨rfl, inherited_quotable.select hcontent hchoice, rfl⟩

end Parameter

/-! ### Responses -/

namespace Response

/-- A status code is read from the digits of a number as from the number. -/
theorem codeOf?_quoted {key : Scalar} (h : key.isShort = true) :
    codeOf? key.quoted = codeOf? key := by
  cases hnatural : key.isNatural with
  | false => rw [Scalar.quoted_of_not_isNatural hnatural]
  | true =>
    obtain ⟨n, rfl, hn, hquoted⟩ := Scalar.quoted_of_isNatural hnatural
    have hshort := Scalar.not_isLong_of_isShort h hn
    obtain ⟨m, rfl⟩ := Int.eq_ofNat_of_zero_le hn
    have hdigit : ∀ c ∈ Nat.toDigits 10 m, c.isDigit = true := Numeral.isDigit_of_mem_toDigits
    have hlike : ∀ c ∈ Nat.toDigits 10 m, Text.isDigitLike c = true := fun c hc =>
      Text.isDigitLike_of_isDigit (hdigit c hc)
    have htrim : Text.trim (Nat.toDigits 10 m) = Nat.toDigits 10 m :=
      Text.trimBy_eq_self fun c hc => Text.isBlank_of_isDigitLike (hlike c hc)
    have hword : Nat.toDigits 10 m ≠ "default".toList := fun heq =>
      absurd (hdigit 'd' (heq ▸ by decide)) (by decide)
    have hnumeral : (!(Nat.toDigits 10 m).isEmpty && (Nat.toDigits 10 m).all Text.isDigitLike) =
        true := by
      rw [List.all_eq_true.mpr hlike, Bool.and_true, Bool.not_eq_true', List.isEmpty_eq_false_iff]
      exact Nat.toDigits_ne_nil
    rw [hquoted, codeOf?_str, Scalar.toList_intText hn, Int.natAbs_natCast, htrim, if_neg hword,
      if_pos hnumeral, Numeral.signed?_toDigits hshort]
    rfl

theorem schemaTarget_inStep (hdocument : shop.document.Quotable) (h : node.Quotable) :
    InStepUnless (Reference.MissesNumber shop.document) Quoted (schemaTarget shop node)
      (schemaTarget shop.quoted node.quoteKeys) := by
  rw [schemaTarget, schemaTarget, get_quoteKeys (by decide)]
  cases node.get "$ref" with
  | scalar s =>
    cases s with
    | str ref =>
      rw [quoteKeys_scalar]
      dsimp only
      by_cases hshared : (sharedPrefixes.any fun start => start.toList.isPrefixOf ref.toList) = true
      · rw [if_pos hshared, if_pos hshared]
        exact Reference.resolve_inStep hdocument (.str ref)
      · rw [if_neg hshared, if_neg hshared]
        exact ⟨h, rfl⟩
    | _ => exact ⟨h, rfl⟩
  | _ => exact ⟨h, rfl⟩

theorem schemaOf_quoteKeys (h : node.Quotable) :
    schemaOf shop.quoted node.quoteKeys = (schemaOf shop node).map (Option.map quoteKeys) := by
  have hshop : shop.quoted.dialect = shop.dialect ∧ shop.quoted.preferences = shop.preferences :=
    ⟨rfl, rfl⟩
  rw [schemaOf, schemaOf, hshop.1, hshop.2]
  by_cases hbody : shop.dialect.hasRequestBody = true
  · rw [if_pos hbody, if_pos hbody, get_quoteKeys (by decide),
      Content.schema_quoteKeys _ (inherited_quotable.get h "content")]
  · rw [if_neg hbody, if_neg hbody, get?_quoteKeys (by decide), Schema.filter_isMap_quoteKeys]
    rfl

theorem ofHeaders_quoteKeys (h : node.Quotable) (code : Int) :
    ofHeaders node.quoteKeys code = ofHeaders node code := by
  have hheaders := inherited_quotable.get h "headers"
  rw [ofHeaders, get_quoteKeys (by decide), get_quoteKeys (by decide), text?_quoteKeys, ofHeaders]
  generalize node.get "headers" = headers at hheaders ⊢
  cases headers with
  | map entries =>
    cases entries with
    | nil => rfl
    | cons e rest =>
      rw [quoteKeys_map, List.map_cons, quoteEntry]
      dsimp only
      rw [hheaders.written_key List.mem_cons_self]
  | _ => rfl

theorem sameResponse_quoteKeys (h : Quoted node node') :
    SameResponse shop shop.quoted Quoted excused node node' := by
  obtain ⟨hquotable, rfl⟩ := h
  refine ⟨.of_map (schemaOf_quoteKeys hquotable) fun schema hschema => ?_, ?_,
    fun code => (ofHeaders_quoteKeys hquotable code).symm⟩
  · cases schema with
    | none => exact .none
    | some found => exact .some ⟨inherited_quotable.responseSchema hquotable hschema, rfl⟩
  · rw [get_quoteKeys (by decide), text?_quoteKeys]

end Response

/-! ### Operations -/

namespace OperationEntry

/-- An operation to be built, once the keys in the description are quoted. -/
def quoted (entry : OperationEntry) : OperationEntry :=
  { entry with
    path := entry.path.quoted
    node := entry.node.quoteKeys
    pathParameters := entry.pathParameters.map quoteKeys }

/-- What an operation is built from has keys that can be quoted. -/
structure Quotable (entry : OperationEntry) : Prop where
  path : entry.path.isShort = true
  node : entry.node.Quotable
  pathParameters : ∀ node ∈ entry.pathParameters, node.Quotable

variable {entry : OperationEntry}

theorem parameterNodes_quoted (entry : OperationEntry) :
    entry.quoted.parameterNodes = entry.parameterNodes.map quoteKeys := by
  show entry.pathParameters.map quoteKeys ++
    ((entry.node.quoteKeys.get "parameters").items?.getD []) = _
  rw [get_quoteKeys (by decide), getD_items?_quoteKeys, ← List.map_append]
  rfl

theorem assemble_quoted (path : String) (declared : List Parameter) (body : Option Parameter)
    (responses : List Response) :
    entry.quoted.assemble shop.quoted path declared body responses =
      entry.assemble shop path declared body responses := by
  simp (disch := decide) only [assemble, nameFor, verb, quoted, Workshop.quoted, get_quoteKeys,
    str?_quoteKeys, text?_quoteKeys, isTrue_quoteKeys]

/-- Operations to be built, of which one has its keys quoted. -/
structure Quoted (entry entry' : OperationEntry) : Prop where
  quotable : entry.Quotable
  eq : entry' = entry.quoted

theorem node_quoted (entry : OperationEntry) : entry.quoted.node = entry.node.quoteKeys := rfl

theorem body?_inStep (hdocument : shop.document.Quotable) (h : entry.Quotable) :
    InStepUnless (Reference.MissesNumber shop.document) Eq (entry.body? shop)
      (entry.quoted.body? shop.quoted) := by
  have hdialect : shop.quoted.dialect = shop.dialect := rfl
  rw [body?, body?, hdialect, node_quoted]
  by_cases hbody : shop.dialect.hasRequestBody = true
  · rw [if_pos hbody, if_pos hbody, get?_quoteKeys (by decide)]
    cases hget : entry.node.get? "requestBody" with
    | none => exact .refl _
    | some body =>
      have hquotable := inherited_quotable.part (occursIn_of_get? hget) h.node
      exact Parameter.buildBody?_inStep (Schema.corresponds_quoted hdocument).sameModels
        ((Reference.target_inStep hdocument hquotable).imp fun _ _ _ =>
          Parameter.sameBody_quoteKeys)
  · rw [if_neg hbody, if_neg hbody]
    exact .refl _

theorem quotable_of_mem_parameterNodes (h : entry.Quotable) (hnode : node ∈ entry.parameterNodes) :
    node.Quotable := by
  rcases List.mem_append.mp hnode with hnode | hnode
  · exact h.pathParameters node hnode
  · exact inherited_quotable.of_mem_items? (inherited_quotable.get h.node "parameters") hnode

/-- The operations of a description and those of the one with its keys quoted correspond, but for
references that meet a number. -/
theorem corresponds_quoted (hdocument : shop.document.Quotable) :
    OperationCorrespondence shop shop.quoted Node.Quoted (Reference.MissesNumber shop.document)
      Quoted where
  models := (Schema.corresponds_quoted hdocument).sameModels
  schemaTarget h := h.eq ▸ Response.schemaTarget_inStep hdocument h.quotable
  preferences := rfl
  path h := h.eq ▸ (Scalar.written_quoted h.quotable.path).symm
  parameters {entry entry'} h := by
    rw [h.eq, parameterNodes_quoted, List.forall₂_map_right_iff, List.forall₂_same]
    intro node hnode
    have hquotable := quotable_of_mem_parameterNodes h.quotable hnode
    exact (Reference.target_inStep hdocument hquotable).imp fun _ _ _ =>
      Parameter.sameParameter_quoteKeys
  body h := h.eq ▸ body?_inStep hdocument h.quotable
  responses {entry entry'} h := by
    have hresponses := inherited_quotable.get h.quotable.node "responses"
    rw [h.eq, node_quoted, get_quoteKeys (by decide), getD_entries?_quoteKeys,
      List.forall₂_map_right_iff, List.forall₂_same]
    intro member hmember
    have hquotable := inherited_quotable.of_mem_entries? hresponses hmember
    exact
      { code := (Response.codeOf?_quoted (hresponses.isShort_key hmember)).symm
        response := fun _ => (Reference.target_inStep hdocument hquotable).imp fun _ _ _ =>
          Response.sameResponse_quoteKeys }
  assemble h path declared body responses :=
    h.eq ▸ (assemble_quoted path declared body responses).symm

end OperationEntry

/-! ### All operations -/

section
variable {preferences : Preferences}

theorem tagsOf_quoteKeys (preferences : Preferences) (node : Node) :
    tagsOf preferences node.quoteKeys = tagsOf preferences node := by
  rw [tagsOf, get_quoteKeys (by decide), tagsOf]
  cases node.get "tags" with
  | list items =>
    have htexts : text? ∘ quoteKeys = text? := funext text?_quoteKeys
    rw [quoteKeys_list]
    dsimp only
    rw [List.filterMap_map, htexts]
  | _ => rfl

theorem entriesOfPath_quoteKeys (preferences : Preferences) (path : Scalar) (item : Node) :
    entriesOfPath preferences path.quoted item.quoteKeys =
      (entriesOfPath preferences path item).map OperationEntry.quoted := by
  have hmethods : ∀ method ∈ requestMethods, isNumeral method = false := by decide
  unfold entriesOfPath
  rw [List.map_flatMap]
  refine List.flatMap_congr fun method hmethod => ?_
  dsimp only
  rw [get_quoteKeys (hmethods method hmethod), isMap_quoteKeys, tagsOf_quoteKeys,
    get_quoteKeys (by decide), getD_items?_quoteKeys]
  by_cases hmap : (item.get method).isMap = true
  · rw [if_pos hmap, if_pos hmap, List.map_map]
    rfl
  · rw [if_neg hmap, if_neg hmap, List.map_nil]

theorem operationEntries_quoteEntries (preferences : Preferences) (root : Entries) :
    operationEntries preferences (root.map quoteEntry) =
      (operationEntries preferences root).map OperationEntry.quoted := by
  have hpaths : Dialect.member "paths" (root.map quoteEntry) =
      (Dialect.member "paths" root).quoteKeys := by
    rw [Dialect.member, get?_quoteEntries (by decide), Dialect.member]
    cases Entries.get? "paths" root <;> rfl
  rw [operationEntries, hpaths, operationEntries]
  cases Dialect.member "paths" root with
  | map paths =>
    rw [quoteKeys_map]
    dsimp only
    rw [List.flatMap_map, List.map_flatMap]
    exact List.flatMap_congr fun e _ => entriesOfPath_quoteKeys preferences e.1 e.2
  | _ => rfl

theorem path_of_mem_entriesOfPath {path : Scalar} {item : Node} {entry : OperationEntry}
    (hentry : entry ∈ entriesOfPath preferences path item) : entry.path = path := by
  obtain ⟨method, _, hentry⟩ := List.mem_flatMap.mp hentry
  dsimp only at hentry
  split at hentry
  · obtain ⟨tag, _, rfl⟩ := List.mem_map.mp hentry
    rfl
  · cases hentry

theorem quotable_of_mem_operationEntries {root : Entries} (h : (Node.map root).Quotable)
    {entry : OperationEntry} (hentry : entry ∈ operationEntries preferences root) :
    entry.Quotable := by
  have hparts := inherited_quotable.operationEntries h hentry
  refine ⟨?_, hparts.1, hparts.2⟩
  unfold operationEntries at hentry
  split at hentry
  · rename_i paths hpaths
    obtain ⟨e, he, hentry⟩ := List.mem_flatMap.mp hentry
    have hmap : (Node.map paths).Quotable := hpaths ▸ inherited_quotable.get h "paths"
    rw [path_of_mem_entriesOfPath hentry]
    exact hmap.isShort_key he
  · cases hentry

end

end

end OpenApi
