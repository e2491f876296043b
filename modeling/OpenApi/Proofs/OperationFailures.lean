import OpenApi.Operation.Build
import OpenApi.Proofs.BuildFailures
import OpenApi.Proofs.Numerals

/-
How building an operation from JSON values fails.

Two things are read without looking at their kinds: the location of a parameter, which may be no
list and no map, and the key of a response, which may be no text of digits that are not all decimal.
-/
namespace OpenApi

/-! ### Parameters -/

namespace Content

variable {content : Node}

theorem exists_choice? {entry : Scalar × Node} (key : entry.1.isJsonKey = true) :
    ∃ choice, choice? entry = .ok choice := by
  unfold choice?
  split
  · exact ⟨none, rfl⟩
  · rename_i schema _
    obtain ⟨name, _, hname⟩ := Scalar.written_of_isJsonKey key
    exact ⟨some (name, schema), by rw [hname]; rfl⟩

theorem exists_withSchema (json : content.isJson = true) :
    ∃ choices, withSchema content = .ok choices := by
  unfold withSchema
  split
  · rw [Node.isJson_map_iff] at json
    obtain ⟨found, hfound⟩ := Except.exists_mapM fun entry hentry =>
      exists_choice? (json entry hentry).1
    exact ⟨found.filterMap id, by rw [hfound]; rfl⟩
  · exact ⟨[], rfl⟩

theorem exists_select (preferences : Preferences) (json : content.isJson = true) :
    ∃ chosen, select preferences content = .ok chosen := by
  obtain ⟨choices, hchoices⟩ := exists_withSchema json
  exact ⟨_, by rw [select, hchoices]; rfl⟩

theorem exists_schema (preferences : Preferences) (json : content.isJson = true) :
    ∃ found, schema preferences content = .ok found := by
  obtain ⟨chosen, hchosen⟩ := exists_select preferences json
  exact ⟨chosen.map (·.2), by rw [schema, hchosen]; rfl⟩

end Content

namespace Parameter

variable {causes : Malformation → Prop} {shop : Workshop} {node : Node}

/-- Whether a parameter says where it belongs, or at least nothing that is compound. -/
def LegibleLocation (shop : Workshop) (node : Node) : Prop :=
  ∀ target, Reference.target shop.document node = .ok target → target.isMap = true →
    (target.get "in").items? = none ∧ (target.get "in").entries? = none

theorem exists_locationOf?_iff (dialect : Dialect) :
    (∃ location, locationOf? dialect node = .ok location) ↔
      node.items? = none ∧ node.entries? = none := by
  unfold locationOf?
  split
  · exact ⟨fun _ => ⟨rfl, rfl⟩, fun _ => ⟨_, rfl⟩⟩
  · exact ⟨fun ⟨_, h⟩ => (nomatch h), fun ⟨h, _⟩ => (nomatch h)⟩
  · exact ⟨fun ⟨_, h⟩ => (nomatch h), fun ⟨_, h⟩ => (nomatch h)⟩
  · rename_i hstr hlist hmap
    refine ⟨fun _ => ?_, fun _ => ⟨_, rfl⟩⟩
    cases node with
    | list items => exact absurd rfl (hlist items)
    | map entries => exact absurd rfl (hmap entries)
    | _ => exact ⟨rfl, rfl⟩

theorem failsAmong_locationOf? (dialect : Dialect)
    (h : ¬ (node.items? = none ∧ node.entries? = none) → causes .compoundKey) :
    FailsAmong causes (locationOf? dialect node) := by
  by_cases hplain : node.items? = none ∧ node.entries? = none
  · exact .of_exists ((exists_locationOf?_iff dialect).mpr hplain)
  · unfold locationOf?
    split
    · exact .ok _
    · exact .error (h hplain)
    · exact .error (h hplain)
    · exact .ok none

theorem exists_schemaOf (shop : Workshop) (location : Location) (json : node.isJson = true) :
    ∃ schema, schemaOf shop node location = .ok schema := by
  unfold schemaOf
  split
  · exact ⟨_, rfl⟩
  · split
    · exact ⟨_, rfl⟩
    · obtain ⟨found, hfound⟩ :=
        Content.exists_schema shop.preferences (Node.isJson_get json "content")
      exact ⟨_, by rw [hfound]; rfl⟩

theorem exists_wireNameOf (json : node.isJson = true) : ∃ name, wireNameOf node = .ok name := by
  unfold wireNameOf
  dsimp only
  split
  · exact Node.exists_written (Node.isJson_get json "name")
  · exact ⟨"", rfl⟩

theorem failsAmong_build? (document : shop.document.isJson = true)
    (json : node.isJson = true) (h : ¬ LegibleLocation shop node → causes .compoundKey) :
    FailsAmong causes (build? shop node) := by
  unfold build?
  refine (FailsAmong.target shop.document json).bind fun target htarget => ?_
  by_cases hmap : target.isMap = true
  · rw [if_neg (by simp [hmap])]
    have htargetJson : target.isJson = true := inherited_isJson.target document json htarget
    have hlocation : FailsAmong causes (locationOf? shop.dialect (target.get "in")) :=
      failsAmong_locationOf? shop.dialect fun hcompound =>
        h fun hlegible => hcompound (hlegible target htarget hmap)
    refine hlocation.bind fun location _ => ?_
    cases location with
    | none => exact .ok none
    | some location =>
      refine (FailsAmong.of_exists (exists_wireNameOf htargetJson)).bind fun name _ => ?_
      obtain ⟨schema, hschema⟩ := exists_schemaOf shop location htargetJson
      have hjson := inherited_isJson.parameterSchema htargetJson hschema
      refine FailsAmong.bind_of_ok hschema ?_
      exact (Schema.failsAmong_build "" false document hjson).bind fun model _ => .ok _
  · rw [if_pos (by simp [hmap])]
    exact .ok none

/-- A parameter that could be read says where it belongs. -/
theorem legibleLocation_of_build? {parameter : Option Parameter}
    (h : build? shop node = .ok parameter) : LegibleLocation shop node := by
  intro target htarget hmap
  obtain ⟨target', htarget', h⟩ := Except.bind_eq_ok_iff.mp h
  rw [htarget] at htarget'
  cases htarget'
  rw [if_neg (by simp [hmap])] at h
  obtain ⟨location, hlocation, _⟩ := Except.bind_eq_ok_iff.mp h
  exact (exists_locationOf?_iff shop.dialect).mp ⟨location, hlocation⟩

theorem failsAmong_buildAll {nodes : List Node} (document : shop.document.isJson = true)
    (json : ∀ node ∈ nodes, node.isJson = true)
    (h : ∀ node ∈ nodes, ¬ LegibleLocation shop node → causes .compoundKey) :
    FailsAmong causes (buildAll shop nodes) := by
  have hbuilt : FailsAmong causes (nodes.mapM (build? shop)) := .mapM fun node hnode =>
    failsAmong_build? document (json node hnode) (h node hnode)
  exact hbuilt.bind fun built _ => .ok _

theorem failsAmong_buildBody? (document : shop.document.isJson = true)
    (json : node.isJson = true) : FailsAmong causes (buildBody? shop node) := by
  unfold buildBody?
  refine (FailsAmong.target shop.document json).bind fun target htarget => ?_
  have hcontent := inherited_isJson.get (inherited_isJson.target document json htarget) "content"
  split
  · exact .ok none
  · obtain ⟨chosen, hchosen⟩ := Content.exists_select shop.preferences hcontent
    refine FailsAmong.bind_of_ok hchosen ?_
    cases chosen with
    | none => exact .ok _
    | some choice =>
      have hjson := inherited_isJson.select hcontent hchosen
      exact (Schema.failsAmong_build "" false document hjson).bind fun model _ => .ok _

end Parameter

/-! ### Responses -/

namespace Response
open Text

variable {causes : Malformation → Prop} {shop : Workshop} {node : Node}

/-- Whether a key that is made of digits is a numeral: all of its digits are decimal. -/
def LegibleCode : Scalar → Prop
  | .str s => (∀ c ∈ trim s.toList, isDigitLike c = true) →
      ∀ c ∈ trim s.toList, (Numeral.place? 10 c).isSome = true
  | _ => True

theorem codeOf?_str (s : String) : codeOf? (.str s) =
    if trim s.toList = "default".toList then .ok (some 200)
    else if !(trim s.toList).isEmpty && (trim s.toList).all isDigitLike then
      match Numeral.signed? (trim s.toList) with
      | some n => .ok (some n)
      | none => .error (.malformed .noDecimal)
    else .ok none := rfl

theorem exists_codeOf?_iff {s : String} (fit : digitsFit s.toList = true) :
    (∃ code, codeOf? (.str s) = .ok code) ↔ LegibleCode (.str s) := by
  rw [codeOf?_str, LegibleCode]
  have hshort := length_trim_of_digitsFit fit
  generalize trim s.toList = cs at hshort ⊢
  by_cases hdefault : cs = "default".toList
  · rw [if_pos hdefault]
    refine ⟨fun _ hall => ?_, fun _ => ⟨_, rfl⟩⟩
    have hd := hall 'd' (by rw [hdefault]; decide)
    exact absurd hd (by decide +kernel)
  · rw [if_neg hdefault]
    by_cases hdigits : cs ≠ [] ∧ ∀ c ∈ cs, isDigitLike c = true
    · obtain ⟨hne, hall⟩ := hdigits
      have hiff := Numeral.exists_signed?_iff hne hall (hshort hall)
      rw [if_pos (by simpa [hne] using hall)]
      cases hsigned : Numeral.signed? cs with
      | none =>
        refine ⟨fun ⟨_, h⟩ => (nomatch h), fun hlegible => ?_⟩
        obtain ⟨n, hn⟩ := hiff.mpr (hlegible hall)
        rw [hsigned] at hn
        cases hn
      | some n => exact ⟨fun _ _ => hiff.mp ⟨n, hsigned⟩, fun _ => ⟨_, rfl⟩⟩
    · rw [if_neg (by simpa using hdigits)]
      refine ⟨fun _ hall => ?_, fun _ => ⟨_, rfl⟩⟩
      have hnil : cs = [] := by
        by_contra hne
        exact hdigits ⟨hne, hall⟩
      exact hnil ▸ fun c hc => nomatch hc

theorem failsAmong_codeOf? {s : String} (fit : digitsFit s.toList = true)
    (h : ¬ LegibleCode (.str s) → causes .noDecimal) : FailsAmong causes (codeOf? (.str s)) := by
  by_cases hlegible : LegibleCode (.str s)
  · exact .of_exists ((exists_codeOf?_iff fit).mpr hlegible)
  · rw [codeOf?_str]
    split
    · exact .ok _
    · split
      · split
        · exact .ok _
        · exact .error (h hlegible)
      · exact .ok none

theorem exists_schemaOf (shop : Workshop) (json : node.isJson = true) :
    ∃ found, schemaOf shop node = .ok found := by
  unfold schemaOf
  split
  · exact Content.exists_schema shop.preferences (Node.isJson_get json "content")
  · exact ⟨_, rfl⟩

theorem failsAmong_schemaTarget (shop : Workshop) {schema : Node} (json : schema.isJson = true) :
    FailsAmong causes (schemaTarget shop schema) := by
  unfold schemaTarget
  split
  · rename_i ref href
    split
    · have hjson : (Node.scalar (.str ref)).isJson = true := href ▸ Node.isJson_get json "$ref"
      exact .resolve shop.document hjson
    · exact .ok schema
  · exact .ok schema

theorem exists_ofHeaders (code : Int) (json : node.isJson = true) :
    ∃ response, ofHeaders node code = .ok response := by
  unfold ofHeaders
  dsimp only
  split
  · rename_i key value rest hheaders
    have hentries := Node.isJson_get json "headers"
    rw [hheaders, Node.isJson_map_iff] at hentries
    obtain ⟨name, _, hname⟩ :=
      Scalar.written_of_isJsonKey (hentries (key, value) List.mem_cons_self).1
    exact ⟨_, by rw [hname]; rfl⟩
  · exact ⟨_, rfl⟩

theorem failsAmong_build (code : Int) (document : shop.document.isJson = true)
    (json : node.isJson = true) : FailsAmong causes (build shop node code) := by
  unfold build
  refine (FailsAmong.target shop.document json).bind fun target htarget => ?_
  have htargetJson : target.isJson = true := inherited_isJson.target document json htarget
  obtain ⟨found, hfound⟩ := exists_schemaOf shop htargetJson
  refine FailsAmong.bind_of_ok hfound ?_
  cases found with
  | some schema =>
    have hjson : schema.isJson = true := inherited_isJson.responseSchema htargetJson hfound
    refine (failsAmong_schemaTarget shop hjson).bind fun schema' hschema' => ?_
    have hjson' : schema'.isJson = true := inherited_isJson.schemaTarget document hjson hschema'
    exact (Schema.failsAmong_build "" false document hjson').bind fun model _ => .ok _
  | none => exact .of_exists (exists_ofHeaders code htargetJson)

theorem failsAmong_buildAll (document : shop.document.isJson = true)
    (json : node.isJson = true)
    (h : ∀ e ∈ node.entries?.getD [], ¬ LegibleCode e.1 → causes .noDecimal) :
    FailsAmong causes (buildAll shop node) := by
  unfold buildAll
  split
  · rename_i entries
    rw [Node.isJson_map_iff] at json
    have hbuilt : FailsAmong causes (entries.mapM (ofMember? shop)) := by
      refine .mapM fun e he => ?_
      obtain ⟨s, hkey, _⟩ := Scalar.written_of_isJsonKey (json e he).1
      have hfit : digitsFit s.toList = true := by
        have hjsonKey := (json e he).1
        rwa [hkey] at hjsonKey
      have hcode : FailsAmong causes (codeOf? (.str s)) :=
        failsAmong_codeOf? hfit fun hillegible => h e he (hkey ▸ hillegible)
      unfold ofMember?
      rw [hkey]
      refine hcode.bind fun code _ => ?_
      cases code with
      | none => exact .ok none
      | some code =>
        exact (failsAmong_build code document (json e he).2).bind fun response _ => .ok _
    exact hbuilt.bind fun built _ => .ok _
  · exact .ok []

theorem legibleCode_of_buildAll {responses : List Response} (json : node.isJson = true)
    (h : buildAll shop node = .ok responses) : ∀ e ∈ node.entries?.getD [], LegibleCode e.1 := by
  cases node with
  | map entries =>
    intro e he
    obtain ⟨built, hbuilt, _⟩ := Except.bind_eq_ok_iff.mp h
    obtain ⟨s, hkey, _⟩ := Scalar.written_of_isJsonKey (Node.isJson_map_iff.mp json e he).1
    have hfit : digitsFit s.toList = true := by
      have hjsonKey := (Node.isJson_map_iff.mp json e he).1
      rwa [hkey] at hjsonKey
    obtain ⟨response, hresponse⟩ := Except.exists_of_mapM hbuilt he
    obtain ⟨code, hcode, _⟩ := Except.bind_eq_ok_iff.mp hresponse
    rw [hkey] at hcode ⊢
    exact (exists_codeOf?_iff hfit).mp ⟨code, hcode⟩
  | _ => exact fun _ h => nomatch h

end Response

/-! ### Operations -/

namespace OperationEntry

variable {causes : Malformation → Prop} {shop : Workshop} {entry : OperationEntry}

/-- Whether all values in an entry are JSON. -/
structure IsJson (entry : OperationEntry) : Prop where
  path : entry.path.isJsonKey = true
  node : entry.node.isJson = true
  pathParameters : ∀ node ∈ entry.pathParameters, node.isJson = true

/-- Whether the parameters and responses of an entry can be read. -/
structure Legible (shop : Workshop) (entry : OperationEntry) : Prop where
  parameters : ∀ node ∈ entry.parameterNodes, Parameter.LegibleLocation shop node
  responses : ∀ e ∈ (entry.node.get "responses").entries?.getD [], Response.LegibleCode e.1

theorem failsAmong_body? (document : shop.document.isJson = true) (json : entry.IsJson) :
    FailsAmong causes (entry.body? shop) := by
  unfold body?
  split
  · split
    · rename_i node hnode
      exact Parameter.failsAmong_buildBody? document (Node.isJson_get? json.node hnode)
    · exact .ok none
  · exact .ok none

theorem failsAmong_build (document : shop.document.isJson = true) (json : entry.IsJson)
    (parameters : ∀ node ∈ entry.parameterNodes,
      ¬ Parameter.LegibleLocation shop node → causes .compoundKey)
    (responses : ∀ e ∈ (entry.node.get "responses").entries?.getD [],
      ¬ Response.LegibleCode e.1 → causes .noDecimal) :
    FailsAmong causes (entry.build shop).operation := by
  obtain ⟨path, _, hpath⟩ := Scalar.written_of_isJsonKey json.path
  have hnodes : ∀ node ∈ entry.parameterNodes, node.isJson = true := by
    intro node hnode
    rcases List.mem_append.mp hnode with hnode | hnode
    · exact json.pathParameters node hnode
    · exact Node.isJson_of_mem_items? (Node.isJson_get json.node "parameters") hnode
  have hdeclared : FailsAmong causes (Parameter.buildAll shop entry.parameterNodes) :=
    Parameter.failsAmong_buildAll document hnodes parameters
  unfold build
  rw [hpath]
  dsimp only
  split
  · rename_i failure hfailure
    exact .error (hdeclared failure hfailure)
  · rename_i declared _
    show FailsAmong causes (finish shop entry path declared)
    have hbody : FailsAmong causes (body? shop entry) := failsAmong_body? document json
    have hresponses : FailsAmong causes (Response.buildAll shop (entry.node.get "responses")) :=
      Response.failsAmong_buildAll document (Node.isJson_get json.node "responses") responses
    refine hbody.bind fun body _ => ?_
    exact hresponses.bind fun responses _ => .ok _

theorem legible_of_build {operation : Operation} (json : entry.IsJson)
    (h : (entry.build shop).operation = .ok operation) : entry.Legible shop := by
  unfold build at h
  split at h
  · cases h
  · split at h
    · cases h
    · rename_i declared hdeclared
      obtain ⟨built, hbuilt, _⟩ := Except.bind_eq_ok_iff.mp hdeclared
      obtain ⟨_, _, h⟩ := Except.bind_eq_ok_iff.mp h
      obtain ⟨responses, hresponses, _⟩ := Except.bind_eq_ok_iff.mp h
      constructor
      · intro node hnode
        obtain ⟨parameter, hparameter⟩ := Except.exists_of_mapM hbuilt hnode
        exact Parameter.legibleLocation_of_build? hparameter
      · exact Response.legibleCode_of_buildAll (Node.isJson_get json.node "responses") hresponses

end OperationEntry

end OpenApi
