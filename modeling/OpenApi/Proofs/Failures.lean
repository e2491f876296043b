import OpenApi.Proofs.Inventory
import OpenApi.Proofs.OperationFailures
import OpenApi.Proofs.ServerAddress

/-
How resolving a JSON document ends.

A client comes of it, or one of two reported failures: a version that is not supported, or a
reference that leads nowhere.  Only where a description is read without looking at the kinds of its
values can anything else happen, and these places are few: the location of a parameter, the numeral
that a response is declared under, and the address of the server.  `Client.Legible` says what has to
stand there, and it decides between a client and a malformation.
-/
namespace OpenApi

theorem isJson_of_mem_operationEntries {preferences : Preferences} {root : Entries}
    {entry : OperationEntry} (json : (Node.map root).isJson = true)
    (h : entry ∈ operationEntries preferences root) : entry.IsJson := by
  unfold operationEntries at h
  split at h
  · rename_i paths hpaths
    obtain ⟨⟨path, item⟩, hitem, h⟩ := List.mem_flatMap.mp h
    have hjson := Dialect.isJson_member json "paths"
    rw [hpaths] at hjson
    obtain ⟨hpath, hvalue⟩ := Node.isJson_map_iff.mp hjson _ hitem
    obtain ⟨method, _, h⟩ := List.mem_flatMap.mp h
    dsimp only at h
    split at h
    · obtain ⟨tag, _, rfl⟩ := List.mem_map.mp h
      refine ⟨hpath, Node.isJson_get hvalue method, fun node hnode => ?_⟩
      exact Node.isJson_of_mem_items? (Node.isJson_get hvalue "parameters") hnode
    · cases h
  · cases h

theorem failsAmong_outcome_collect {causes : Malformation → Prop} {shop : Workshop}
    {entries : List OperationEntry}
    (h : ∀ entry ∈ entries, FailsAmong causes (entry.build shop).operation)
    (services : List Service) : FailsAmong causes (collect shop services entries).outcome := by
  induction entries generalizing services with
  | nil => exact .ok services
  | cons entry rest ih =>
    rw [List.forall_mem_cons] at h
    rw [outcome_collect_cons]
    exact h.1.bind fun operation _ => ih h.2 _

/-! ### The client -/

theorem exists_modelName (scope : Scope) {key : Scalar} (json : key.isJsonKey = true) :
    ∃ name, modelName scope key = .ok name := by
  obtain ⟨name, _, hname⟩ := Scalar.written_of_isJsonKey json
  exact ⟨_, by rw [modelName, hname]; rfl⟩

theorem exists_sharedParameters {scope : Scope} {root : Entries}
    (rooted : scope.document = .map root) (json : (Node.map root).isJson = true) :
    ∃ entries, sharedParameters scope = .ok entries ∧
      ∀ e ∈ entries, e.1.isJsonKey = true ∧ e.2.isJson = true := by
  unfold sharedParameters
  split
  · exact ⟨[], rfl, fun _ h => nomatch h⟩
  · rw [rooted, Dialect.members_bind]
    split
    · rename_i entries hentries
      have hjson := Node.isJson_get (Dialect.isJson_member json "components") "parameters"
      rw [hentries, Node.isJson_map_iff] at hjson
      exact ⟨_, rfl, fun e he => hjson e (List.mem_of_mem_filter he)⟩
    · exact ⟨[], rfl, fun _ h => nomatch h⟩

theorem failsAmong_definitionModels {causes : Malformation → Prop} {scope : Scope} {root : Entries}
    (rooted : scope.document = .map root) (json : (Node.map root).isJson = true) :
    FailsAmong causes (definitionModels scope) := by
  have document : scope.document.isJson = true := rooted ▸ json
  have hschemas : FailsAmong causes
      ((scope.dialect.schemas scope.document).mapM (definitionModel scope)) := by
    refine .mapM fun e he => ?_
    obtain ⟨hkey, hvalue⟩ := Dialect.isJson_of_mem_schemas document he
    refine (FailsAmong.of_exists (exists_modelName scope hkey)).bind fun name _ => ?_
    exact Schema.failsAmong_build name true document hvalue
  obtain ⟨shared, hshared, hall⟩ := exists_sharedParameters rooted json
  refine hschemas.bind fun schemas _ => ?_
  rw [hshared]
  have hparameters : FailsAmong causes (shared.mapM (sharedParameterModel scope)) := by
    refine .mapM fun e he => ?_
    obtain ⟨hkey, hvalue⟩ := hall e he
    refine (FailsAmong.of_exists (exists_modelName scope hkey)).bind fun name _ => ?_
    have hschema := Node.isJson_get hvalue "schema"
    exact (Schema.failsAmong_build name true document hschema).bind fun model _ => .ok _
  exact hparameters.bind fun parameters _ => .ok _

theorem exists_versionOf {root : Entries} (json : (Node.map root).isJson = true) :
    ∃ version, versionOf root = .ok version := by
  have hversion := Node.isJson_get (Dialect.isJson_member json "info") "version"
  unfold versionOf
  split
  · exact ⟨_, rfl⟩
  · obtain ⟨text, htext⟩ := Node.exists_written hversion
    exact ⟨_, by rw [htext]; rfl⟩

theorem Dialect.detect_cases {root : Entries} (json : (Node.map root).isJson = true) :
    (∃ dialect, detect (.map root) = .ok dialect) ∨
      ∃ marker, detect (.map root) = .error (.unsupported marker) := by
  have hmarker : (marker root).isJson = true := by
    unfold marker
    split
    · rename_i version hversion
      exact @Node.isJson_get? (.map root) "swagger" version json hversion
    · exact isJson_member json "openapi"
  unfold detect
  rw [members_bind]
  split
  · split
    · exact .inl ⟨_, rfl⟩
    · exact .inr ⟨_, rfl⟩
  · obtain ⟨text, htext⟩ := Node.exists_display? hmarker
    exact .inr ⟨_, by rw [htext]; rfl⟩

namespace Client

/-- Whether everything that is read without looking at its kind can be read. -/
structure Legible (shop : Workshop) (root : Entries) : Prop where
  operations : ∀ entry ∈ operationEntries shop.preferences root, entry.Legible shop
  server : Dialect.LegibleServer root shop.dialect

/-- What has to be wrong with a JSON document for a malformation to be found in it: a parameter that
is located in a list or a map, a response whose numeral is none, or an address of the wrong kind. -/
def Blamed (shop : Workshop) (root : Entries) : Malformation → Prop
  | .compoundKey => ∃ entry ∈ operationEntries shop.preferences root,
      ∃ node ∈ entry.parameterNodes, ¬ Parameter.LegibleLocation shop node
  | .noDecimal => ∃ entry ∈ operationEntries shop.preferences root,
      ∃ e ∈ (entry.node.get "responses").entries?.getD [], ¬ Response.LegibleCode e.1
  | .noMembers | .noItems | .noFirstKey | .noText => ¬ Dialect.LegibleServer root shop.dialect
  | _ => False

variable {preferences : Preferences} {shop : Workshop} {root : Entries} {dialect : Dialect}

theorem not_legible_of_blamed {cause : Malformation} (h : Blamed shop root cause) :
    ¬ Legible shop root := by
  intro legible
  unfold Blamed at h
  split at h
  · obtain ⟨entry, hentry, node, hnode, hillegible⟩ := h
    exact hillegible ((legible.operations entry hentry).parameters node hnode)
  · obtain ⟨entry, hentry, e, he, hillegible⟩ := h
    exact hillegible ((legible.operations entry hentry).responses e he)
  all_goals first | exact h legible.server | exact h

theorem failsAmong_resolve (preferences : Preferences) (json : (Node.map root).isJson = true)
    (detected : Dialect.detect (.map root) = .ok dialect) :
    FailsAmong (Blamed ⟨⟨.map root, dialect⟩, preferences⟩ root)
      (resolve preferences (.map root)).client := by
  rw [client_resolve_eq rfl detected]
  refine (failsAmong_definitionModels rfl json).bind fun models _ => ?_
  rw [ofParts_eq]
  refine (failsAmong_outcome_collect (fun entry hentry => ?_) []).bind fun services _ => ?_
  · exact OperationEntry.failsAmong_build json (isJson_of_mem_operationEntries json hentry)
      (fun node hnode hillegible => ⟨entry, hentry, node, hnode, hillegible⟩)
      (fun e he hillegible => ⟨entry, hentry, e, he, hillegible⟩)
  refine FailsAmong.bind_of_ok (a := root) rfl ?_
  obtain ⟨version, hversion⟩ := exists_versionOf json
  refine FailsAmong.bind_of_ok hversion ?_
  have hserver : FailsAmong (Blamed ⟨⟨.map root, dialect⟩, preferences⟩ root)
      (dialect.server (.map root)) := by
    refine Dialect.failsAmong_server dialect json fun hillegible cause hcause => ?_
    simp only [Dialect.serverCauses, List.mem_cons, List.not_mem_nil, or_false] at hcause
    rcases hcause with rfl | rfl | rfl | rfl <;> exact hillegible
  exact hserver.bind fun server _ => .ok _

theorem legible_of_resolve {client : Client} (json : (Node.map root).isJson = true)
    (detected : Dialect.detect (.map root) = .ok dialect)
    (h : (resolve preferences (.map root)).client = .ok client) :
    Legible ⟨⟨.map root, dialect⟩, preferences⟩ root := by
  obtain ⟨dialect', root', models, detected', made⟩ := exists_madeFrom_of_resolve h
  rw [detected] at detected'
  cases detected'
  cases made.rooted
  obtain ⟨operations, hoperations, _⟩ := exists_built_of_collect made.finished
  constructor
  · intro entry hentry
    obtain ⟨operation, hbuilt⟩ := Except.exists_of_mapM (Except.mapM_eq_ok_iff.mpr hoperations) hentry
    exact OperationEntry.legible_of_build (isJson_of_mem_operationEntries json hentry) hbuilt
  · exact (Dialect.exists_server_iff dialect json).mp ⟨client.server, made.server_eq⟩

/-- How resolving a JSON document ends.  Its version is not supported, or a reference in it leads
nowhere, or else it comes to a client exactly if it is legible, and to a malformation that the
document is to blame for if it is not. -/
theorem resolve_cases (preferences : Preferences) (json : (Node.map root).isJson = true) :
    (∃ marker, Dialect.detect (.map root) = .error (.unsupported marker) ∧
      (resolve preferences (.map root)).client = .error (.unsupported marker)) ∨
    ∃ dialect, Dialect.detect (.map root) = .ok dialect ∧
      ((∃ ref fault,
          (resolve preferences (.map root)).client = .error (.unresolvable ref fault)) ∨
        (Legible ⟨⟨.map root, dialect⟩, preferences⟩ root ∧
          ∃ client, (resolve preferences (.map root)).client = .ok client) ∨
        (¬ Legible ⟨⟨.map root, dialect⟩, preferences⟩ root ∧
          ∃ cause, Blamed ⟨⟨.map root, dialect⟩, preferences⟩ root cause ∧
            (resolve preferences (.map root)).client = .error (.malformed cause))) := by
  rcases Dialect.detect_cases json with ⟨dialect, detected⟩ | ⟨marker, unsupported⟩
  · refine .inr ⟨dialect, detected, ?_⟩
    have hfails := failsAmong_resolve preferences json detected
    cases hclient : (resolve preferences (.map root)).client with
    | ok client => exact .inr (.inl ⟨legible_of_resolve json detected hclient, client, rfl⟩)
    | error failure =>
      have hamong := hfails failure hclient
      cases failure with
      | unresolvable ref fault => exact .inl ⟨ref, fault, rfl⟩
      | unsupported marker => cases hamong
      | malformed cause => exact .inr (.inr ⟨not_legible_of_blamed hamong, cause, hamong, rfl⟩)
  · refine .inl ⟨marker, unsupported, ?_⟩
    unfold resolve
    rw [unsupported]

/-- A description with a response that is declared under a superscript two. -/
def superscriptDocument : Entries :=
  [(.str "openapi", .str "3.0.0"),
    (.str "info", .map [(.str "version", .str "1")]),
    (.str "paths", .map [(.str "/a", .map [(.str "get", .map
      [(.str "responses", .map [(.str "²", .map [])])])])])]

theorem resolve_superscriptDocument :
    (resolve {} (.map superscriptDocument)).client = .error (.malformed .noDecimal) := rfl

theorem isJson_superscriptDocument : (Node.map superscriptDocument).isJson = true := by
  decide +kernel

/-- The superscript is what the description is to blame for. -/
theorem blamed_superscriptDocument : (Node.map superscriptDocument).isJson = true ∧
    Blamed ⟨⟨.map superscriptDocument, .v3⟩, {}⟩ superscriptDocument .noDecimal ∧
    ¬ Legible ⟨⟨.map superscriptDocument, .v3⟩, {}⟩ superscriptDocument := by
  refine ⟨isJson_superscriptDocument, ?_⟩
  have hdetect : Dialect.detect (.map superscriptDocument) = .ok .v3 := rfl
  have hclient := resolve_superscriptDocument
  rcases resolve_cases {} isJson_superscriptDocument with ⟨_, h, _⟩ | ⟨dialect, h, hcases⟩
  · rw [hdetect] at h
    cases h
  · rw [hdetect] at h
    cases h
    rw [hclient] at hcases
    rcases hcases with ⟨_, _, h⟩ | ⟨_, _, h⟩ | ⟨hillegible, cause, hblamed, h⟩
    · cases h
    · cases h
    · cases h
      exact ⟨hblamed, hillegible⟩

/-- So the two reported failures are not the only ones. -/
theorem not_reported_superscriptDocument :
    ¬ ∀ (preferences : Preferences) (root : Entries), (Node.map root).isJson = true →
      (∃ client, (resolve preferences (.map root)).client = .ok client) ∨
        ∃ failure : Failure, failure.report?.isSome = true ∧
          (resolve preferences (.map root)).client = .error failure := by
  intro h
  have hclient := resolve_superscriptDocument
  rcases h {} superscriptDocument isJson_superscriptDocument with ⟨_, h⟩ | ⟨failure, hreport, h⟩
  · rw [hclient] at h
    cases h
  · rw [hclient] at h
    cases h
    cases hreport

end Client
end OpenApi
