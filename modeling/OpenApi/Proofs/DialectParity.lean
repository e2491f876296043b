import OpenApi.Proofs.MigratedOperations

/-
The two dialects say the same.

A Swagger 2 description that has nothing for which OpenAPI 3 has other rules (`Migratable`) comes to
the same client as the OpenAPI 3 description that it is rewritten as, or both cannot be resolved.
-/
namespace OpenApi

namespace Migration

section
variable {root : Entries} {preferences : Preferences}

/-! ### Definitions -/

theorem modelName_after {key : Scalar} (h : key.text?.all fun name => isUnmarked name.toList) :
    modelName (after root) key = modelName (before root) key := by
  rw [modelName, modelName, Scalar.written]
  cases htext : key.text? with
  | none => rfl
  | some name =>
    rw [htext] at h
    show Except.ok (Name.avoidReserved (TypeUse.ofText .v3 name .null).base) =
      Except.ok (Name.avoidReserved (TypeUse.ofText .v2 name .null).base)
    rw [TypeUse.ofText_of_isUnmarked .v2 h]

theorem sharedParameters_after (h : Migratable (.map root)) :
    sharedParameters (after root) = .ok [] := by
  have hnone : (Dialect.member "components" (moved root)).get "parameters" = .null := by
    rw [Dialect.member, h.get?_components]
    cases Entries.get? "definitions" root <;> rfl
  unfold sharedParameters
  show (Dialect.members (.map (moved root)) >>= _) = _
  rw [Dialect.members_bind, hnone]
  rfl

theorem definitionModels_inStep (h : Migratable (.map root)) :
    InStep id (definitionModels (before root)) (definitionModels (after root)) := by
  have hmodels : InStep id ((Dialect.schemas .v2 (.map root)).mapM (definitionModel (before root)))
      (((Dialect.schemas .v2 (.map root)).map fun e =>
        (e.1, migrate (Place.child .definitions e.1) e.2)).mapM
          (definitionModel (after root))) := by
    refine InStep.mapM fun e he => ?_
    unfold definitionModel
    have hkey : (e.1.text?.all fun name => isUnmarked name.toList) = true :=
      (h.regular.get "definitions").isUnmarked_key he
    rw [modelName_after hkey]
    exact (InStep.refl _).bind fun name _ =>
      build_inStep h (h.regular_of_mem_schemas he) name true
  rw [← migrateEntries_eq, ← h.schemas_after] at hmodels
  unfold definitionModels
  refine hmodels.bind fun models _ => ?_
  have hold : sharedParameters (before root) = .ok [] := rfl
  rw [hold, sharedParameters_after h]
  exact InStep.refl _

/-! ### The whole client -/

theorem server_before (h : Migratable (.map root)) :
    Dialect.server .v2 (.map root) = .ok "" := by
  have hnull {key : String} (hkey : key ∈ ["schemes", "host", "basePath", "servers", "components"]) :
      Dialect.member key root = .null := by
    rw [Dialect.member, h.get?_eq_none hkey]
    rfl
  have haddress : Dialect.addressV2 root = .ok (.str "") := by
    rw [Dialect.addressV2, hnull (by decide), hnull (by decide), hnull (by decide)]
    rfl
  show (Dialect.addressV2 root >>= Dialect.withoutSlashes) = _
  rw [haddress]
  rfl

theorem server_after (h : Migratable (.map root)) :
    Dialect.server .v3 (.map (moved root)) = .ok "" := by
  have hnull : Dialect.member "servers" (moved root) = .null := by
    rw [Dialect.member, get?_moved (by decide), h.get?_eq_none (by decide)]
    rfl
  have haddress : Dialect.addressV3 (moved root) = .ok (.str "") := by
    rw [Dialect.addressV3, hnull]
    rfl
  show (Dialect.addressV3 (moved root) >>= Dialect.withoutSlashes) = _
  rw [haddress]
  rfl

theorem versionOf_moved (root : Entries) : versionOf (moved root) = versionOf root := by
  have hinfo : Dialect.member "info" (moved root) = Dialect.member "info" root := by
    have hchild : Place.child .document (.str "info") = .other := rfl
    rw [Dialect.member, get?_moved (by decide), hchild, funext (migrate_of_isInert .other rfl),
      Option.map_id', Dialect.member]
  rw [versionOf, hinfo, versionOf]

theorem client_inStep (h : Migratable (.map root)) :
    InStep id (Client.resolve preferences (.map root)).client
      (Client.resolve preferences (.map (moved root))).client := by
  rw [Client.client_resolve_eq rfl h.detected, Client.client_resolve_eq rfl (detect_moved root)]
  refine (definitionModels_inStep h).bind fun models _ => ?_
  rw [Client.ofParts_eq, Client.ofParts_eq, operationEntries_migrate]
  have hcollected : InStep id
      (collect (shopBefore root preferences) [] (operationEntries preferences root)).outcome
      (collect (shopAfter root preferences) []
        ((operationEntries preferences root).map migrateEntry)).outcome :=
    collect_inStep h [] fun entry hentry => regular_of_mem_operationEntries h.regular hentry
  refine hcollected.bind fun services _ => ?_
  show InStep id
    (versionOf root >>= fun version => Dialect.server .v2 (.map root) >>= _)
    (versionOf (moved root) >>= fun version => Dialect.server .v3 (.map (moved root)) >>= _)
  rw [versionOf_moved, server_before h, server_after h]
  exact InStep.refl _

end

end Migration

namespace Client

/-- A description in Swagger 2 and the one in OpenAPI 3 that it is rewritten as come to the same
client, or neither can be resolved. -/
theorem resolve_migrate_iff (preferences : Preferences) {document : Node}
    (h : Migration.Migratable document) (client : Client) :
    (resolve preferences document).client = .ok client ↔
      (resolve preferences (Migration.migrate .document document)).client = .ok client := by
  obtain ⟨root, rfl⟩ : ∃ root, document = .map root := by
    obtain ⟨root, hroot, _⟩ := Except.bind_eq_ok_iff.mp h.detected
    exact ⟨root, Dialect.members_eq_ok_iff.mp hroot⟩
  rw [Migration.migrate_document]
  exact (Migration.client_inStep h).eq_ok_iff

/-- A Swagger 2 description of two definitions that refer to each other.  One of them is a choice
with a discriminator, and an operation answers with it. -/
def petDescription : Node :=
  .map
    [(.str "swagger", .str "2.0"),
      (.str "info", .map [(.str "version", .str "1")]),
      (.str "paths", .map [(.str "/pets/{name}", .map [(.str "get", getPet)])]),
      (.str "definitions", .map [(.str "Pet", pet), (.str "Cat", cat)])]
where
  getPet : Node := .map
    [(.str "parameters", .list
        [.map [(.str "name", .str "name"), (.str "in", .str "path"), (.str "type", .str "string")],
          .map [(.str "name", .str "ages"), (.str "in", .str "query"), (.str "type", .str "array"),
            (.str "items", .map [(.str "type", .str "integer")])]]),
      (.str "responses", .map [(.str "200", .map [(.str "schema", refersTo "#/definitions/Pet")])])]
  pet : Node := .map
    [(.str "oneOf", .list [refersTo "#/definitions/Cat"]),
      (.str "discriminator", .map
        [(.str "propertyName", .str "kind"),
          (.str "mapping", .map [(.str "cat", .str "#/definitions/Cat")])])]
  cat : Node := .map
    [(.str "properties", .map
      [(.str "kind", .map [(.str "type", .str "string")]),
        (.str "friend", refersTo "#/definitions/Pet")])]
  refersTo (path : String) : Node := .map [(.str "$ref", .str path)]

theorem migratable_petDescription : Migration.Migratable petDescription where
  detected := rfl
  regular := by
    unfold Migration.Regular
    decide +kernel

theorem resolve_petDescription : (Client.resolve {} petDescription).client.isOk = true := by
  have hentries {root : Entries} (hroot : petDescription = .map root) : operationEntries {} root =
      [⟨.str "/pets/{name}", "get", "Default", petDescription.getPet, []⟩] := by
    cases hroot
    rfl
  rw [@client_resolve_eq {} petDescription .v2 _ rfl rfl, hentries rfl]
  simp only [collect]
  delta definitionModels definitionModel sharedParameterModel OperationEntry.build
    OperationEntry.finish Parameter.buildAll Parameter.build? OperationEntry.body?
    Parameter.buildBody? Response.buildAll Response.ofMember? Response.build
  rw [Schema.build_eq fun _ => .error (.malformed .endless)]
  decide +kernel

theorem resolve_migrate_petDescription : Migration.Migratable petDescription ∧ ∃ client,
    (resolve {} petDescription).client = .ok client ∧
      (resolve {} (Migration.migrate .document petDescription)).client = .ok client := by
  obtain ⟨client, hclient⟩ := Except.exists_of_isOk resolve_petDescription
  exact ⟨migratable_petDescription, client, hclient,
    (resolve_migrate_iff {} migratable_petDescription client).mp hclient⟩

end Client
end OpenApi
