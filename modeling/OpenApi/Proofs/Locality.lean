import OpenApi.Proofs.AddedModels
import OpenApi.Proofs.CorrespondingOperations
import OpenApi.Proofs.Inventory

/-
Definitions that are added to a description.

Each operation and each definition is built from its own schemas and from what their references lead
to, and reading never arrives at a reference that the description does not have.  So whatever could
be built is built again where the description has grown (`Grows`): the same services, and the same
models, with those of the new definitions between them (`Client.resolve_withDefinitions`).  Failures
are not carried over: a reference that led nowhere may lead to a new definition now.
-/
namespace OpenApi

namespace Grows

variable {dialect : Dialect} {document grown node node' : Node} {preferences : Preferences}

/-- What an operation is built from has no references but those of the description. -/
structure EntryWithin (document : Node) (entry : OperationEntry) : Prop where
  node : RefersWithin document entry.node
  pathParameters : ∀ node ∈ entry.pathParameters, RefersWithin document node

theorem target_inStep (h : Grows dialect document grown) (hnode : RefersWithin document node) :
    InStepUnless (fun _ => True) (Kept (RefersWithin document)) (Reference.target document node)
      (Reference.target grown node) := by
  have hcarries : Carries (Reference.target document node) (Reference.target grown node) := by
    unfold Reference.target
    cases href : node.get? "$ref" with
    | some ref => exact h.carries_resolve hnode href
    | none => exact Carries.refl _
  exact .of_carries hcarries fun target htarget =>
    ⟨(inherited_refersWithin document).target (fun _ hr => hr) hnode htarget, rfl⟩

theorem schemaTarget_inStep (h : Grows dialect document grown) {schema : Node}
    (hschema : RefersWithin document schema) :
    InStepUnless (fun _ => True) (Kept (RefersWithin document))
      (Response.schemaTarget ⟨⟨document, dialect⟩, preferences⟩ schema)
      (Response.schemaTarget ⟨⟨grown, dialect⟩, preferences⟩ schema) := by
  have hcarries : Carries (Response.schemaTarget ⟨⟨document, dialect⟩, preferences⟩ schema)
      (Response.schemaTarget ⟨⟨grown, dialect⟩, preferences⟩ schema) := by
    unfold Response.schemaTarget
    split
    · rename_i ref href
      have hget : schema.get? "$ref" = some (.str ref) := Node.get?_of_get href nofun
      split
      · exact h.carries_resolve hschema hget
      · exact Carries.refl _
    · exact Carries.refl _
  exact .of_carries hcarries fun found hfound =>
    ⟨(inherited_refersWithin document).schemaTarget (fun _ hr => hr) hschema hfound, rfl⟩

section
variable {excused : Failure → Prop}

theorem sameParameter_kept (h : Kept (RefersWithin document) node node') :
    SameParameter ⟨⟨document, dialect⟩, preferences⟩ ⟨⟨grown, dialect⟩, preferences⟩
      (Kept (RefersWithin document)) excused node node' := by
  obtain ⟨hnode, rfl⟩ := h
  exact
    { isMap := rfl
      location := rfl
      wireName := fun _ => rfl
      schema := fun _ => .of_self fun _ hschema =>
        ⟨(inherited_refersWithin document).parameterSchema hnode hschema, rfl⟩
      ofModel := fun _ _ _ _ => rfl }

theorem sameBody_kept (h : Kept (RefersWithin document) node node') :
    SameBody ⟨⟨document, dialect⟩, preferences⟩ ⟨⟨grown, dialect⟩, preferences⟩
      (Kept (RefersWithin document)) excused node node' := by
  obtain ⟨hnode, rfl⟩ := h
  refine ⟨rfl, .of_self fun choice hchoice => ?_, fun _ _ => rfl⟩
  have own := inherited_refersWithin document
  cases choice with
  | none => exact .none
  | some chosen => exact .some ⟨rfl, own.select (own.get hnode "content") hchoice, rfl⟩

theorem sameResponse_kept (h : Kept (RefersWithin document) node node') :
    SameResponse ⟨⟨document, dialect⟩, preferences⟩ ⟨⟨grown, dialect⟩, preferences⟩
      (Kept (RefersWithin document)) excused node node' := by
  obtain ⟨hnode, rfl⟩ := h
  refine ⟨.of_self fun schema hschema => ?_, rfl, fun _ => rfl⟩
  cases schema with
  | none => exact .none
  | some found => exact .some ⟨(inherited_refersWithin document).responseSchema hnode hschema, rfl⟩

end

theorem body?_inStep (h : Grows dialect document grown) {entry : OperationEntry}
    (hnode : RefersWithin document entry.node) :
    InStepUnless (fun _ => True) Eq (entry.body? ⟨⟨document, dialect⟩, preferences⟩)
      (entry.body? ⟨⟨grown, dialect⟩, preferences⟩) := by
  unfold OperationEntry.body?
  split
  · cases hbody : entry.node.get? "requestBody" with
    | none => exact .refl _
    | some body =>
      have hwithin := (inherited_refersWithin document).part (Node.occursIn_of_get? hbody) hnode
      exact Parameter.buildBody?_inStep (Schema.corresponds_grows h).sameModels
        ((h.target_inStep hwithin).imp fun _ _ _ => sameBody_kept)
  · exact .refl _

/-- The operations of a description and those of one that has grown out of it correspond. -/
theorem corresponds_operations (h : Grows dialect document grown) :
    OperationCorrespondence ⟨⟨document, dialect⟩, preferences⟩ ⟨⟨grown, dialect⟩, preferences⟩
      (Kept (RefersWithin document)) (fun _ => True) (Kept (EntryWithin document)) where
  models := (Schema.corresponds_grows h).sameModels
  schemaTarget {schema schema'} hschema := by
    rw [hschema.eq]
    exact h.schemaTarget_inStep hschema.holds
  preferences := rfl
  path hentry := hentry.eq ▸ rfl
  parameters {entry entry'} hentry := by
    have own := inherited_refersWithin document
    rw [hentry.eq, List.forall₂_same]
    intro node hnode
    have hwithin : RefersWithin document node := by
      rcases List.mem_append.mp hnode with hnode | hnode
      · exact hentry.holds.pathParameters node hnode
      · exact own.of_mem_items? (own.get hentry.holds.node "parameters") hnode
    exact (h.target_inStep hwithin).imp fun _ _ _ => sameParameter_kept
  body {entry entry'} hentry := by
    rw [hentry.eq]
    exact h.body?_inStep hentry.holds.node
  responses {entry entry'} hentry := by
    have own := inherited_refersWithin document
    rw [hentry.eq, List.forall₂_same]
    intro member hmember
    have hwithin := own.of_mem_entries? (own.get hentry.holds.node "responses") hmember
    exact ⟨rfl, fun _ => (h.target_inStep hwithin).imp fun _ _ _ => sameResponse_kept⟩
  assemble hentry _ _ _ _ := hentry.eq ▸ rfl

/-- The services of a description are those of a description that has grown. -/
theorem carries_collect (h : Grows dialect document grown) {entries : List OperationEntry}
    (hentries : ∀ entry ∈ entries, RefersWithin document entry.node ∧
      ∀ node ∈ entry.pathParameters, RefersWithin document node) (services : List Service) :
    Carries (collect ⟨⟨document, dialect⟩, preferences⟩ services entries).outcome
      (collect ⟨⟨grown, dialect⟩, preferences⟩ services entries).outcome := by
  have hkept : List.Forall₂ (Kept (EntryWithin document)) entries entries :=
    List.forall₂_same.mpr fun entry hentry =>
      ⟨⟨(hentries entry hentry).1, (hentries entry hentry).2⟩, rfl⟩
  exact (h.corresponds_operations.collect_inStep hkept services).carries

/-! ### Definitions -/

theorem carries_definition (h : Grows dialect document grown) {entry : Scalar × Node}
    (hentry : RefersWithin document entry.2) :
    Carries (definitionModel ⟨document, dialect⟩ entry)
      (definitionModel ⟨grown, dialect⟩ entry) :=
  (Carries.refl (modelName ⟨document, dialect⟩ entry.1)).bind fun name _ =>
    Schema.carries_build h hentry name true

theorem carries_sharedParameter (h : Grows dialect document grown) {entry : Scalar × Node}
    (hentry : RefersWithin document entry.2) :
    Carries (sharedParameterModel ⟨document, dialect⟩ entry)
      (sharedParameterModel ⟨grown, dialect⟩ entry) := by
  have hschema := (inherited_refersWithin document).get hentry "schema"
  refine (Carries.refl (modelName ⟨document, dialect⟩ entry.1)).bind fun name _ => ?_
  exact (Schema.carries_build h hschema name true).bind fun model _ => Carries.refl _

end Grows

/-! ### The rest of the description -/

section
variable {dialect : Dialect} {more root : Entries}

/-- A description with more definitions. -/
def withDefinitions (dialect : Dialect) (more root : Entries) : Entries :=
  Entries.addAt more dialect.schemasPath root

theorem get?_withDefinitions {key : String} (h : key ∉ ["definitions", "components"]) :
    Entries.get? key (withDefinitions dialect more root) = Entries.get? key root := by
  simp only [List.mem_cons, List.not_mem_nil, or_false, not_or] at h
  cases dialect with
  | v2 => exact Entries.get?_addAt_of_ne h.1
  | v3 => exact Entries.get?_addAt_of_ne h.2

theorem member_withDefinitions {key : String} (h : key ∉ ["definitions", "components"]) :
    Dialect.member key (withDefinitions dialect more root) = Dialect.member key root := by
  rw [Dialect.member, get?_withDefinitions h, Dialect.member]

theorem detect_withDefinitions :
    Dialect.detect (.map (withDefinitions dialect more root)) = Dialect.detect (.map root) := by
  have hmarker : Dialect.marker (withDefinitions dialect more root) = Dialect.marker root := by
    rw [Dialect.marker, get?_withDefinitions (by decide), member_withDefinitions (by decide),
      Dialect.marker]
  unfold Dialect.detect
  rw [Dialect.members_bind, Dialect.members_bind, hmarker]

theorem server_withDefinitions : dialect.server (.map (withDefinitions dialect more root)) =
    dialect.server (.map root) := by
  have hv2 : Dialect.addressV2 (withDefinitions dialect more root) = Dialect.addressV2 root := by
    unfold Dialect.addressV2
    rw [member_withDefinitions (by decide), member_withDefinitions (by decide),
      member_withDefinitions (by decide)]
  have hv3 : Dialect.addressV3 (withDefinitions dialect more root) = Dialect.addressV3 root := by
    unfold Dialect.addressV3
    rw [member_withDefinitions (by decide)]
  unfold Dialect.server
  rw [Dialect.members_bind, Dialect.members_bind, hv2, hv3]

theorem versionOf_withDefinitions :
    versionOf (withDefinitions dialect more root) = versionOf root := by
  rw [versionOf, member_withDefinitions (by decide), versionOf]

theorem operationEntries_withDefinitions (preferences : Preferences) :
    operationEntries preferences (withDefinitions dialect more root) =
      operationEntries preferences root := by
  rw [operationEntries, member_withDefinitions (by decide), operationEntries]

theorem declaredParameters_withDefinitions (hroom : Entries.HasRoom dialect.schemasPath root) :
    declaredParameters ⟨.map (withDefinitions dialect more root), dialect⟩ =
      declaredParameters ⟨.map root, dialect⟩ := by
  cases dialect with
  | v2 => rfl
  | v3 =>
    have hgrown : (Node.map (withDefinitions .v3 more root)).get? "components" =
        some (.map (Entries.addAt more ["schemas"]
          (((Entries.get? "components" root).bind Node.entries?).getD []))) :=
      Entries.get?_addAt_self
    have hparameters : ((Node.map (withDefinitions .v3 more root)).get "components").get
        "parameters" = ((Node.map root).get "components").get "parameters" := by
      rw [Node.get, Node.get, hgrown, Option.getD_some, Node.get?,
        Entries.get?_addAt_of_ne (by decide), Node.get, Node.get, Node.get?]
      cases hcomponents : Entries.get? "components" root with
      | none => rfl
      | some child =>
        obtain ⟨inner, rfl, _⟩ := hroom child hcomponents
        rfl
    unfold declaredParameters
    dsimp only
    rw [hparameters]

/-- The models of the new definitions stand between those of the old ones and those of the shared
parameters. -/
theorem definitionModels_withDefinitions (hroom : Entries.HasRoom dialect.schemasPath root)
    (h : Grows dialect (.map root) (.map (withDefinitions dialect more root)))
    {models added : List Model} (hmodels : definitionModels ⟨.map root, dialect⟩ = .ok models)
    (hadded : more.mapM (definitionModel ⟨.map (withDefinitions dialect more root), dialect⟩) =
      .ok added) :
    ∃ schemas parameters, models = schemas ++ parameters ∧
      definitionModels ⟨.map (withDefinitions dialect more root), dialect⟩ =
        .ok (schemas ++ added ++ parameters) := by
  have own := inherited_refersWithin (.map root)
  obtain ⟨schemas, hschemas, hmodels⟩ := Except.bind_eq_ok_iff.mp hmodels
  obtain ⟨shared, hshared, hmodels⟩ := Except.bind_eq_ok_iff.mp hmodels
  obtain ⟨parameters, hparameters, hmodels⟩ := Except.bind_eq_ok_iff.mp hmodels
  cases hmodels
  refine ⟨schemas, parameters, rfl, ?_⟩
  have hold : Carries ((dialect.schemas (.map root)).mapM (definitionModel ⟨.map root, dialect⟩))
      ((dialect.schemas (.map root)).mapM
        (definitionModel ⟨.map (withDefinitions dialect more root), dialect⟩)) :=
    Carries.mapM fun entry hentry => h.carries_definition (own.schemas (fun _ hr => hr) hentry)
  have hkept : Carries (shared.mapM (sharedParameterModel ⟨.map root, dialect⟩))
      (shared.mapM
        (sharedParameterModel ⟨.map (withDefinitions dialect more root), dialect⟩)) :=
    Carries.mapM fun entry hentry =>
      h.carries_sharedParameter (own.sharedParameters (fun _ hr => hr) hshared hentry)
  refine Except.bind_eq_ok_iff.mpr ⟨schemas ++ added, ?_, ?_⟩
  · have hall : dialect.schemas (.map (withDefinitions dialect more root)) =
        dialect.schemas (.map root) ++ more := schemas_addAt hroom
    show (dialect.schemas (.map (withDefinitions dialect more root))).mapM _ = _
    rw [hall, List.mapM_append, hold _ hschemas, hadded]
    rfl
  · refine Except.bind_eq_ok_iff.mpr ⟨shared, ?_, ?_⟩
    · rw [Client.sharedParameters_eq rfl] at hshared ⊢
      rw [declaredParameters_withDefinitions hroom]
      exact hshared
    · rw [hkept _ hparameters]
      rfl

end

namespace Client

/-- Definitions that are added to a description that can be resolved add their models to the client
and change nothing else, if they can be built, have no discriminators, and are not referred to all
at once. -/
theorem resolve_withDefinitions {preferences : Preferences} {dialect : Dialect}
    {more root : Entries} {client : Client}
    (h : (Client.resolve preferences (.map root)).client = .ok client)
    (detected : Dialect.detect (.map root) = .ok dialect)
    (room : Entries.HasRoom dialect.schemasPath root)
    (apart : ∀ ref ∈ (Node.map root).references, ¬ Reference.Encloses dialect (.map root) ref)
    (plain : ∀ entry ∈ more, entry.2.get? "discriminator" = none)
    (built : ∀ entry ∈ more, ∃ model,
      definitionModel ⟨.map (withDefinitions dialect more root), dialect⟩ entry = .ok model) :
    ∃ models added,
      (Client.resolve preferences (.map (withDefinitions dialect more root))).client =
        .ok { client with models := models } ∧
      List.Forall₂ (fun entry model => ∃ before,
        definitionModel ⟨.map (withDefinitions dialect more root), dialect⟩ entry = .ok before ∧
          model = before.tidy) more added ∧
      client.models.Sublist models ∧ models.Perm (client.models ++ added) := by
  obtain ⟨dialect', root', before, detected', made⟩ := exists_madeFrom_of_resolve h
  cases detected.symm.trans detected'
  cases made.rooted
  have grows : Grows dialect (.map root) (.map (withDefinitions dialect more root)) :=
    grows_addAt room apart plain
  obtain ⟨added, hadded⟩ := Except.exists_mapM built
  obtain ⟨schemas, parameters, rfl, hmodels⟩ :=
    definitionModels_withDefinitions room grows made.built hadded
  refine ⟨sortByName Model.name ((schemas ++ added ++ parameters).map Model.tidy),
    added.map Model.tidy, ?_, forall₂_tidy hadded, ?_, ?_⟩
  · have own := inherited_refersWithin (.map root)
    have houtcome := Collected.outcome_eq_ok_iff.mpr ⟨made.finished, rfl⟩
    have hservices := grows.carries_collect
      (fun entry hentry => own.operationEntries (fun _ hr => hr) hentry) [] _ houtcome
    rw [client_resolve_eq rfl (detect_withDefinitions.trans detected), hmodels]
    show ofParts _ _ _ = _
    rw [ofParts_eq, operationEntries_withDefinitions]
    refine Except.bind_eq_ok_iff.mpr ⟨_, hservices, ?_⟩
    refine Except.bind_eq_ok_iff.mpr ⟨withDefinitions dialect more root, rfl, ?_⟩
    refine Except.bind_eq_ok_iff.mpr
      ⟨client.version, versionOf_withDefinitions.trans made.version_eq, ?_⟩
    refine Except.bind_eq_ok_iff.mpr
      ⟨client.server, server_withDefinitions.trans made.server_eq, ?_⟩
    rw [made.services_eq]
    rfl
  · rw [made.models_eq]
    have hsublist := (List.sublist_append_left schemas added).append_right parameters
    exact sublist_sortByName Model.name (hsublist.map Model.tidy)
  · have hperm : (schemas ++ added ++ parameters).Perm (schemas ++ parameters ++ added) := by
      rw [List.append_assoc, List.append_assoc]
      exact List.perm_append_comm.append_left schemas
    refine (sortByName_perm _ _).trans ((hperm.map Model.tidy).trans ?_)
    rw [List.map_append, made.models_eq]
    exact (sortByName_perm _ _).symm.append_right (added.map Model.tidy)

/-- One more definition for the description of pets, which refers to an old one. -/
def shelter : Entries :=
  [(.str "Shelter", .map
    [(.str "type", .str "array"), (.str "items", petDocument.reference "#/definitions/Pet")])]

theorem exists_definitionModel_shelter {root : Entries} (hroot : petDocument = .map root) :
    ∀ entry ∈ shelter, ∃ model,
      definitionModel ⟨.map (withDefinitions .v2 shelter root), .v2⟩ entry = .ok model := by
  intro entry hentry
  cases List.mem_singleton.mp hentry
  refine Except.exists_of_isOk ?_
  cases hroot
  delta definitionModel
  rw [Schema.build_eq fun _ => .error (.malformed .endless)]
  decide +kernel

theorem not_encloses_petDocument :
    ∀ ref ∈ petDocument.references, ¬ Reference.Encloses .v2 petDocument ref := by
  have hreferences : petDocument.references = ["#/definitions/Pet", "#/definitions/Owner"] := rfl
  have hsegments : ∀ ref ∈ ["#/definitions/Pet", "#/definitions/Owner"],
      (Reference.segments? ref).all (fun segments => ¬ segments <+: Dialect.schemasPath .v2) =
        true := by decide +kernel
  rintro ref href ⟨segments, target, hfound, hprefix, _⟩
  rw [hreferences] at href
  have hapart := hsegments ref href
  rw [hfound] at hapart
  exact of_decide_eq_true hapart hprefix

theorem resolve_withShelter : ∃ root client models added, petDocument = .map root ∧
    (Client.resolve {} petDocument).client = .ok client ∧
      (Client.resolve {} (.map (withDefinitions .v2 shelter root))).client =
        .ok { client with models := models } ∧
      models.Perm (client.models ++ added) ∧ added.length = 1 := by
  obtain ⟨client, hclient⟩ := Except.exists_of_isOk resolve_petDocument
  obtain ⟨root, hroot⟩ : ∃ root, petDocument = .map root := ⟨_, rfl⟩
  have hroom : Entries.HasRoom (Dialect.schemasPath .v2) root := by
    cases hroot
    rintro child ⟨⟩
    exact ⟨_, rfl, True.intro⟩
  have hplain : ∀ entry ∈ shelter, entry.2.get? "discriminator" = none := by
    intro entry hentry
    cases List.mem_singleton.mp hentry
    rfl
  have hdetect : Dialect.detect (.map root) = .ok .v2 := by
    cases hroot
    rfl
  obtain ⟨models, added, hmodels, hadded, _, hperm⟩ :=
    resolve_withDefinitions (hroot ▸ hclient) hdetect hroom (hroot ▸ not_encloses_petDocument)
      hplain (exists_definitionModel_shelter hroot)
  exact ⟨root, client, models, added, hroot, hclient, hmodels, hperm, hadded.length_eq.symm⟩

end Client
end OpenApi
