import OpenApi.Proofs.Inventory
import OpenApi.Proofs.QuotedOperations
import OpenApi.Proofs.ServerAddress
import OpenApi.Proofs.Termination

/-
Quoted keys make no difference, but to references.

The version of the interface and the address of the server are written out as well, so they have to
be free of numbers for keys.  Then a description and the same description with its keys quoted come
to the same client or cannot be resolved, with one exception (`Client.resolve_quoteKeys`): a segment
of a reference is looked up as it is written, and where it writes a number that is a key, the
reference leads nowhere until the key is quoted.
-/
namespace OpenApi

open Node

namespace Dialect

/-- Whether the texts that the address of the server is put together from have no numbers for keys,
and the first server does not stand under one. -/
def addressUnnumbered : Dialect → Node → Bool
  | .v2, document => ["schemes", "host", "basePath"].all fun key => (document.get key).isUnnumbered
  | .v3, document =>
    let servers := document.get "servers"
    (servers.entries?.getD []).all (·.1 != .int 0) &&
      match first servers with
      | .ok server =>
        ((server.get "variables").entries?.getD []).all fun e => (e.2.get "default").isUnnumbered
      | .error _ => true

end Dialect

/-- A description whose keys can be quoted. -/
structure QuotableDocument (document : Node) : Prop where
  keys : document.Quotable
  version : ((document.get "info").get "version").isUnnumbered = true
  address : ∀ dialect, Dialect.detect document = .ok dialect →
    dialect.addressUnnumbered document = true

section
variable {excused : Failure → Prop}

/-! ### The dialect, the version and the server -/

namespace Dialect

theorem member_quoteEntries {key : String} (h : isNumeral key = false) (root : Entries) :
    member key (root.map quoteEntry) = (member key root).quoteKeys := by
  rw [member, get?_quoteEntries h, member]
  cases Entries.get? key root <;> rfl

theorem members_quoteKeys (node : Node) :
    members node.quoteKeys = (members node).map (List.map quoteEntry) := by
  cases node with
  | map entries => rw [quoteKeys_map]; rfl
  | _ => rfl

theorem marker_quoteEntries (root : Entries) :
    marker (root.map quoteEntry) = (marker root).quoteKeys := by
  rw [marker, get?_quoteEntries (by decide), member_quoteEntries (by decide), marker]
  cases Entries.get? "swagger" root <;> rfl

theorem detect_quoteKeys (document : Node) :
    InStepUnless excused Eq (detect document) (detect document.quoteKeys) := by
  cases document with
  | map root =>
    rw [quoteKeys_map, detect, members_bind, detect, members_bind, marker_quoteEntries]
    have hunsupported (marker marker' : Node) : InStepUnless excused Eq
        (Failure.orTooLong marker.display? >>= fun _ => (.error (.unsupported marker)))
        (Failure.orTooLong marker'.display? >>= fun _ =>
          (.error (.unsupported marker') : Except Failure Dialect)) := by
      cases marker.display? <;> cases marker'.display? <;> exact True.intro
    cases marker root with
    | scalar s =>
      cases s with
      | str version => exact .refl _
      | _ => exact hunsupported _ _
    | _ => exact hunsupported _ _
  | _ => exact .refl _

/-- An entry that does not stand under zero is not found under it when the key is quoted. -/
theorem find?_quoteEntries {entries : Entries} (h : entries.all (·.1 != .int 0) = true) :
    Entries.find? (.int 0) (entries.map quoteEntry) =
      (Entries.find? (.int 0) entries).map quoteKeys := by
  induction entries with
  | nil => rfl
  | cons e rest ih =>
    obtain ⟨k, value⟩ := e
    rw [List.all_cons, Bool.and_eq_true, bne_iff_ne] at h
    have hsame : k.quoted.same (.int 0) = k.same (.int 0) := by
      cases hnatural : k.isNatural with
      | false => rw [Scalar.quoted_of_not_isNatural hnatural]
      | true =>
        obtain ⟨n, rfl, _, hquoted⟩ := Scalar.quoted_of_isNatural hnatural
        have hn : n ≠ 0 := fun hzero => h.1 (congrArg Scalar.int hzero)
        rw [hquoted]
        exact (beq_eq_false_iff_ne.mpr hn).symm
    rw [List.map_cons, quoteEntry, Entries.find?, Entries.find?, hsame]
    by_cases hfound : k.same (.int 0) = true
    · rw [if_pos hfound, if_pos hfound, Option.map_some]
    · rw [if_neg hfound, if_neg hfound, ih h.2]

theorem first_quoteKeys {node : Node} (h : (node.entries?.getD []).all (·.1 != .int 0) = true) :
    first node.quoteKeys = (first node).map quoteKeys := by
  cases node with
  | list items =>
    rw [quoteKeys_list]
    cases items <;> rfl
  | map entries =>
    have hentries : entries.all (·.1 != .int 0) = true := h
    rw [quoteKeys_map, first, find?_quoteEntries hentries, first]
    cases Entries.find? (.int 0) entries <;> rfl
  | scalar s =>
    rw [quoteKeys_scalar]
    cases s with
    | str text =>
      rw [first]
      cases text.toList <;> rfl
    | bytes bs => cases bs <;> rfl
    | _ => rfl
  | _ => rfl

theorem mem_of_find? {key : Scalar} {value : Node} {entries : Entries}
    (h : Entries.find? key entries = some value) : ∃ e ∈ entries, e.2 = value := by
  induction entries with
  | nil => cases h
  | cons e rest ih =>
    obtain ⟨k, found⟩ := e
    rw [Entries.find?] at h
    by_cases hsame : k.same key = true
    · rw [if_pos hsame] at h
      exact ⟨_, List.mem_cons_self, Option.some.inj h⟩
    · rw [if_neg hsame] at h
      obtain ⟨e, he, heq⟩ := ih h
      exact ⟨e, List.mem_cons_of_mem _ he, heq⟩

theorem quotable_of_first {node found : Node} (h : node.Quotable)
    (hfirst : first node = .ok found) : found.Quotable := by
  unfold first at hfirst
  split at hfirst
  · cases hfirst
    exact forall_maps_list_iff.mp h _ List.mem_cons_self
  · split at hfirst
    · cases hfirst
      exact nofun
    · cases hfirst
  · cases hfirst
    exact nofun
  · split at hfirst
    · rename_i value hvalue
      cases hfirst
      obtain ⟨e, he, rfl⟩ := mem_of_find? hvalue
      exact h.of_mem he
    · cases hfirst
  · cases hfirst

theorem orElse_quoteKeys {other : Node} (node : Node) (hother : other.quoteKeys = other) :
    orElse node.quoteKeys other = (orElse node other).quoteKeys := by
  rw [orElse, isTruthy_quoteKeys, orElse]
  by_cases htruthy : node.isTruthy = true
  · rw [if_pos htruthy, if_pos htruthy]
  · rw [if_neg htruthy, if_neg htruthy, hother]

theorem withoutSlashes_quoteKeys (node : Node) :
    withoutSlashes node.quoteKeys = withoutSlashes node := by
  cases node <;> rfl

theorem addressV2_quoteEntries {root : Entries}
    (h : addressUnnumbered .v2 (.map root) = true) :
    addressV2 (root.map quoteEntry) = addressV2 root := by
  have hsame (key : String) (hkey : key ∈ ["schemes", "host", "basePath"]) :
      member key (root.map quoteEntry) = member key root := by
    have hnumeral : ∀ key ∈ ["schemes", "host", "basePath"], isNumeral key = false := by decide
    rw [member_quoteEntries (hnumeral key hkey)]
    exact quoteKeys_of_isUnnumbered (List.all_eq_true.mp h key hkey)
  rw [addressV2, hsame _ (by decide), hsame _ (by decide), hsame _ (by decide), addressV2]

theorem variableText_quoteKeys {spec : Node} (h : (spec.get "default").isUnnumbered = true) :
    variableText spec.quoteKeys = variableText spec := by
  cases spec with
  | map entries =>
    rw [quoteKeys_map, variableText, get?_quoteEntries (by decide), variableText]
    cases hdefault : Entries.get? "default" entries with
    | none => rfl
    | some value =>
      rw [Node.get, Node.get?, hdefault, Option.getD_some] at h
      rw [Option.map_some, Option.getD_some, Option.getD_some, quoteKeys_of_isUnnumbered h]
  | _ => rfl

/-- Variables whose names and texts are the same when their keys are quoted. -/
def PlainSlots (slots : Entries) : Prop :=
  ∀ e ∈ slots, e.1.quoted.written = e.1.written ∧ (e.2.get "default").isUnnumbered = true

theorem substitute_quoteEntries {slots : Entries} (h : PlainSlots slots) (url : List Char) :
    substitute url (slots.map quoteEntry) = substitute url slots := by
  induction slots generalizing url with
  | nil => rfl
  | cons e rest ih =>
    obtain ⟨hkey, htext⟩ := h e List.mem_cons_self
    have hrest : PlainSlots rest := fun e he => h e (List.mem_cons_of_mem _ he)
    unfold substitute at ih ⊢
    rw [List.map_cons, List.foldlM_cons, List.foldlM_cons, quoteEntry]
    dsimp only
    rw [hkey, variableText_quoteKeys htext]
    simp only [ih hrest]

theorem plainSlots_of_members {node : Node} {slots : Entries}
    (h : PlainSlots (node.entries?.getD []))
    (hslots : members (orElse node (.map [])) = .ok slots) : PlainSlots slots := by
  rw [members_eq_ok_iff, orElse] at hslots
  by_cases htruthy : node.isTruthy = true
  · rw [if_pos htruthy] at hslots
    rwa [hslots] at h
  · rw [if_neg htruthy] at hslots
    cases hslots
    exact fun e he => absurd he List.not_mem_nil

/-- The address that a server declares, with its variables put in. -/
theorem addressOf_inStep {declared : Entries}
    (h : PlainSlots ((member "variables" declared).entries?.getD [])) :
    InStepUnless excused (fun address address' => address' = address.quoteKeys)
      (addressOf declared) (addressOf (declared.map quoteEntry)) := by
  rw [addressOf, addressOf, member_quoteEntries (by decide), member_quoteEntries (by decide),
    orElse_quoteKeys _ (show quoteKeys (.map []) = .map [] from rfl),
    orElse_quoteKeys _ (show quoteKeys (.str "") = .str "" from rfl)]
  have hslots : InStepUnless excused
      (fun slots slots' => slots' = slots.map quoteEntry ∧ PlainSlots slots)
      (members (orElse (member "variables" declared) (.map [])))
      (members (orElse (member "variables" declared) (.map [])).quoteKeys) :=
    .of_map (members_quoteKeys _) fun slots hslots => ⟨rfl, plainSlots_of_members h hslots⟩
  refine hslots.bind fun slots slots' _ ⟨heq, hplain⟩ => ?_
  subst heq
  rw [List.isEmpty_map]
  by_cases hempty : slots.isEmpty = true
  · rw [if_pos hempty, if_pos hempty]
    exact (rfl : _ = _)
  · rw [if_neg hempty, if_neg hempty]
    have hfails (first second : Except Failure (List Char)) :
        InStepUnless excused (fun address address' : Node => address' = address.quoteKeys)
          (first >>= fun _ => .error (.malformed .nearlyText))
          (second >>= fun _ => .error (.malformed .nearlyText)) := by
      cases first <;> cases second <;> exact True.intro
    cases orElse (member "url" declared) (.str "") with
    | scalar s =>
      cases s with
      | str url =>
        rw [quoteKeys_scalar]
        dsimp only
        rw [substitute_quoteEntries hplain]
        exact (InStepUnless.refl _).bind_eq fun text _ => rfl
      | bytes | moment => exact hfails _ _
      | _ => exact True.intro
    | _ => exact True.intro

theorem addressV3_inStep {root : Entries} (hroot : (Node.map root).Quotable)
    (h : addressUnnumbered .v3 (.map root) = true) :
    InStepUnless excused (fun address address' => address' = address.quoteKeys) (addressV3 root)
      (addressV3 (root.map quoteEntry)) := by
  rw [addressUnnumbered, Bool.and_eq_true] at h
  have hservers : (member "servers" root).Quotable := inherited_quotable.get hroot "servers"
  have hserver : InStepUnless excused
      (fun server server' => server' = server.quoteKeys ∧
        PlainSlots ((server.get "variables").entries?.getD []))
      (firstOr (member "servers" root) (.map []))
      (firstOr (member "servers" root).quoteKeys (.map [])) := by
    rw [firstOr, firstOr, isTruthy_quoteKeys]
    by_cases htruthy : (member "servers" root).isTruthy = true
    · rw [if_pos htruthy, if_pos htruthy]
      refine .of_map (first_quoteKeys h.1) fun server hserver => ⟨rfl, fun e he => ?_⟩
      have hvariables := inherited_quotable.get (quotable_of_first hservers hserver) "variables"
      have htexts := h.2
      rw [show (Node.map root).get "servers" = member "servers" root from rfl, hserver] at htexts
      exact ⟨hvariables.written_key he, List.all_eq_true.mp htexts e he⟩
    · rw [if_neg htruthy, if_neg htruthy]
      exact ⟨rfl, fun e he => absurd he List.not_mem_nil⟩
  rw [addressV3_eq, addressV3_eq, member_quoteEntries (by decide)]
  refine hserver.bind fun server server' _ hboth => ?_
  obtain ⟨rfl, hslots⟩ := hboth
  cases server with
  | map declared =>
    rw [quoteKeys_map]
    exact addressOf_inStep hslots
  | _ => exact True.intro

theorem server_inStep {dialect : Dialect} {root : Entries} (hroot : (Node.map root).Quotable)
    (h : dialect.addressUnnumbered (.map root) = true) :
    InStepUnless excused Eq (dialect.server (.map root))
      (dialect.server (.map (root.map quoteEntry))) := by
  cases dialect with
  | v2 =>
    show InStepUnless excused Eq (addressV2 root >>= withoutSlashes)
      (addressV2 (root.map quoteEntry) >>= withoutSlashes)
    rw [addressV2_quoteEntries h]
    exact .refl _
  | v3 =>
    show InStepUnless excused Eq (addressV3 root >>= withoutSlashes)
      (addressV3 (root.map quoteEntry) >>= withoutSlashes)
    refine (addressV3_inStep hroot h).bind fun address address' _ heq => ?_
    rw [heq, withoutSlashes_quoteKeys]
    exact .refl _

end Dialect

theorem versionOf_quoteEntries {root : Entries}
    (h : (((Node.map root).get "info").get "version").isUnnumbered = true) :
    versionOf (root.map quoteEntry) = versionOf root := by
  have hversion : (Dialect.member "info" (root.map quoteEntry)).get "version" =
      (Dialect.member "info" root).get "version" := by
    rw [Dialect.member_quoteEntries (by decide), get_quoteKeys (by decide)]
    exact quoteKeys_of_isUnnumbered h
  rw [versionOf, hversion, versionOf]

end

/-! ### Definitions -/

section
variable {scope : Scope}

theorem modelName_quoted {key : Scalar} (h : key.quoted.written = key.written) :
    modelName scope.quoted key.quoted = modelName scope key := by
  rw [modelName, h, modelName]
  rfl

theorem definitionModel_inStep (hdocument : scope.document.Quotable) {e : Scalar × Node}
    (hkey : e.1.quoted.written = e.1.written) (h : e.2.Quotable) :
    InStepUnless (Reference.MissesNumber scope.document) Eq (definitionModel scope e)
      (definitionModel scope.quoted (quoteEntry e)) := by
  unfold definitionModel
  rw [quoteEntry, modelName_quoted hkey]
  exact (InStepUnless.refl _).bind_eq fun name _ => Schema.build_quoteKeys hdocument h name true

theorem sharedParameterModel_inStep (hdocument : scope.document.Quotable) {e : Scalar × Node}
    (hkey : e.1.quoted.written = e.1.written) (h : e.2.Quotable) :
    InStepUnless (Reference.MissesNumber scope.document) Eq (sharedParameterModel scope e)
      (sharedParameterModel scope.quoted (quoteEntry e)) := by
  unfold sharedParameterModel
  rw [quoteEntry, modelName_quoted hkey]
  refine (InStepUnless.refl _).bind_eq fun name _ => ?_
  dsimp only
  rw [get_quoteKeys (by decide), get_quoteKeys (by decide), get_quoteKeys (by decide),
    text?_quoteKeys, isTrue_quoteKeys]
  exact (Schema.build_quoteKeys hdocument (inherited_quotable.get h "schema") name true).bind_eq
    fun model _ => .refl _

theorem declaredParameters_quoteKeys (scope : Scope) :
    declaredParameters scope.quoted = (declaredParameters scope).map quoteEntry := by
  obtain ⟨document, dialect⟩ := scope
  cases dialect with
  | v2 => rfl
  | v3 =>
    have hschema (e : Scalar × Node) :
        ((quoteEntry e).2.get "schema").isMap = (e.2.get "schema").isMap := by
      rw [quoteEntry, get_quoteKeys (by decide), isMap_quoteKeys]
    rw [Scope.quoted, declaredParameters, declaredParameters]
    dsimp only
    rw [get_quoteKeys (by decide), get_quoteKeys (by decide), getD_entries?_quoteKeys,
      List.filter_map]
    exact congrArg (fun p => (List.filter p _).map quoteEntry) (funext hschema)

/-- The parameters that operations share, with the keys under which they stand. -/
theorem quotable_of_mem_declaredParameters (hdocument : scope.document.Quotable)
    {e : Scalar × Node} (he : e ∈ declaredParameters scope) :
    e.1.quoted.written = e.1.written ∧ e.2.Quotable := by
  unfold declaredParameters at he
  split at he
  · cases he
  · have hcomponents := inherited_quotable.get hdocument "components"
    have hparameters := inherited_quotable.get hcomponents "parameters"
    have hmem := List.mem_of_mem_filter he
    exact ⟨hparameters.written_key hmem, inherited_quotable.of_mem_entries? hparameters hmem⟩

theorem definitionModels_inStep (hdocument : scope.document.Quotable) {root : Entries}
    (rooted : scope.document = .map root) :
    InStepUnless (Reference.MissesNumber scope.document) Eq (definitionModels scope)
      (definitionModels scope.quoted) := by
  have hquoted (entries : Entries) :
      List.Forall₂ (fun e e' => e' = quoteEntry e) entries (entries.map quoteEntry) :=
    List.forall₂_map_right_iff.mpr (List.forall₂_same.mpr fun _ _ => rfl)
  have hschemas : scope.quoted.dialect.schemas scope.quoted.document =
      (scope.dialect.schemas scope.document).map quoteEntry := Scope.schemas_quoteKeys _ _
  have hdefinitions := inherited_quotable.foldl_get scope.dialect.schemasPath hdocument
  have rooted' : scope.quoted.document = .map (root.map quoteEntry) := by
    rw [Scope.quoted, rooted, quoteKeys_map]
  unfold definitionModels
  rw [hschemas, Client.sharedParameters_eq rooted, Client.sharedParameters_eq rooted',
    declaredParameters_quoteKeys]
  refine (InStepUnless.mapM (hquoted _) fun e he e' heq => ?_).bind_eq fun models _ => ?_
  · exact heq ▸ definitionModel_inStep hdocument (hdefinitions.written_key he)
      (inherited_quotable.of_mem_entries? hdefinitions he)
  · refine (InStepUnless.mapM (hquoted (declaredParameters scope)) fun e he e' heq => ?_).bind_eq
      fun _ _ => .refl _
    have hentry := quotable_of_mem_declaredParameters hdocument he
    exact heq ▸ sharedParameterModel_inStep hdocument hentry.1 hentry.2

end

namespace Client

theorem client_inStep (preferences : Preferences) {document : Node}
    (h : QuotableDocument document) :
    InStepUnless (Reference.MissesNumber document) Eq (resolve preferences document).client
      (resolve preferences document.quoteKeys).client := by
  have hdetect : InStepUnless (fun _ => False) Eq (Dialect.detect document)
      (Dialect.detect document.quoteKeys) := Dialect.detect_quoteKeys document
  rcases hdetect.cases with
    ⟨dialect, _, hdialect, hdialect', rfl⟩ | ⟨failure, hfailure, hnever | ⟨failure', hfailure'⟩⟩
  · obtain ⟨root, rfl⟩ : ∃ root, document = .map root := by
      obtain ⟨root, hroot, _⟩ := Except.bind_eq_ok_iff.mp hdialect
      exact ⟨root, Dialect.members_eq_ok_iff.mp hroot⟩
    have hdocument : (⟨.map root, dialect⟩ : Scope).document.Quotable := h.keys
    have hshop : (⟨⟨.map root, dialect⟩, preferences⟩ : Workshop).document.Quotable := h.keys
    have hmodels : InStepUnless (Reference.MissesNumber (.map root)) Eq
        (definitionModels ⟨.map root, dialect⟩)
        (definitionModels ⟨(Node.map root).quoteKeys, dialect⟩) :=
      definitionModels_inStep hdocument rfl
    have hentries : List.Forall₂ OperationEntry.Quoted (operationEntries preferences root)
        ((operationEntries preferences root).map OperationEntry.quoted) :=
      List.forall₂_map_right_iff.mpr (List.forall₂_same.mpr fun entry hentry =>
        ⟨quotable_of_mem_operationEntries h.keys hentry, rfl⟩)
    have hcollected : InStepUnless (Reference.MissesNumber (.map root)) Eq
        (collect ⟨⟨.map root, dialect⟩, preferences⟩ [] (operationEntries preferences root)).outcome
        (collect ⟨⟨(Node.map root).quoteKeys, dialect⟩, preferences⟩ []
          ((operationEntries preferences root).map OperationEntry.quoted)).outcome :=
      (OperationEntry.corresponds_quoted hshop).collect_inStep hentries []
    rw [client_resolve_eq rfl hdialect, client_resolve_eq (quoteKeys_map root) hdialect',
      operationEntries_quoteEntries]
    refine hmodels.bind_eq fun models _ => ?_
    rw [ofParts_eq, ofParts_eq]
    refine hcollected.bind_eq fun services _ => ?_
    rw [quoteKeys_map]
    show InStepUnless _ Eq
      (versionOf root >>= fun version => dialect.server (.map root) >>= _)
      (versionOf (root.map quoteEntry) >>= fun version =>
        dialect.server (.map (root.map quoteEntry)) >>= _)
    rw [versionOf_quoteEntries h.version]
    refine (InStepUnless.refl (versionOf root)).bind_eq fun version _ => ?_
    exact (Dialect.server_inStep h.keys (h.address dialect hdialect)).bind_eq fun _ _ => .refl _
  · exact absurd hnever not_false
  · unfold resolve
    rw [hfailure, hfailure']
    exact True.intro

/-- Quoting the keys of a description keeps the client that it is resolved to.  A description that
can be resolved only afterwards has a reference that meets a number, and this reference is why it
could not be resolved before. -/
theorem resolve_quoteKeys (preferences : Preferences) {document : Node}
    (h : QuotableDocument document) :
    (∀ client, (resolve preferences document).client = .ok client →
        (resolve preferences document.quoteKeys).client = .ok client) ∧
      ∀ client, (resolve preferences document.quoteKeys).client = .ok client →
        (resolve preferences document).client = .ok client ∨
          ∃ ref segment, (resolve preferences document).client =
              .error (.unresolvable ref (.missingKey segment)) ∧
            Reference.MeetsNumber document ref segment := by
  rcases (client_inStep preferences h).cases with
    ⟨client, _, hclient, hclient', rfl⟩ | ⟨failure, hfailure, hexcused | ⟨failure', hfailure'⟩⟩
  · rw [hclient, hclient']
    exact ⟨fun _ => id, fun _ => .inl⟩
  · obtain ⟨ref, segment, rfl, hmeets⟩ := hexcused
    rw [hfailure]
    exact ⟨nofun, fun _ _ => .inr ⟨ref, segment, rfl, hmeets⟩⟩
  · rw [hfailure, hfailure']
    exact ⟨nofun, nofun⟩

/-- A description whose status codes are numbers. -/
def statusDescription : Node :=
  .map
    [(.str "openapi", .str "3.0.0"),
      (.str "info", .map [(.str "version", .str "1")]),
      (.str "paths", .map [(.str "/pets", .map [(.str "get", getPets)])]),
      (.str "components", .map [(.str "schemas", .map [(.str "Pet", pet)])])]
where
  getPets : Node := .map
    [(.str "parameters", .list [.map [(.str "name", .str "limit"), (.str "in", .str "query")]]),
      (.str "responses", .map
        [(.int 200, .map [(.str "content", .map
            [(.str "application/json", .map [(.str "schema", .map
              [(.str "$ref", .str "#/components/schemas/Pet")])])])]),
          (.int 404, .map [(.str "description", .str "No pets")])])]
  pet : Node := .map
    [(.str "properties", .map [(.int 1, .map [(.str "type", .str "string")])])]

theorem quotable_statusDescription : QuotableDocument statusDescription where
  keys := by decide +kernel
  version := by decide +kernel
  address := by
    intro dialect hdialect
    have hv3 : Dialect.detect statusDescription = .ok .v3 := rfl
    cases hv3.symm.trans hdialect
    decide +kernel

theorem resolve_statusDescription : (resolve {} statusDescription).client.isOk = true := by
  have hentries {root : Entries} (hroot : statusDescription = .map root) :
      operationEntries {} root =
        [⟨.str "/pets", "get", "Default", statusDescription.getPets, []⟩] := by
    cases hroot
    rfl
  rw [@client_resolve_eq {} statusDescription .v3 _ rfl rfl, hentries rfl]
  simp only [collect]
  delta definitionModels definitionModel sharedParameterModel OperationEntry.build
    OperationEntry.finish Parameter.buildAll Parameter.build? OperationEntry.body?
    Parameter.buildBody? Response.buildAll Response.ofMember? Response.build
  rw [Schema.build_eq fun _ => .error (.malformed .endless)]
  decide +kernel

theorem resolve_quoteKeys_statusDescription : QuotableDocument statusDescription ∧ ∃ client,
    (resolve {} statusDescription).client = .ok client ∧
      (resolve {} statusDescription.quoteKeys).client = .ok client := by
  obtain ⟨client, hclient⟩ := Except.exists_of_isOk resolve_statusDescription
  exact ⟨quotable_statusDescription, client, hclient,
    (resolve_quoteKeys {} quotable_statusDescription).1 client hclient⟩

/-- A description in which one operation answers as another one does. -/
def sharedAnswer : Node :=
  .map
    [(.str "openapi", .str "3.0.0"),
      (.str "paths", .map [(.str "/pets", .map
        [(.str "get", .map [(.str "responses", .map
            [(.int 200, .map [(.str "description", .str "Pets")])])]),
          (.str "put", .map [(.str "responses", .map
            [(.int 200, .map [(.str "$ref", .str "#/paths/~1pets/get/responses/200")])])])])])]

theorem resolve_sharedAnswer : (resolve {} sharedAnswer).client.isOk = false ∧
    (resolve {} sharedAnswer.quoteKeys).client.isOk = true := by
  decide +kernel

/-- Whether all keys are texts or natural numbers, and no text has the digits of a number. -/
def hasPlainKeys (document : Node) : Bool :=
  document.maps.all fun entries =>
    Entries.keysApart entries && entries.all fun e => e.1.isNatural || (Node.scalar e.1).str?.isSome

/-- An unquoted status code is not found by a reference that writes it. -/
theorem not_resolve_quoteKeys : ¬ ∀ document : Node, hasPlainKeys document = true →
    ∀ (preferences : Preferences) (client : Client),
      (resolve preferences document).client = .ok client ↔
        (resolve preferences document.quoteKeys).client = .ok client := by
  intro hall
  have hkeys : hasPlainKeys sharedAnswer = true := by decide +kernel
  obtain ⟨client, hclient⟩ := Except.exists_of_isOk resolve_sharedAnswer.2
  have hfails := resolve_sharedAnswer.1
  rw [(hall sharedAnswer hkeys {} client).mpr hclient] at hfails
  cases hfails

end Client
end OpenApi
