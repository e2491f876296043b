import Mathlib.Data.List.Dedup
import Mathlib.Data.List.Perm.Basic
import OpenApi.Proofs.Imports

/-
What a client holds is what its description declares.

On the way from the description to the client an operation is built once for each tag, filed under a
service whose name keeps less than the tag, tidied, numbered, and sorted with its service.  None of
these steps drops an operation, makes one twice or puts it into a service of another name.  Filing
is the step that could, so it comes first: it adds one operation to all that are filed
(`perm_operations_file`), keeps the names of the services different (`nodup_names_file`), and files
under the operation's own service (`WellFiled.file`).

Then the operations are counted by what can be read off the description alone, `declaredPlaces`: a
method, a path and a tag.  `Client.Inventory` says what the client holds, and `inventory_of_resolve`
that this is so for every description that can be resolved.
-/
namespace OpenApi

/-! ### Filing -/

/-- All operations of a list of services. -/
def filedOperations (services : List Service) : List Operation := services.flatMap (·.operations)

/-- Whether services have different names, and each operation stands in the service of its own. -/
structure WellFiled (services : List Service) : Prop where
  nodup : (services.map (·.name)).Nodup
  own : ∀ service ∈ services, ∀ operation ∈ service.operations, operation.service = service.name

namespace Service

variable {operation : Operation} {services : List Service}

theorem file_cons_of_eq {first : Service} (h : first.name = operation.service) :
    file operation (first :: services) =
      { first with
        operations := first.operations ++ [operation]
        imports := first.imports ++ operation.imports } :: services :=
  if_pos h

theorem file_cons_of_ne {first : Service} (h : first.name ≠ operation.service) :
    file operation (first :: services) = first :: file operation services :=
  if_neg h

theorem perm_operations_file (operation : Operation) (services : List Service) :
    (filedOperations (file operation services)).Perm (operation :: filedOperations services) := by
  induction services with
  | nil => exact List.Perm.refl _
  | cons first rest ih =>
    by_cases hname : first.name = operation.service
    · rw [file_cons_of_eq hname]
      show (first.operations ++ [operation] ++ filedOperations rest).Perm
        (operation :: (first.operations ++ filedOperations rest))
      rw [List.append_assoc]
      exact List.perm_middle
    · rw [file_cons_of_ne hname]
      show (first.operations ++ filedOperations (file operation rest)).Perm
        (operation :: (first.operations ++ filedOperations rest))
      exact (ih.append_left first.operations).trans List.perm_middle

theorem map_name_file (operation : Operation) (services : List Service) :
    (file operation services).map (·.name) =
      if operation.service ∈ services.map (·.name) then services.map (·.name)
      else services.map (·.name) ++ [operation.service] := by
  induction services with
  | nil => rfl
  | cons first rest ih =>
    by_cases hname : first.name = operation.service
    · have hmem : operation.service ∈ (first :: rest).map (·.name) :=
        List.mem_cons.mpr (.inl hname.symm)
      rw [file_cons_of_eq hname, if_pos hmem]
      rfl
    · have hiff : operation.service ∈ (first :: rest).map (·.name) ↔
          operation.service ∈ rest.map (·.name) :=
        ⟨fun h => (List.mem_cons.mp h).resolve_left fun e => hname e.symm, List.mem_cons_of_mem _⟩
      rw [file_cons_of_ne hname, List.map_cons, ih]
      by_cases hmem : operation.service ∈ rest.map (·.name)
      · rw [if_pos hmem, if_pos (hiff.mpr hmem)]
        rfl
      · rw [if_neg hmem, if_neg fun h => hmem (hiff.mp h)]
        rfl

theorem nodup_names_file (h : (services.map (·.name)).Nodup) :
    ((file operation services).map (·.name)).Nodup := by
  rw [map_name_file]
  by_cases hmem : operation.service ∈ services.map (·.name)
  · rw [if_pos hmem]
    exact h
  · rw [if_neg hmem, List.nodup_append]
    refine ⟨h, List.pairwise_singleton _ _, fun a ha b hb => ?_⟩
    rw [List.mem_singleton.mp hb]
    exact fun heq => hmem (heq ▸ ha)

theorem own_file (h : ∀ service ∈ services, ∀ o ∈ service.operations, o.service = service.name) :
    ∀ service ∈ file operation services, ∀ o ∈ service.operations, o.service = service.name := by
  induction services with
  | nil =>
    intro service hs o ho
    rw [List.mem_singleton.mp hs] at ho ⊢
    rw [List.mem_singleton.mp ho]
  | cons first rest ih =>
    rw [List.forall_mem_cons] at h
    by_cases hname : first.name = operation.service
    · rw [file_cons_of_eq hname]
      refine List.forall_mem_cons.mpr ⟨fun o ho => ?_, h.2⟩
      rcases List.mem_append.mp ho with ho | ho
      · exact h.1 o ho
      · rw [List.mem_singleton.mp ho]
        exact hname.symm
    · rw [file_cons_of_ne hname]
      exact List.forall_mem_cons.mpr ⟨h.1, ih h.2⟩

end Service

theorem WellFiled.file {services : List Service} (h : WellFiled services) (operation : Operation) :
    WellFiled (Service.file operation services) :=
  ⟨Service.nodup_names_file h.nodup, Service.own_file h.own⟩

/-- When no operation fails, every entry has one operation, and these are what is filed. -/
theorem exists_built_of_collect {shop : Workshop} {services : List Service}
    {entries : List OperationEntry} (h : (collect shop services entries).failure = none) :
    ∃ built, List.Forall₂ (fun entry operation => (entry.build shop).operation = .ok operation)
        entries built ∧
      (filedOperations (collect shop services entries).services).Perm
        (built ++ filedOperations services) := by
  induction entries generalizing services with
  | nil => exact ⟨[], .nil, List.Perm.refl _⟩
  | cons entry rest ih =>
    cases hbuilt : (entry.build shop).operation with
    | error failure =>
      rw [(collect_of_error hbuilt services rest).1] at h
      cases h
    | ok operation =>
      rw [(collect_of_ok hbuilt services rest).1] at h
      rw [(collect_of_ok hbuilt services rest).2]
      obtain ⟨built, hall, hperm⟩ := ih h
      refine ⟨operation :: built, .cons hbuilt hall, hperm.trans ?_⟩
      exact ((Service.perm_operations_file operation services).append_left built).trans
        List.perm_middle

theorem WellFiled.collect {shop : Workshop} {services : List Service} (h : WellFiled services)
    (entries : List OperationEntry) : WellFiled (collect shop services entries).services := by
  induction entries generalizing services with
  | nil => exact h
  | cons entry rest ih =>
    cases hbuilt : (entry.build shop).operation with
    | error failure =>
      rw [(collect_of_error hbuilt services rest).2]
      exact h
    | ok operation =>
      rw [(collect_of_ok hbuilt services rest).2]
      exact ih (h.file operation)

/-! ### Tidying -/

/-- What an operation is when it is tidied and numbered. -/
def Operation.IsTidied (operation tidied : Operation) : Prop :=
  ∃ number, tidied = { operation.tidy with name := Operation.numbered operation.name number }

theorem Operation.forall₂_tidyFrom (earlier : List String) (operations : List Operation) :
    List.Forall₂ IsTidied operations (tidyFrom earlier operations) := by
  induction operations generalizing earlier with
  | nil => exact .nil
  | cons operation rest ih => exact .cons ⟨_, rfl⟩ (ih _)

theorem forall₂_filedOperations_tidy (services : List Service) :
    List.Forall₂ Operation.IsTidied (filedOperations services)
      (filedOperations (services.map Service.tidy)) := by
  induction services with
  | nil => exact .nil
  | cons service rest ih =>
    exact List.rel_append (Operation.forall₂_tidyFrom [] service.operations) ih

theorem sortByName_perm {α : Type} (name : α → String) (items : List α) :
    (sortByName name items).Perm items := List.mergeSort_perm items _

theorem WellFiled.tidy {services : List Service} (h : WellFiled services) :
    WellFiled (services.map Service.tidy) := by
  constructor
  · rw [List.map_map]
    exact h.nodup
  · intro service hs tidied ht
    obtain ⟨before, hbefore, rfl⟩ := List.mem_map.mp hs
    obtain ⟨operation, ho, name, rfl⟩ := Operation.exists_of_mem_tidyFrom ht
    exact h.own before hbefore operation ho

theorem WellFiled.perm {services services' : List Service} (h : WellFiled services)
    (hperm : services'.Perm services) : WellFiled services' :=
  ⟨(hperm.map _).nodup_iff.mpr h.nodup, fun service hs => h.own service (hperm.mem_iff.mp hs)⟩

/-! ### What a description declares -/

/-- The methods of requests, as they are declared and as an operation has them. -/
def declaredMethods : List (String × String) :=
  [("get", "GET"), ("put", "PUT"), ("post", "POST"), ("delete", "DELETE"), ("options", "OPTIONS"),
    ("head", "HEAD"), ("patch", "PATCH"), ("trace", "TRACE")]

/-- The tags of a declared operation: its different texts that are not empty, or the default. -/
def declaredTags (preferences : Preferences) (node : Node) : List String :=
  let texts := (((node.get "tags").items?.getD []).filterMap Node.text?).dedup
  if texts.isEmpty then [preferences.defaultTag] else texts

/-- The service for a tag: its name in camel case or, if it has none, that of the default tag. -/
def declaredService (preferences : Preferences) (tag : String) : String :=
  if Name.ofTag tag = "" then Name.ofTag preferences.defaultTag else Name.ofTag tag

/-- Method, path and service of everything that a description declares to be called, once for each
tag. -/
def declaredPlaces (preferences : Preferences) (document : Node) :
    List (String × String × String) :=
  let paths := ((document.get "paths").entries?.getD []).filter (·.2.isMap)
  paths.flatMap fun (path, item) =>
    (declaredMethods.filter fun method => (item.get method.1).isMap).flatMap fun method =>
      (declaredTags preferences (item.get method.1)).map fun tag =>
        (method.2, path.text?.getD "", declaredService preferences tag)

def Operation.place (operation : Operation) : String × String × String :=
  (operation.method, operation.path, operation.service)

/-- Method, path and service of an operation that is to be built. -/
def OperationEntry.place (preferences : Preferences) (entry : OperationEntry) :
    String × String × String :=
  (entry.verb, entry.path.text?.getD "", declaredService preferences entry.tag)

theorem serviceFor_eq (preferences : Preferences) (tag : String) :
    OperationEntry.serviceFor preferences tag = declaredService preferences tag := by
  unfold OperationEntry.serviceFor declaredService
  by_cases hname : Name.ofTag tag = ""
  · rw [if_pos hname, if_pos (String.isEmpty_iff.mpr hname)]
  · rw [if_neg hname, if_neg fun h => hname (String.isEmpty_iff.mp h)]

theorem nodup_distinctTexts (items : List String) : (distinctTexts items).Nodup :=
  TypeUse.nodup_appendNew items List.nodup_nil

theorem distinctTexts_perm_dedup (items : List String) : (distinctTexts items).Perm items.dedup :=
  (List.perm_ext_iff_of_nodup (nodup_distinctTexts items) (List.nodup_dedup items)).mpr fun _ =>
    mem_distinctTexts.trans List.mem_dedup.symm

theorem tagsOf_perm (preferences : Preferences) (node : Node) :
    (tagsOf preferences node).Perm (declaredTags preferences node) := by
  unfold tagsOf declaredTags
  cases node.get "tags" with
  | list items =>
    have htexts : ((Node.list items).items?.getD []).filterMap Node.text? =
        items.filterMap Node.text? := rfl
    have hperm := distinctTexts_perm_dedup (items.filterMap Node.text?)
    rw [htexts]
    dsimp only
    cases hgiven : distinctTexts (items.filterMap Node.text?) with
    | nil =>
      rw [hgiven] at hperm
      rw [List.nil_perm.mp hperm]
      exact List.Perm.refl _
    | cons tag tags =>
      rw [hgiven] at hperm
      have hne : (items.filterMap Node.text?).dedup ≠ [] := by
        intro hnil
        rw [hnil] at hperm
        exact List.cons_ne_nil tag tags hperm.eq_nil
      rw [if_neg fun h => hne (List.isEmpty_iff.mp h)]
      exact hperm
  | _ => exact List.Perm.refl _

theorem flatMap_requestMethods {α : Type} (f : String → String → List α) :
    (requestMethods.flatMap fun method => f method (Text.upper method)) =
      declaredMethods.flatMap fun method => f method.1 method.2 := by
  have hmethods : requestMethods.map (fun method => (method, Text.upper method)) =
      declaredMethods := by decide +kernel
  rw [← hmethods, List.flatMap_map]

theorem flatMap_filter {α β : Type} (p : α → Bool) (f : α → List β) (items : List α) :
    (items.filter p).flatMap f = items.flatMap fun x => if p x then f x else [] := by
  induction items with
  | nil => rfl
  | cons x rest ih =>
    rw [List.flatMap_cons, ← ih]
    by_cases hx : p x = true
    · rw [List.filter_cons_of_pos hx, if_pos hx, List.flatMap_cons]
    · rw [List.filter_cons_of_neg hx, if_neg hx, List.nil_append]

/-- The places of one path: nothing is declared where there is no map. -/
theorem places_entriesOfPath (preferences : Preferences) (path : Scalar) (item : Node) :
    ((entriesOfPath preferences path item).map (OperationEntry.place preferences)).Perm
      ((declaredMethods.filter fun method => (item.get method.1).isMap).flatMap fun method =>
        (declaredTags preferences (item.get method.1)).map fun tag =>
          (method.2, path.text?.getD "", declaredService preferences tag)) := by
  rw [flatMap_filter, ← flatMap_requestMethods fun method verb =>
    if (item.get method).isMap then
      (declaredTags preferences (item.get method)).map fun tag =>
        (verb, path.text?.getD "", declaredService preferences tag)
    else []]
  unfold entriesOfPath
  rw [List.map_flatMap]
  refine List.Perm.flatMap_left _ fun method _ => ?_
  by_cases hmap : (item.get method).isMap = true
  · simp only [if_pos hmap]
    rw [List.map_map]
    exact (tagsOf_perm preferences _).map _
  · simp only [if_neg hmap]
    exact List.Perm.refl _

theorem entriesOfPath_of_not_isMap {preferences : Preferences} {path : Scalar} {item : Node}
    (h : ¬ item.isMap = true) : entriesOfPath preferences path item = [] := by
  refine List.flatMap_eq_nil_iff.mpr fun method _ => ?_
  have hnone : item.get method = .null := by
    cases item with
    | map entries => exact absurd rfl h
    | _ => rfl
  simp only [hnone]
  rfl

/-- The entries that are built from a description are at the places that it declares. -/
theorem places_operationEntries (preferences : Preferences) (root : Entries) :
    ((operationEntries preferences root).map (OperationEntry.place preferences)).Perm
      (declaredPlaces preferences (.map root)) := by
  unfold operationEntries declaredPlaces
  have hmember : (Node.map root).get "paths" = Dialect.member "paths" root := rfl
  rw [hmember]
  cases hpaths : Dialect.member "paths" root with
  | map paths =>
    show ((paths.flatMap fun (path, item) => entriesOfPath preferences path item).map _).Perm
      ((paths.filter (·.2.isMap)).flatMap _)
    rw [flatMap_filter, List.map_flatMap]
    refine List.Perm.flatMap_left _ fun (path, item) _ => ?_
    show ((entriesOfPath preferences path item).map _).Perm _
    by_cases hmap : item.isMap = true
    · rw [if_pos hmap]
      exact places_entriesOfPath preferences path item
    · rw [if_neg hmap, entriesOfPath_of_not_isMap hmap]
      exact List.Perm.refl _
  | _ => exact List.Perm.refl _

/-! ### The same entry under other tags -/

/-- Whether an operation of a client is built from an entry. -/
def OperationEntry.Yields (shop : Workshop) (entry : OperationEntry) (operation : Operation) :
    Prop :=
  ∃ built, (entry.build shop).operation = .ok built ∧ built.IsTidied operation

/-- Whether two operations are the same but for their services and the numbers of their names. -/
structure Operation.SameButFiling (operation other : Operation) : Prop where
  names : ∃ name number number', operation.name = numbered name number ∧
    other.name = numbered name number'
  rest : other = { operation with service := other.service, name := other.name }

namespace OperationEntry

variable {shop : Workshop} {entry other : OperationEntry} {operation operation' : Operation}

/-- What is known of an operation before its parts are built. -/
theorem place_of_build (h : (entry.build shop).operation = .ok operation) :
    operation.place = entry.place shop.preferences := by
  unfold build at h
  split at h
  · cases h
  · rename_i path hpath
    have htext : entry.path.text?.getD "" = path := by
      cases htext : entry.path.text? with
      | none =>
        rw [Scalar.written, htext] at hpath
        cases hpath
      | some text =>
        rw [Scalar.written, htext] at hpath
        exact Except.ok.inj hpath
    split at h
    · cases h
    · obtain ⟨body, _, h⟩ := Except.bind_eq_ok_iff.mp h
      obtain ⟨responses, _, h⟩ := Except.bind_eq_ok_iff.mp h
      rw [← Except.pure_eq_ok_iff.mp h, place, htext, ← serviceFor_eq, Operation.place, assemble]

theorem assemble_with_tag (tag path : String) (declared : List Parameter) (body : Option Parameter)
    (responses : List Response) :
    assemble shop { entry with tag := tag } path declared body responses =
      { assemble shop entry path declared body responses with
        service := serviceFor shop.preferences tag } := by
  unfold assemble
  dsimp only [verb]

/-- The tag decides about the service and about nothing else. -/
theorem build_with_tag (tag : String) (h : (entry.build shop).operation = .ok operation) :
    (build shop { entry with tag := tag }).operation =
      .ok { operation with service := serviceFor shop.preferences tag } := by
  unfold build at h ⊢
  dsimp only [parameterNodes] at h ⊢
  split at h
  · cases h
  · split at h
    · cases h
    · rename_i path hpath declared hdeclared
      obtain ⟨body, hbody, h⟩ := Except.bind_eq_ok_iff.mp h
      obtain ⟨responses, hresponses, h⟩ := Except.bind_eq_ok_iff.mp h
      rw [← Except.pure_eq_ok_iff.mp h]
      refine Except.bind_eq_ok_iff.mpr ⟨body, hbody, ?_⟩
      refine Except.bind_eq_ok_iff.mpr ⟨responses, hresponses, ?_⟩
      rw [assemble_with_tag]
      rfl

theorem Yields.sameButFiling (h : entry.Yields shop operation) (h' : other.Yields shop operation')
    (hother : other = { entry with tag := other.tag }) : operation.SameButFiling operation' := by
  obtain ⟨built, hbuilt, number, rfl⟩ := h
  obtain ⟨built', hbuilt', number', rfl⟩ := h'
  rw [hother, build_with_tag other.tag hbuilt] at hbuilt'
  cases hbuilt'
  exact ⟨⟨built.name, number, number', rfl, rfl⟩, rfl⟩

theorem Yields.place_eq (h : entry.Yields shop operation) :
    operation.place = entry.place shop.preferences := by
  obtain ⟨built, hbuilt, number, rfl⟩ := h
  have hplace := place_of_build hbuilt
  rw [← hplace]
  rfl

end OperationEntry

/-! ### The client -/

/-- The schema definitions of a description. -/
def declaredSchemas (scope : Scope) : Entries :=
  match scope.dialect with
  | .v2 => (scope.document.get "definitions").entries?.getD []
  | .v3 => ((scope.document.get "components").get "schemas").entries?.getD []

/-- The parameters that operations share, as far as they hold a schema. -/
def declaredParameters (scope : Scope) : Entries :=
  match scope.dialect with
  | .v2 => []
  | .v3 => (((scope.document.get "components").get "parameters").entries?.getD []).filter
      fun (_, parameter) => (parameter.get "schema").isMap

namespace Client

/-- What a client holds, of a description with the given members. -/
structure Inventory (shop : Workshop) (root : Entries) (client : Client) : Prop where
  /-- Every entry yields one operation, and there are no others. -/
  operations : ∃ operations,
    List.Forall₂ (OperationEntry.Yields shop) (operationEntries shop.preferences root) operations ∧
      operations.Perm (filedOperations client.services)
  /-- There is one operation for each method, path and tag that is declared. -/
  places : ((filedOperations client.services).map Operation.place).Perm
    (declaredPlaces shop.preferences shop.document)
  filed : WellFiled client.services
  /-- Entries that differ in their tags yield the same operation in other services. -/
  alike : ∀ {entry other : OperationEntry} {operation operation' : Operation},
    entry.Yields shop operation → other.Yields shop operation' →
      other = { entry with tag := other.tag } → operation.SameButFiling operation'
  /-- There is one model for each definition and each shared parameter. -/
  models : ∃ schemas parameters,
    List.Forall₂ (fun e model => ∃ built, definitionModel shop.toScope e = .ok built ∧
      model = built.tidy) (declaredSchemas shop.toScope) schemas ∧
    List.Forall₂ (fun e model => ∃ built, sharedParameterModel shop.toScope e = .ok built ∧
      model = built.tidy) (declaredParameters shop.toScope) parameters ∧
    (schemas ++ parameters).Perm client.models

variable {shop : Workshop} {root : Entries} {models : List Model} {client : Client}

theorem schemas_eq (scope : Scope) :
    scope.dialect.schemas scope.document = declaredSchemas scope := by
  unfold Dialect.schemas declaredSchemas
  cases scope.dialect <;> rfl

theorem sharedParameters_eq {scope : Scope} (h : scope.document = .map root) :
    sharedParameters scope = .ok (declaredParameters scope) := by
  unfold sharedParameters declaredParameters
  cases scope.dialect with
  | v2 => rfl
  | v3 =>
    have hcomponents : (Node.map root).get "components" = Dialect.member "components" root := rfl
    rw [h, Dialect.members_bind, hcomponents]
    cases (Dialect.member "components" root).get "parameters" <;> rfl

theorem forall₂_tidy {build : Scalar × Node → Except Failure Model} {entries : Entries}
    {built : List Model} (h : entries.mapM build = .ok built) :
    List.Forall₂ (fun e model => ∃ before, build e = .ok before ∧ model = before.tidy) entries
      (built.map Model.tidy) :=
  List.forall₂_map_right_iff.mpr ((Except.mapM_eq_ok_iff.mp h).imp fun _ before hb =>
    ⟨before, hb, rfl⟩)

theorem MadeFrom.perm_services (made : client.MadeFrom shop root models) : client.services.Perm
    ((collect shop [] (operationEntries shop.preferences root)).services.map Service.tidy) := by
  rw [made.services_eq]
  exact sortByName_perm _ _

theorem MadeFrom.exists_operations (made : client.MadeFrom shop root models) : ∃ operations,
    List.Forall₂ (OperationEntry.Yields shop) (operationEntries shop.preferences root) operations ∧
      operations.Perm (filedOperations client.services) := by
  obtain ⟨built, hbuilt, hperm⟩ := exists_built_of_collect made.finished
  rw [show filedOperations [] = [] from rfl, List.append_nil] at hperm
  obtain ⟨operations, htidied, hafter⟩ :=
    List.perm_comp_forall₂ hperm.symm (forall₂_filedOperations_tidy _)
  refine ⟨operations, ?_, hafter.trans (made.perm_services.flatMap_right _).symm⟩
  rw [List.forall₂_iff_get] at hbuilt htidied ⊢
  refine ⟨hbuilt.1.trans htidied.1, fun i hi hi' => ?_⟩
  exact ⟨_, hbuilt.2 i hi (hbuilt.1 ▸ hi), htidied.2 i (hbuilt.1 ▸ hi) hi'⟩

theorem places_of_yields {operations : List Operation} {entries : List OperationEntry}
    (h : List.Forall₂ (OperationEntry.Yields shop) entries operations) :
    operations.map Operation.place = entries.map (OperationEntry.place shop.preferences) := by
  induction h with
  | nil => rfl
  | cons hyields _ ih => rw [List.map_cons, List.map_cons, hyields.place_eq, ih]

theorem MadeFrom.exists_models (made : client.MadeFrom shop root models) :
    ∃ schemas parameters,
      List.Forall₂ (fun e model => ∃ built, definitionModel shop.toScope e = .ok built ∧
        model = built.tidy) (declaredSchemas shop.toScope) schemas ∧
      List.Forall₂ (fun e model => ∃ built, sharedParameterModel shop.toScope e = .ok built ∧
        model = built.tidy) (declaredParameters shop.toScope) parameters ∧
      (schemas ++ parameters).Perm client.models := by
  obtain ⟨schemas, hschemas, h⟩ := Except.bind_eq_ok_iff.mp made.built
  obtain ⟨shared, hshared, h⟩ := Except.bind_eq_ok_iff.mp h
  obtain ⟨parameters, hparameters, h⟩ := Except.bind_eq_ok_iff.mp h
  have hmodels : schemas ++ parameters = models := Except.pure_eq_ok_iff.mp h
  rw [sharedParameters_eq made.rooted] at hshared
  cases hshared
  rw [schemas_eq] at hschemas
  refine ⟨_, _, forall₂_tidy hschemas, forall₂_tidy hparameters, ?_⟩
  rw [made.models_eq, ← hmodels, List.map_append]
  exact (sortByName_perm _ _).symm

theorem MadeFrom.inventory (made : client.MadeFrom shop root models) :
    client.Inventory shop root := by
  obtain ⟨operations, hyields, hperm⟩ := made.exists_operations
  refine ⟨⟨operations, hyields, hperm⟩, ?_, ?_, OperationEntry.Yields.sameButFiling,
    made.exists_models⟩
  · refine (hperm.map Operation.place).symm.trans ?_
    rw [places_of_yields hyields, made.rooted]
    exact places_operationEntries shop.preferences root
  · have hempty : WellFiled [] := ⟨List.nodup_nil, fun _ h => nomatch h⟩
    exact ((hempty.collect _).tidy).perm made.perm_services

/-- What a client holds is what its description declares: nothing is lost and nothing is added. -/
theorem inventory_of_resolve {preferences : Preferences} {document : Node} {client : Client}
    (h : (Client.resolve preferences document).client = .ok client) :
    ∃ dialect root, Dialect.detect document = .ok dialect ∧ document = .map root ∧
      client.Inventory ⟨⟨document, dialect⟩, preferences⟩ root := by
  obtain ⟨dialect, root, models, hdetect, made⟩ := exists_madeFrom_of_resolve h
  exact ⟨dialect, root, hdetect, made.rooted, made.inventory⟩

/-- A description whose first operation is filed under three tags, two of which name one service,
and whose second one has no tags. -/
def taggedDocument : Node :=
  .map
    [(.str "openapi", .str "3.0.0"),
      (.str "paths", .map [(.str "/pets", .map [(.str "get", listPets), (.str "put", .map [])])]),
      (.str "components", .map
        [(.str "schemas", .map [(.str "Pet", .map [(.str "type", .str "object")])]),
          (.str "parameters", .map [(.str "limit", .map [(.str "schema", .map [])])])])]
where
  listPets : Node := .map
    [(.str "operationId", .str "list"),
      (.str "tags", .list [.str "pet-store", .str "", .str "Pet Store", .str "pet-store",
        .str "admin"])]

example : declaredPlaces {} taggedDocument =
    [("GET", "/pets", "PetStore"), ("GET", "/pets", "PetStore"), ("GET", "/pets", "Admin"),
      ("PUT", "/pets", "Default")] := by decide +kernel

theorem resolve_taggedDocument : (Client.resolve {} taggedDocument).client.isOk = true := by
  have hentries {root : Entries} (hroot : taggedDocument = .map root) : operationEntries {} root =
      [⟨.str "/pets", "get", "pet-store", taggedDocument.listPets, []⟩,
        ⟨.str "/pets", "get", "Pet Store", taggedDocument.listPets, []⟩,
        ⟨.str "/pets", "get", "admin", taggedDocument.listPets, []⟩,
        ⟨.str "/pets", "put", "Default", .map [], []⟩] := by
    cases hroot
    rfl
  rw [@client_resolve_eq {} taggedDocument .v3 _ rfl rfl, hentries rfl]
  simp only [collect]
  delta definitionModels definitionModel sharedParameterModel OperationEntry.build
    OperationEntry.finish Parameter.buildAll Parameter.build? OperationEntry.body?
    Parameter.buildBody? Response.buildAll Response.ofMember? Response.build
  rw [Schema.build_eq fun _ => .error (.malformed .endless)]
  decide +kernel

theorem inventory_taggedDocument : ∃ client,
    (Client.resolve {} taggedDocument).client = .ok client ∧
      ∃ dialect root, Dialect.detect taggedDocument = .ok dialect ∧ taggedDocument = .map root ∧
        client.Inventory ⟨⟨taggedDocument, dialect⟩, {}⟩ root := by
  obtain ⟨client, hclient⟩ := Except.exists_of_isOk resolve_taggedDocument
  exact ⟨client, hclient, inventory_of_resolve hclient⟩

end Client
end OpenApi
