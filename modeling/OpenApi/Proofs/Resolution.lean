import OpenApi.Client.Resolve
import OpenApi.Proofs.Tidying

/-
What a resolved client consists of.

A client is the tidy form of models and services that were built one by one.  `MadeFrom` names them,
and `exists_madeFrom_of_resolve` finds them for every client.  Each operation in a service comes
from an entry of the description (`exists_entry_of_mem_collect`): filing moves operations, it makes
none.
-/
namespace OpenApi

theorem Dialect.members_eq_ok_iff {node : Node} {entries : Entries} :
    members node = .ok entries ↔ node = .map entries := by
  constructor
  · intro h
    unfold members at h
    split at h
    · cases h
      rfl
    · cases h
  · rintro rfl
    rfl

namespace Service

/-- Filing an operation adds it to the services and nothing else. -/
theorem mem_of_mem_file {operation filed : Operation} {services : List Service} {service : Service}
    (hs : service ∈ file operation services) (ho : filed ∈ service.operations) :
    filed = operation ∨ ∃ before ∈ services, filed ∈ before.operations := by
  induction services with
  | nil =>
    rw [List.mem_singleton.mp hs] at ho
    exact .inl (List.mem_singleton.mp ho)
  | cons first rest ih =>
    unfold file at hs
    split at hs
    · rcases List.mem_cons.mp hs with rfl | hs
      · rcases List.mem_append.mp ho with ho | ho
        · exact .inr ⟨first, List.mem_cons_self, ho⟩
        · exact .inl (List.mem_singleton.mp ho)
      · exact .inr ⟨service, List.mem_cons_of_mem _ hs, ho⟩
    · rcases List.mem_cons.mp hs with rfl | hs
      · exact .inr ⟨service, List.mem_cons_self, ho⟩
      · rcases ih hs with h | ⟨before, hb, h⟩
        · exact .inl h
        · exact .inr ⟨before, List.mem_cons_of_mem _ hb, h⟩

end Service

section
variable {shop : Workshop} {entry : OperationEntry} {operation : Operation} {failure : Failure}

theorem collect_of_error (h : (entry.build shop).operation = .error failure)
    (services : List Service) (rest : List OperationEntry) :
    (collect shop services (entry :: rest)).failure = some failure ∧
      (collect shop services (entry :: rest)).services = services := by
  unfold collect
  simp only [h, and_self]

theorem collect_of_ok (h : (entry.build shop).operation = .ok operation)
    (services : List Service) (rest : List OperationEntry) :
    (collect shop services (entry :: rest)).failure =
        (collect shop (Service.file operation services) rest).failure ∧
      (collect shop services (entry :: rest)).services =
        (collect shop (Service.file operation services) rest).services := by
  rw [collect]
  simp only [h, and_self]

end

theorem exists_entry_of_mem_collect {shop : Workshop} {services : List Service}
    {entries : List OperationEntry} {service : Service} {operation : Operation}
    (hs : service ∈ (collect shop services entries).services)
    (ho : operation ∈ service.operations) :
    (∃ before ∈ services, operation ∈ before.operations) ∨
      ∃ entry ∈ entries, (entry.build shop).operation = .ok operation := by
  induction entries generalizing services with
  | nil => exact .inl ⟨service, hs, ho⟩
  | cons entry rest ih =>
    cases hbuilt : (entry.build shop).operation with
    | error failure =>
      rw [(collect_of_error hbuilt services rest).2] at hs
      exact .inl ⟨service, hs, ho⟩
    | ok made =>
      rw [(collect_of_ok hbuilt services rest).2] at hs
      rcases ih hs with ⟨before, hb, hbefore⟩ | ⟨later, hl, hlater⟩
      · rcases Service.mem_of_mem_file hb hbefore with rfl | hold
        · exact .inr ⟨entry, List.mem_cons_self, hbuilt⟩
        · exact .inl hold
      · exact .inr ⟨later, List.mem_cons_of_mem _ hl, hlater⟩

/-- The operation that building comes to, without the warnings. -/
theorem operation_build (shop : Workshop) (entry : OperationEntry) :
    (entry.build shop).operation = entry.path.written >>= fun path =>
      Parameter.buildAll shop entry.parameterNodes >>= entry.finish shop path := by
  unfold OperationEntry.build
  cases entry.path.written with
  | error failure => rfl
  | ok path =>
    dsimp only
    cases Parameter.buildAll shop entry.parameterNodes <;> rfl

/-- The services that collecting comes to, if no operation fails. -/
def Collected.outcome (collected : Collected) : Except Failure (List Service) :=
  match collected.failure with
  | some failure => .error failure
  | none => .ok collected.services

theorem Collected.outcome_eq_ok_iff {collected : Collected} {services : List Service} :
    collected.outcome = .ok services ↔
      collected.failure = none ∧ collected.services = services := by
  unfold outcome
  cases collected.failure with
  | some failure => simp
  | none => simp

theorem outcome_collect_cons (shop : Workshop) (services : List Service) (entry : OperationEntry)
    (rest : List OperationEntry) :
    (collect shop services (entry :: rest)).outcome =
      (entry.build shop).operation >>= fun operation =>
        (collect shop (Service.file operation services) rest).outcome := by
  rw [collect]
  dsimp only
  cases (entry.build shop).operation <;> rfl

namespace Client

theorem ofParts_eq (scope : Scope) (models : List Model) (collected : Collected) :
    ofParts scope models collected = collected.outcome >>= fun services => do
      let root ← Dialect.members scope.document
      let version ← versionOf root
      let server ← scope.dialect.server scope.document
      return tidy { version := version, server := server, models := models, services := services } := by
  unfold ofParts Collected.outcome
  cases collected.failure <;> rfl

/-- Resolving a description in a supported version, one part after the other. -/
theorem client_resolve_eq {preferences : Preferences} {document : Node} {dialect : Dialect}
    {root : Entries} (rooted : document = .map root) (detected : Dialect.detect document = .ok dialect) :
    (resolve preferences document).client = definitionModels ⟨document, dialect⟩ >>= fun models =>
      ofParts ⟨document, dialect⟩ models
        (collect ⟨⟨document, dialect⟩, preferences⟩ [] (operationEntries preferences root)) := by
  subst rooted
  unfold resolve
  rw [detected]
  dsimp only
  unfold resolveIn collectFrom
  cases definitionModels ⟨.map root, dialect⟩ <;> rfl

/-- The parts that a client consists of: models and services before they are tidied. -/
structure MadeFrom (shop : Workshop) (root : Entries) (models : List Model) (client : Client) :
    Prop where
  rooted : shop.document = .map root
  built : definitionModels shop.toScope = .ok models
  version_eq : versionOf root = .ok client.version
  server_eq : shop.dialect.server shop.document = .ok client.server
  /-- No operation fails. -/
  finished : (collect shop [] (operationEntries shop.preferences root)).failure = none
  models_eq : client.models = sortByName Model.name (models.map Model.tidy)
  services_eq : client.services = sortByName Service.name
    ((collect shop [] (operationEntries shop.preferences root)).services.map Service.tidy)

section
variable {shop : Workshop} {root : Entries} {models : List Model} {client : Client}

theorem MadeFrom.exists_of_mem_models (made : client.MadeFrom shop root models) {m : Model}
    (h : m ∈ client.models) : ∃ before ∈ models, before.tidy = m := by
  rw [made.models_eq, mem_sortByName] at h
  exact List.mem_map.mp h

theorem MadeFrom.exists_of_mem_services (made : client.MadeFrom shop root models)
    {service : Service} (h : service ∈ client.services) :
    ∃ before ∈ (collect shop [] (operationEntries shop.preferences root)).services,
      before.tidy = service := by
  rw [made.services_eq, mem_sortByName] at h
  exact List.mem_map.mp h

end

/-- Every client is made from the models and operations of its description. -/
theorem exists_madeFrom_of_resolve {preferences : Preferences} {document : Node} {client : Client}
    (h : (Client.resolve preferences document).client = .ok client) :
    ∃ dialect root models, Dialect.detect document = .ok dialect ∧
      client.MadeFrom ⟨⟨document, dialect⟩, preferences⟩ root models := by
  cases detected : Dialect.detect document with
  | error failure =>
    unfold resolve at h
    rw [detected] at h
    cases h
  | ok dialect =>
    obtain ⟨root, hroot, _⟩ := Except.bind_eq_ok_iff.mp detected
    have rooted := Dialect.members_eq_ok_iff.mp hroot
    rw [client_resolve_eq rooted detected] at h
    obtain ⟨models, built, h⟩ := Except.bind_eq_ok_iff.mp h
    rw [ofParts_eq] at h
    obtain ⟨services, hservices, h⟩ := Except.bind_eq_ok_iff.mp h
    obtain ⟨root', hroot', h⟩ := Except.bind_eq_ok_iff.mp h
    obtain ⟨version, hversion, h⟩ := Except.bind_eq_ok_iff.mp h
    obtain ⟨server, hserver, h⟩ := Except.bind_eq_ok_iff.mp h
    cases h
    cases hroot.symm.trans hroot'
    obtain ⟨hfinished, rfl⟩ := Collected.outcome_eq_ok_iff.mp hservices
    exact ⟨dialect, root, models, rfl,
      ⟨rooted, built, hversion, hserver, hfinished, rfl, rfl⟩⟩

end Client
end OpenApi
