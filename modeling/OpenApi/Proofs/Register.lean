import OpenApi.Proofs.Inventory
import OpenApi.Proofs.KeptItems

/-
The register of services after any number of descriptions.

Descriptions may be collected into one register, and any of them may fail on the way.  What an
operation that fails leaves behind is what was built before it.  Nothing is taken back, and nothing
of it is filed in two places: after all calls the register is the list of all operations that were
built, grouped by their services (`registered_grouped`).  The step is `file_grouped`.
-/
namespace OpenApi

namespace Service

/-- The service of a name for a list of operations. -/
def named (operations : List Operation) (name : String) : Service where
  name := name
  operations := operations.filter (·.service == name)
  imports := (operations.filter (·.service == name)).flatMap (·.imports)

/-- Operations grouped by their services, in the order in which the services come up first. -/
def grouped (operations : List Operation) : List Service :=
  (operations.map (·.service)).eraseDups.map (named operations)

/-- File operations one after the other. -/
def fileAll (operations : List Operation) (services : List Service) : List Service :=
  operations.foldl (fun services operation => file operation services) services

variable {operations : List Operation} {operation : Operation} {name : String}

theorem named_concat_of_eq (h : operation.service = name) :
    named (operations ++ [operation]) name =
      { named operations name with
        operations := (named operations name).operations ++ [operation]
        imports := (named operations name).imports ++ operation.imports } := by
  have hkept : [operation].filter (·.service == name) = [operation] :=
    List.filter_cons_of_pos (beq_iff_eq.mpr h)
  rw [named, List.filter_append, hkept, List.flatMap_append, List.flatMap_singleton]
  rfl

theorem named_concat_of_ne (h : operation.service ≠ name) :
    named (operations ++ [operation]) name = named operations name := by
  have hdropped : [operation].filter (·.service == name) = [] :=
    List.filter_cons_of_neg fun heq => h (beq_iff_eq.mp heq)
  rw [named, List.filter_append, hdropped, List.append_nil]
  rfl

theorem map_named_concat {names : List String} (h : operation.service ∉ names) :
    names.map (named (operations ++ [operation])) = names.map (named operations) :=
  List.map_congr_left fun _ hname => named_concat_of_ne fun heq => h (heq ▸ hname)

/-- An operation goes to the service of its name, if there is one, and to no other. -/
theorem file_map_named {names : List String} (nodup : names.Nodup) :
    file operation (names.map (named operations)) =
      if operation.service ∈ names then names.map (named (operations ++ [operation]))
      else names.map (named (operations ++ [operation])) ++ [{
        name := operation.service
        operations := [operation]
        imports := operation.imports }] := by
  induction names with
  | nil => rfl
  | cons name rest ih =>
    obtain ⟨hname, hrest⟩ := List.nodup_cons.mp nodup
    rw [List.map_cons, List.map_cons]
    by_cases heq : name = operation.service
    · have hmem : operation.service ∈ name :: rest := List.mem_cons.mpr (.inl heq.symm)
      rw [file_cons_of_eq heq, if_pos hmem, named_concat_of_eq heq.symm,
        map_named_concat (heq ▸ hname)]
    · have hiff : operation.service ∈ name :: rest ↔ operation.service ∈ rest :=
        List.mem_cons.trans (or_iff_right fun h => heq h.symm)
      rw [file_cons_of_ne heq, ih hrest, named_concat_of_ne (Ne.symm heq)]
      by_cases hmem : operation.service ∈ rest
      · rw [if_pos hmem, if_pos (hiff.mpr hmem)]
      · rw [if_neg hmem, if_neg fun h => hmem (hiff.mp h), List.cons_append]

/-- The service of a name that no operation has had before. -/
theorem named_concat_of_not_mem (h : operation.service ∉ operations.map (·.service)) :
    named (operations ++ [operation]) operation.service =
      { name := operation.service, operations := [operation], imports := operation.imports } := by
  have hnone : operations.filter (·.service == operation.service) = [] :=
    List.filter_eq_nil_iff.mpr fun o ho heq =>
      h (List.mem_map.mpr ⟨o, ho, beq_iff_eq.mp heq⟩)
  rw [named_concat_of_eq rfl, named, hnone]
  rfl

/-- Filing one more operation is grouping one more. -/
theorem file_grouped (operation : Operation) (operations : List Operation) :
    file operation (grouped operations) = grouped (operations ++ [operation]) := by
  have nodup : ((operations.map (·.service)).eraseDups).Nodup := by
    have h := nodup_map_uniqueByName id (operations.map (·.service))
    rwa [List.map_id, ← eraseDups_eq_uniqueByName] at h
  have hmem : operation.service ∈ (operations.map (·.service)).eraseDups ↔
      operation.service ∈ operations.map (·.service) := List.mem_eraseDups
  rw [grouped, grouped, file_map_named nodup, List.map_append, List.map_singleton]
  simp only [eraseDups_eq_uniqueByName] at hmem ⊢
  by_cases h : operation.service ∈ operations.map (·.service)
  · rw [if_pos (hmem.mpr h), uniqueByName_concat_of_mem (by rwa [List.map_id])]
  · rw [if_neg fun h' => h (hmem.mp h'), uniqueByName_concat_of_not_mem (by rwa [List.map_id]),
      List.map_append, List.map_singleton, named_concat_of_not_mem h]

theorem fileAll_grouped (before operations : List Operation) :
    fileAll operations (grouped before) = grouped (before ++ operations) := by
  induction operations generalizing before with
  | nil => rw [List.append_nil, fileAll, List.foldl_nil]
  | cons operation rest ih =>
    have hmore := ih (before ++ [operation])
    rw [List.append_assoc, List.singleton_append] at hmore
    rw [fileAll, List.foldl_cons, file_grouped]
    exact hmore

theorem perm_operations_grouped (operations : List Operation) :
    (filedOperations (grouped operations)).Perm operations := by
  induction operations using List.reverseRecOn with
  | nil => exact List.Perm.refl _
  | append_singleton operations operation ih =>
    rw [← file_grouped]
    exact (perm_operations_file operation _).trans
      ((ih.cons operation).trans (List.perm_append_singleton operation operations).symm)

end Service

/-! ### One description -/

/-- Whether an entry is built to an operation. -/
def OperationEntry.Builds (shop : Workshop) (entry : OperationEntry) (operation : Operation) :
    Prop :=
  (entry.build shop).operation = .ok operation

/-- What a description adds to a register, and how collecting it ends. -/
inductive Workshop.Contributes (shop : Workshop) : List Operation → Option Failure → Prop where
  | unreadable {failure : Failure} (fails : Dialect.members shop.document = .error failure) :
      Contributes shop [] (some failure)
  | finished {root : Entries} {built : List Operation} (rooted : shop.document = .map root)
      (builds : List.Forall₂ (OperationEntry.Builds shop)
        (operationEntries shop.preferences root) built) : Contributes shop built none
  | failed {root : Entries} {done rest : List OperationEntry} {entry : OperationEntry}
      {built : List Operation} {failure : Failure} (rooted : shop.document = .map root)
      (listed : operationEntries shop.preferences root = done ++ entry :: rest)
      (builds : List.Forall₂ (OperationEntry.Builds shop) done built)
      (fails : (entry.build shop).operation = .error failure) :
      Contributes shop built (some failure)

/-- Collecting files the operations of all entries, or of those before one that fails. -/
theorem collect_cases (shop : Workshop) (entries : List OperationEntry) :
    (∃ built, List.Forall₂ (OperationEntry.Builds shop) entries built ∧ ∀ services,
        (collect shop services entries).failure = none ∧
          (collect shop services entries).services = Service.fileAll built services) ∨
      ∃ done entry rest built failure, entries = done ++ entry :: rest ∧
        List.Forall₂ (OperationEntry.Builds shop) done built ∧
          (entry.build shop).operation = .error failure ∧ ∀ services,
            (collect shop services entries).failure = some failure ∧
              (collect shop services entries).services = Service.fileAll built services := by
  induction entries with
  | nil => exact .inl ⟨[], .nil, fun _ => ⟨rfl, rfl⟩⟩
  | cons entry rest ih =>
    cases hbuilt : (entry.build shop).operation with
    | error failure =>
      exact .inr ⟨[], entry, rest, [], failure, rfl, .nil, hbuilt, fun services =>
        collect_of_error hbuilt services rest⟩
    | ok operation =>
      rcases ih with ⟨built, builds, hends⟩ |
        ⟨done, wrong, more, built, failure, rfl, builds, fails, hends⟩
      · refine .inl ⟨operation :: built, .cons hbuilt builds, fun services => ?_⟩
        rw [(collect_of_ok hbuilt services _).1, (collect_of_ok hbuilt services _).2]
        exact hends _
      · refine .inr ⟨entry :: done, wrong, more, operation :: built, failure, rfl,
          .cons hbuilt builds, fails, fun services => ?_⟩
        rw [(collect_of_ok hbuilt services _).1, (collect_of_ok hbuilt services _).2]
        exact hends _

/-- What a description contributes, and how it ends, does not depend on the register. -/
theorem exists_contributes (shop : Workshop) : ∃ built outcome, shop.Contributes built outcome ∧
    ∀ services, (collectFrom shop services).failure = outcome ∧
      (collectFrom shop services).services = Service.fileAll built services := by
  unfold collectFrom
  cases hmembers : Dialect.members shop.document with
  | error failure => exact ⟨[], some failure, .unreadable hmembers, fun _ => ⟨rfl, rfl⟩⟩
  | ok root =>
    have rooted := Dialect.members_eq_ok_iff.mp hmembers
    rcases collect_cases shop (operationEntries shop.preferences root) with
      ⟨built, builds, hends⟩ | ⟨done, entry, rest, built, failure, listed, builds, fails, hends⟩
    · exact ⟨built, none, .finished rooted builds, hends⟩
    · exact ⟨built, some failure, .failed rooted listed builds fails, hends⟩

/-! ### All descriptions -/

/-- The register after descriptions have been collected into it, whether they fail or not. -/
def registered (shops : List Workshop) : List Service :=
  shops.foldl (fun services shop => (collectFrom shop services).services) []

/-- What a register of grouped operations is after more descriptions. -/
theorem exists_foldl_collectFrom (shops : List Workshop) (before : List Operation) :
    ∃ built : List (List Operation),
      List.Forall₂ (fun shop operations => ∀ services,
        Workshop.Contributes shop operations (collectFrom shop services).failure) shops built ∧
      shops.foldl (fun services shop => (collectFrom shop services).services)
        (Service.grouped before) = Service.grouped (before ++ built.flatten) := by
  induction shops generalizing before with
  | nil => exact ⟨[], .nil, by rw [List.flatten_nil, List.append_nil, List.foldl_nil]⟩
  | cons shop rest ih =>
    obtain ⟨first, outcome, contributes, hends⟩ := exists_contributes shop
    obtain ⟨built, hrest, hfold⟩ := ih (before ++ first)
    refine ⟨first :: built, .cons (fun services => ?_) hrest, ?_⟩
    · rw [(hends services).1]
      exact contributes
    · rw [List.foldl_cons, (hends _).2, Service.fileAll_grouped, hfold, List.append_assoc,
        List.flatten_cons]

/-- Each description contributes a list of operations, and the register is all of them, grouped. -/
theorem registered_grouped (shops : List Workshop) :
    ∃ built : List (List Operation),
      List.Forall₂ (fun shop operations => ∀ services,
        Workshop.Contributes shop operations (collectFrom shop services).failure) shops built ∧
      registered shops = Service.grouped built.flatten ∧
      (filedOperations (registered shops)).Perm built.flatten := by
  obtain ⟨built, contributes, hfold⟩ := exists_foldl_collectFrom shops []
  have hregistered : registered shops = Service.grouped built.flatten := hfold
  refine ⟨built, contributes, hregistered, ?_⟩
  rw [hregistered]
  exact Service.perm_operations_grouped _

end OpenApi
