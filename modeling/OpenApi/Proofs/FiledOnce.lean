import OpenApi.Proofs.Inventory

/-
How often an operation stands in one service.

An operation is built once for each of its different tags, and a service has the name that is left
of a tag.  Tags are compared as they are written, so two tags that leave one name put the operation
into one service twice.  Nothing else does: every service holds each method of each path at most
once exactly when the tags of every operation leave different names (`filedOnce_iff`).  Paths stand
apart by their keys; only keys of different kinds that are written alike could meet.
-/
namespace OpenApi

/-- The services under which a declared operation is filed. -/
def declaredServices (preferences : Preferences) (node : Node) : List String :=
  (declaredTags preferences node).map (declaredService preferences)

/-- The paths of a description. -/
def declaredPaths (document : Node) : Entries :=
  ((document.get "paths").entries?.getD []).filter (·.2.isMap)

/-- Whether no operation that a description declares is filed twice in one place. -/
structure FiledApart (preferences : Preferences) (document : Node) : Prop where
  /-- The tags of an operation name different services. -/
  tags : ∀ entry ∈ declaredPaths document, ∀ method ∈ declaredMethods,
    (entry.2.get method.1).isMap → (declaredServices preferences (entry.2.get method.1)).Nodup
  /-- Paths whose keys are written alike have no method and service in common. -/
  paths : (declaredPaths document).Pairwise fun entry other =>
    entry.1.text?.getD "" = other.1.text?.getD "" → ∀ method ∈ declaredMethods,
      (entry.2.get method.1).isMap → (other.2.get method.1).isMap →
        List.Disjoint (declaredServices preferences (entry.2.get method.1))
          (declaredServices preferences (other.2.get method.1))

/-- Whether every service of a client holds each method of each path at most once. -/
def Client.FiledOnce (client : Client) : Prop :=
  ∀ service ∈ client.services, (service.operations.map fun o => (o.method, o.path)).Nodup

/-! ### Operations by their places -/

section
variable {services : List Service}

theorem Service.nodup_places_iff {service : Service}
    (own : ∀ operation ∈ service.operations, operation.service = service.name) :
    (service.operations.map Operation.place).Nodup ↔
      (service.operations.map fun o => (o.method, o.path)).Nodup := by
  have hplace : service.operations.map Operation.place =
      (service.operations.map fun o => (o.method, o.path)).map
        fun (method, path) => (method, path, service.name) := by
    rw [List.map_map]
    refine List.map_congr_left fun operation ho => ?_
    show (operation.method, operation.path, operation.service) = _
    rw [own operation ho]
    rfl
  rw [hplace]
  refine List.nodup_map_iff ?_
  rintro ⟨method, path⟩ ⟨method', path'⟩ h
  cases h
  rfl

theorem Service.name_of_mem_places {service : Service} {place : String × String × String}
    (own : ∀ operation ∈ service.operations, operation.service = service.name)
    (h : place ∈ service.operations.map Operation.place) : place.2.2 = service.name := by
  obtain ⟨operation, ho, rfl⟩ := List.mem_map.mp h
  exact own operation ho

/-- Operations in different services are at different places. -/
theorem WellFiled.nodup_places_iff (h : WellFiled services) :
    ((filedOperations services).map Operation.place).Nodup ↔
      ∀ service ∈ services, (service.operations.map fun o => (o.method, o.path)).Nodup := by
  have hapart : services.Pairwise (Function.onFun List.Disjoint
      fun service => service.operations.map Operation.place) := by
    have hnames : services.Pairwise fun service other => service.name ≠ other.name :=
      List.pairwise_map.mp h.nodup
    refine hnames.imp_of_mem fun {service other} hs hother hne place hplace hplace' => hne ?_
    rw [← Service.name_of_mem_places (h.own service hs) hplace,
      Service.name_of_mem_places (h.own other hother) hplace']
  rw [filedOperations, List.map_flatMap, List.nodup_flatMap]
  constructor
  · intro hnodup service hs
    exact (Service.nodup_places_iff (h.own service hs)).mp (hnodup.1 service hs)
  · intro hnodup
    exact ⟨fun service hs => (Service.nodup_places_iff (h.own service hs)).mpr (hnodup service hs),
      hapart⟩

end

/-! ### Declared places -/

/-- The methods of a path that are declared. -/
def methodsOf (item : Node) : List (String × String) :=
  declaredMethods.filter fun method => (item.get method.1).isMap

/-- Method, path and service of everything that is declared under one path. -/
def placesOf (preferences : Preferences) (entry : Scalar × Node) :
    List (String × String × String) :=
  (methodsOf entry.2).flatMap fun method =>
    (declaredTags preferences (entry.2.get method.1)).map fun tag =>
      (method.2, entry.1.text?.getD "", declaredService preferences tag)

section
variable {preferences : Preferences} {document : Node} {entry other : Scalar × Node}

theorem declaredPlaces_eq (preferences : Preferences) (document : Node) :
    declaredPlaces preferences document =
      (declaredPaths document).flatMap (placesOf preferences) := rfl

theorem mem_methodsOf {item : Node} {method : String × String} :
    method ∈ methodsOf item ↔ method ∈ declaredMethods ∧ (item.get method.1).isMap = true :=
  List.mem_filter

/-- A method is told by what an operation has of it. -/
theorem eq_of_verb_eq : ∀ method ∈ declaredMethods, ∀ other ∈ declaredMethods,
    method.2 = other.2 → method = other := by decide

theorem mem_placesOf {place : String × String × String} :
    place ∈ placesOf preferences entry ↔ place.2.1 = entry.1.text?.getD "" ∧
      ∃ method ∈ methodsOf entry.2, place.1 = method.2 ∧
        place.2.2 ∈ declaredServices preferences (entry.2.get method.1) := by
  unfold placesOf declaredServices
  simp only [List.mem_flatMap, List.mem_map]
  constructor
  · rintro ⟨method, hmethod, tag, htag, rfl⟩
    exact ⟨rfl, method, hmethod, rfl, tag, htag, rfl⟩
  · obtain ⟨verb, path, service⟩ := place
    rintro ⟨rfl, method, hmethod, rfl, tag, htag, rfl⟩
    exact ⟨method, hmethod, tag, htag, rfl⟩

theorem nodup_placesOf_iff : (placesOf preferences entry).Nodup ↔
    ∀ method ∈ methodsOf entry.2,
      (declaredServices preferences (entry.2.get method.1)).Nodup := by
  have hservices (method : String × String) :
      ((declaredTags preferences (entry.2.get method.1)).map fun tag =>
        (method.2, entry.1.text?.getD "", declaredService preferences tag)).Nodup ↔
          (declaredServices preferences (entry.2.get method.1)).Nodup := by
    have hplace : ((declaredTags preferences (entry.2.get method.1)).map fun tag =>
        (method.2, entry.1.text?.getD "", declaredService preferences tag)) =
          (declaredServices preferences (entry.2.get method.1)).map fun service =>
            (method.2, entry.1.text?.getD "", service) := by
      rw [declaredServices, List.map_map]
      rfl
    rw [hplace]
    exact List.nodup_map_iff fun _ _ h => (Prod.mk.inj (Prod.mk.inj h).2).2
  have hverbs : (methodsOf entry.2).Pairwise fun method method' => method.2 ≠ method'.2 :=
    List.Pairwise.filter _ (by decide)
  have hapart : (methodsOf entry.2).Pairwise (Function.onFun List.Disjoint fun method =>
      (declaredTags preferences (entry.2.get method.1)).map fun tag =>
        (method.2, entry.1.text?.getD "", declaredService preferences tag)) := by
    refine hverbs.imp fun hne place hplace hplace' => ?_
    obtain ⟨_, _, rfl⟩ := List.mem_map.mp hplace
    obtain ⟨_, _, h⟩ := List.mem_map.mp hplace'
    exact hne (Prod.mk.inj h).1.symm
  rw [placesOf, List.nodup_flatMap]
  constructor
  · exact fun h method hmethod => (hservices method).mp (h.1 method hmethod)
  · exact fun h => ⟨fun method hmethod => (hservices method).mpr (h method hmethod), hapart⟩

theorem disjoint_placesOf_iff :
    List.Disjoint (placesOf preferences entry) (placesOf preferences other) ↔
      (entry.1.text?.getD "" = other.1.text?.getD "" → ∀ method ∈ declaredMethods,
        (entry.2.get method.1).isMap → (other.2.get method.1).isMap →
          List.Disjoint (declaredServices preferences (entry.2.get method.1))
            (declaredServices preferences (other.2.get method.1))) := by
  constructor
  · intro hdisjoint hpath method hmethod hmap hmap' service hservice hservice'
    have hplace : (method.2, entry.1.text?.getD "", service) ∈ placesOf preferences entry :=
      mem_placesOf.mpr ⟨rfl, method, mem_methodsOf.mpr ⟨hmethod, hmap⟩, rfl, hservice⟩
    exact hdisjoint hplace
      (mem_placesOf.mpr ⟨hpath, method, mem_methodsOf.mpr ⟨hmethod, hmap'⟩, rfl, hservice'⟩)
  · intro hapart place hplace hplace'
    obtain ⟨hpath, method, hmethod, hverb, hservice⟩ := mem_placesOf.mp hplace
    obtain ⟨hpath', method', hmethod', hverb', hservice'⟩ := mem_placesOf.mp hplace'
    rw [mem_methodsOf] at hmethod hmethod'
    cases eq_of_verb_eq method hmethod.1 method' hmethod'.1 (hverb.symm.trans hverb')
    exact hapart (hpath.symm.trans hpath') method hmethod.1 hmethod.2 hmethod'.2 hservice hservice'

theorem nodup_declaredPlaces_iff :
    (declaredPlaces preferences document).Nodup ↔ FiledApart preferences document := by
  rw [declaredPlaces_eq, List.nodup_flatMap]
  constructor
  · rintro ⟨hnodup, hapart⟩
    constructor
    · intro entry hentry method hmethod hmap
      exact nodup_placesOf_iff.mp (hnodup entry hentry) method (mem_methodsOf.mpr ⟨hmethod, hmap⟩)
    · exact hapart.imp disjoint_placesOf_iff.mp
  · intro h
    constructor
    · intro entry hentry
      refine nodup_placesOf_iff.mpr fun method hmethod => ?_
      rw [mem_methodsOf] at hmethod
      exact h.tags entry hentry method hmethod.1 hmethod.2
    · exact h.paths.imp disjoint_placesOf_iff.mpr

end

/-! ### The client -/

namespace Client

/-- Every service holds each method of each path at most once, exactly when the tags of every
operation name different services. -/
theorem filedOnce_iff {preferences : Preferences} {document : Node} {client : Client}
    (h : (Client.resolve preferences document).client = .ok client) :
    client.FiledOnce ↔ FiledApart preferences document := by
  obtain ⟨dialect, root, models, _, made⟩ := exists_madeFrom_of_resolve h
  have inventory := made.inventory
  rw [← nodup_declaredPlaces_iff, ← inventory.places.nodup_iff, inventory.filed.nodup_places_iff]
  rfl

theorem filedOnce_petDocument : ∃ client,
    (Client.resolve {} petDocument).client = .ok client ∧ client.FiledOnce := by
  obtain ⟨client, hclient⟩ := Except.exists_of_isOk resolve_petDocument
  have hnodup : (declaredPlaces {} petDocument).Nodup := by decide +kernel
  exact ⟨client, hclient, (filedOnce_iff hclient).mpr (nodup_declaredPlaces_iff.mp hnodup)⟩

/-- Two tags that leave the same name put an operation into one service twice. -/
theorem not_filedOnce : ¬ ∀ (preferences : Preferences) (document : Node) (client : Client),
    (Client.resolve preferences document).client = .ok client → client.FiledOnce := by
  intro h
  obtain ⟨client, hclient⟩ := Except.exists_of_isOk resolve_taggedDocument
  obtain ⟨dialect, root, models, _, made⟩ := exists_madeFrom_of_resolve hclient
  have inventory := made.inventory
  have hnodup := inventory.filed.nodup_places_iff.mpr (h {} taggedDocument client hclient)
  rw [inventory.places.nodup_iff] at hnodup
  have htwice : ¬ (declaredPlaces {} taggedDocument).Nodup := by decide +kernel
  exact htwice hnodup

end Client
end OpenApi
