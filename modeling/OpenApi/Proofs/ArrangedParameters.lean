import OpenApi.Proofs.DeclaredParameters
import OpenApi.Proofs.Inventory

/-
Where an operation keeps its parameters.

An operation holds each of its parameters in one list, those without which it cannot be called
first, and once more by its location.  `Operation.Arranged` says where those that are declared
(`Parameter.Declares`) and the body of the request end up: in the list as a stable partition, by
location in the order of declaration.  Tidying changes the parameters in each place on its own.  What
was the same before is the same afterwards (`Operation.Corresponds`), since tidying a parameter looks
at nothing but the parameter.
-/
namespace OpenApi

/-! ### Stable partitions -/

/-- A list with the items of one kind moved to its front, where both kinds keep their order. -/
structure StablePartition {α : Type} (p : α → Bool) (items sorted : List α) : Prop where
  first : sorted.Pairwise fun a b => p b = true → p a = true
  kept : sorted.filter p = items.filter p
  others : sorted.filter (!p ·) = items.filter (!p ·)

namespace StablePartition

variable {α β : Type} {p : α → Bool} {items sorted : List α}

theorem filter_append (p : α → Bool) (items : List α) :
    StablePartition p items (items.filter p ++ items.filter (!p ·)) where
  first := by
    refine List.pairwise_append.mpr ⟨?_, ?_, ?_⟩
    · refine List.pairwise_of_forall_mem_list fun a ha b _ _ => ?_
      exact (List.mem_filter.mp ha).2
    · refine List.pairwise_of_forall_mem_list fun a _ b hb hp => ?_
      have hnot := (List.mem_filter.mp hb).2
      simp [hp] at hnot
    · intro a ha b _ _
      exact (List.mem_filter.mp ha).2
  kept := by simp [List.filter_filter]
  others := by simp [List.filter_filter]

theorem mem_iff (h : StablePartition p items sorted) {a : α} : a ∈ sorted ↔ a ∈ items := by
  have hkept : a ∈ sorted.filter p ↔ a ∈ items.filter p := by rw [h.kept]
  have hothers : a ∈ sorted.filter (!p ·) ↔ a ∈ items.filter (!p ·) := by rw [h.others]
  cases hp : p a with
  | true => simpa [hp] using hkept
  | false => simpa [hp] using hothers

/-- What is done to every item is done to the partition, if it leaves the kind of the items. -/
theorem map (h : StablePartition p items sorted) {q : β → Bool} {f : α → β}
    (hkind : ∀ a, q (f a) = p a) : StablePartition q (items.map f) (sorted.map f) := by
  have hcomp : q ∘ f = p := funext hkind
  have hcomp' : (fun b => !q b) ∘ f = fun a => !p a := funext fun a => by simp [hkind]
  constructor
  · simpa [List.pairwise_map, hkind] using h.first
  · rw [List.filter_map, List.filter_map, hcomp, h.kept]
  · rw [List.filter_map, List.filter_map, hcomp', h.others]

end StablePartition

/-! ### Tidying -/

namespace Parameter

theorem isIndispensable_tidy (parameter : Parameter) :
    isIndispensable parameter.tidy = isIndispensable parameter := by
  obtain ⟨⟨⟩⟩ := parameter
  rfl

end Parameter

/-! ### Places -/

/-- The parameters of one location; the body is the only one of its location. -/
def LocatedParameters.bucket (groups : LocatedParameters) : Location → List Parameter
  | .path => groups.path
  | .query => groups.query
  | .header => groups.header
  | .cookie => groups.cookie
  | .formData => groups.form
  | .body => groups.body.toList

theorem LocatedParameters.bucket_tidy (groups : LocatedParameters) (location : Location) :
    groups.tidy.bucket location = (groups.bucket location).map Parameter.tidy := by
  cases location with
  | body => exact Option.toList_map
  | _ => rfl

theorem Parameter.bucket_group {parameters : List Parameter} {location : Location}
    (h : location ≠ .body) : (group parameters).bucket location = located location parameters := by
  cases location with
  | body => exact absurd rfl h
  | _ => rfl

namespace Operation

/-- Where an operation keeps the parameters that are declared for it and the body of the request, if
there is one. -/
structure Arranged (operation : Operation) (declared : List Parameter) (body : Option Parameter) :
    Prop where
  parameters :
    StablePartition Parameter.isIndispensable (declared ++ body.toList) operation.parameters
  /-- A body that is sent as a form is among no parameters of forms. -/
  groups : ∀ location ≠ .body,
    operation.groups.bucket location = declared.filter (·.location = location)
  body : operation.groups.body = body.or (declared.filter (·.location = .body)).getLast?

/-- Whether a parameter by location that was the same as one in the list is still the same. -/
structure Corresponds (before after : Operation) : Prop where
  listed : ∀ location, ∀ p ∈ before.groups.bucket location, p ∈ before.parameters
  length : ∀ location,
    (after.groups.bucket location).length = (before.groups.bucket location).length
  same : ∀ (location : Location) (k j : Nat) (p : Parameter),
    (before.groups.bucket location)[k]? = some p → before.parameters[j]? = some p →
      ∃ q, (after.groups.bucket location)[k]? = some q ∧ after.parameters[j]? = some q

variable {operation tidied : Operation} {declared : List Parameter} {body : Option Parameter}

theorem Arranged.mem_of_mem_bucket (h : operation.Arranged declared body) {location : Location}
    {p : Parameter} (hp : p ∈ operation.groups.bucket location) : p ∈ operation.parameters := by
  refine h.parameters.mem_iff.mpr (List.mem_append.mpr ?_)
  by_cases hbody : location = .body
  · subst hbody
    have hsome : operation.groups.body = some p := Option.mem_toList.mp hp
    rw [h.body] at hsome
    cases body with
    | some b => exact .inr (Option.mem_toList.mpr hsome)
    | none => exact .inl (List.mem_of_mem_filter (List.mem_of_getLast? hsome))
  · rw [h.groups location hbody] at hp
    exact .inl (List.mem_of_mem_filter hp)

theorem Arranged.of_isTidied (h : operation.Arranged declared body)
    (htidied : operation.IsTidied tidied) :
    tidied.Arranged (declared.map Parameter.tidy) (body.map Parameter.tidy) := by
  obtain ⟨number, rfl⟩ := htidied
  constructor
  · show StablePartition _ _ (operation.parameters.map Parameter.tidy)
    rw [Option.toList_map, ← List.map_append]
    exact h.parameters.map Parameter.isIndispensable_tidy
  · intro location hlocation
    show operation.groups.tidy.bucket location = _
    rw [LocatedParameters.bucket_tidy, h.groups location hlocation, List.filter_map]
    rfl
  · show operation.groups.body.map Parameter.tidy = _
    rw [h.body, List.filter_map, List.getLast?_map, Option.map_or]
    rfl

theorem Arranged.corresponds (h : operation.Arranged declared body)
    (htidied : operation.IsTidied tidied) : operation.Corresponds tidied := by
  obtain ⟨number, rfl⟩ := htidied
  have hbucket (location : Location) :=
    LocatedParameters.bucket_tidy operation.groups location
  constructor
  · intro location p hp
    exact h.mem_of_mem_bucket hp
  · intro location
    show (operation.groups.tidy.bucket location).length = _
    rw [hbucket, List.length_map]
  · intro location k j p hk hj
    refine ⟨p.tidy, ?_, ?_⟩
    · show (operation.groups.tidy.bucket location)[k]? = _
      rw [hbucket, List.getElem?_map, hk]
      rfl
    · show (operation.parameters.map Parameter.tidy)[j]? = _
      rw [List.getElem?_map, hj]
      rfl

end Operation

namespace OperationEntry

variable {shop : Workshop} {entry : OperationEntry} {operation : Operation}

theorem arranged_assemble (path : String) (declared : List Parameter) (body : Option Parameter)
    (responses : List Response) :
    (assemble shop entry path declared body responses).Arranged declared body where
  parameters := StablePartition.filter_append _ _
  groups := by
    intro location hlocation
    have hgroup : (Parameter.group declared).bucket location = Parameter.located location declared :=
      Parameter.bucket_group hlocation
    cases location with
    | body => exact absurd rfl hlocation
    | _ => exact hgroup
  body := rfl

/-- Every operation keeps the parameters that are declared for it in two places, and they agree when
it is built and after it is tidied together with others. -/
theorem arranged_of_build (h : (entry.build shop).operation = .ok operation) :
    ∃ declared body,
      Parameter.Declares shop (entry.pathParameters ++
        ((entry.node.get "parameters").items?.getD [])) declared ∧
      entry.body? shop = .ok body ∧ operation.Arranged declared body ∧
      ∀ (operations : List Operation) (i : Nat) (tidied : Operation),
        operations[i]? = some operation → (Operation.tidyAll operations)[i]? = some tidied →
          tidied.Arranged (declared.map Parameter.tidy) (body.map Parameter.tidy) ∧
            operation.Corresponds tidied := by
  obtain ⟨path, declared, body, responses, -, hdeclared, hbody, -, rfl⟩ := exists_assemble_of_build h
  have harranged : (assemble shop entry path declared body responses).Arranged declared body :=
    arranged_assemble path declared body responses
  refine ⟨declared, body, hdeclared, hbody, harranged, fun operations i tidied hi htidied => ?_⟩
  obtain ⟨hlt, hget⟩ := List.getElem?_eq_some_iff.mp hi
  obtain ⟨hlt', hget'⟩ := List.getElem?_eq_some_iff.mp htidied
  have hpairs := (List.forall₂_iff_get.mp (Operation.forall₂_tidyFrom [] operations)).2 i hlt hlt'
  have hpair : (assemble shop entry path declared body responses).IsTidied tidied := by
    rw [List.get_eq_getElem, List.get_eq_getElem, hget] at hpairs
    exact hget' ▸ hpairs
  exact ⟨harranged.of_isTidied hpair, harranged.corresponds hpair⟩

/-- The workshop of an OpenAPI 3 description whose operations leave out one parameter. -/
def petShop : Workshop where
  document := .map [(.str "openapi", .str "3.0.0")]
  dialect := .v3
  preferences := { excludedParameters := ["token"] }

/-- An operation that is sent as a form, with parameters of its path and of its own. -/
def petEntry : OperationEntry where
  path := .str "/pets/\x7bid\x7d"
  method := "post"
  tag := "pets"
  node := .map
    [(.str "parameters", .list
        [parameter "limit" "query" false, parameter "token" "query" true,
          parameter "key" "query" true]),
      (.str "requestBody", .map
        [(.str "required", .bool true),
          (.str "content", .map [(.str "multipart/form-data", .map [(.str "schema", .map [])])])])]
  pathParameters := [parameter "lang" "header" false, parameter "id" "path" true]
where
  parameter (name location : String) (required : Bool) : Node := .map
    [(.str "name", .str name), (.str "in", .str location), (.str "required", .bool required)]

theorem isOk_build_petEntry : (petEntry.build petShop).operation.isOk = true := by
  delta build finish Parameter.buildAll Parameter.build? body? Parameter.buildBody?
    Response.buildAll Response.ofMember? Response.build
  rw [Schema.build_eq fun _ => .error (.malformed .endless)]
  decide +kernel

theorem arranged_petEntry : ∃ operation, (petEntry.build petShop).operation = .ok operation ∧
    ∃ declared body, Parameter.Declares petShop petEntry.parameterNodes declared ∧
      petEntry.body? petShop = .ok body ∧ operation.Arranged declared body ∧
      ∃ tidied, Operation.tidyAll [operation] = [tidied] ∧ operation.Corresponds tidied := by
  obtain ⟨operation, hbuilt⟩ := Except.exists_of_isOk isOk_build_petEntry
  obtain ⟨declared, body, hdeclared, hbody, harranged, htidied⟩ := arranged_of_build hbuilt
  exact ⟨operation, hbuilt, declared, body, hdeclared, hbody, harranged, _, rfl,
    (htidied [operation] 0 _ rfl rfl).2⟩

end OperationEntry
end OpenApi
