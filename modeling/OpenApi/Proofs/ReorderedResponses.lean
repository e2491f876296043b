import OpenApi.Proofs.CorrespondingOperations
import OpenApi.Proofs.Entries
import OpenApi.Proofs.ModelSources
import OpenApi.Proofs.Termination
import Mathlib.Data.List.Nodup
import Mathlib.Data.List.Perm.Basic

/-
Responses in another order.

A description lists the responses of an operation in some order, and a reader of the description
may not care which one.  Neither does the operation that is built, as long as no two keys stand for
one status code: the responses are ordered by their codes before results and errors are taken from
them, and that order leaves no choice.  The theorem this file exists for is
`build_withResponses_iff`.  With two keys for one code, `default` and `200` say, the one that
stands first would come first.
-/
namespace OpenApi

/-! ### Members with another value -/

namespace Node

variable {node : Node} {key : String}

/-- The value with another value for one of its members, if it is a map. -/
def withMember (node : Node) (key : String) (value : Node) : Node :=
  match node with
  | .map entries => .map (Entries.insert (.str key) value entries)
  | node => node

theorem get?_withMember_of_ne {other : String} (h : other ≠ key) (value : Node) :
    (node.withMember key value).get? other = node.get? other := by
  cases node with
  | map entries => exact Entries.get?_insert_of_ne h value
  | _ => rfl

theorem get_withMember_of_ne {other : String} (h : other ≠ key) (value : Node) :
    (node.withMember key value).get other = node.get other := by
  rw [get, get?_withMember_of_ne h, get]

theorem get_withMember_self {found : Node} (h : node.get? key = some found) (value : Node) :
    (node.withMember key value).get key = value := by
  cases node with
  | map entries =>
    show (Entries.get? key (Entries.insert (.str key) value entries)).getD .null = value
    rw [Entries.get?_insert_self]
    rfl
  | _ => cases h

end Node

/-! ### The responses of a map -/

namespace Response

variable {shop : Workshop} {entries entries' : Entries}

/-- The status codes that the keys of a responses map stand for. -/
def codes (entries : Entries) : List Int :=
  entries.filterMap fun entry => (codeOf? entry.1).toOption.join

theorem code_of_ofMember? {entry : Scalar × Node} {found : Option Response}
    (h : ofMember? shop entry = .ok found) :
    found.map (·.code) = (codeOf? entry.1).toOption.join := by
  obtain ⟨code, hcode, h⟩ := Except.bind_eq_ok_iff.mp h
  rw [hcode]
  cases code with
  | some code =>
    obtain ⟨response, hbuilt, h⟩ := Except.bind_eq_ok_iff.mp h
    cases h
    exact congrArg some (code_of_build hbuilt)
  | none =>
    cases h
    rfl

/-- The responses have the codes that the keys stand for. -/
theorem map_code_of_mapM {found : List (Option Response)}
    (h : entries.mapM (ofMember? shop) = .ok found) :
    (found.filterMap id).map (·.code) = codes entries := by
  rw [Except.filterMap_of_mapM h, List.map_filterMap, codes]
  refine List.filterMap_congr fun entry hentry => ?_
  obtain ⟨response, hresponse⟩ := Except.exists_of_mapM h hentry
  rw [hresponse]
  exact code_of_ofMember? hresponse

/-- Responses with different codes have one order by their codes, whatever order they had before. -/
theorem mergeSort_eq_of_perm {responses responses' : List Response}
    (perm : responses.Perm responses') (apart : (responses.map (·.code)).Nodup) :
    responses.mergeSort (fun a b => a.code ≤ b.code) =
      responses'.mergeSort (fun a b => a.code ≤ b.code) := by
  have ordered (items : List Response) :
      (items.mergeSort fun a b => a.code ≤ b.code).Pairwise fun a b => a.code ≤ b.code := by
    refine (List.pairwise_mergeSort (fun a b c hab hbc => ?_) (fun a b => ?_) items).imp
      of_decide_eq_true
    · simp only [decide_eq_true_eq] at hab hbc ⊢
      omega
    · simp only [Bool.or_eq_true, decide_eq_true_eq]
      omega
  have same := List.mergeSort_perm responses fun a b => a.code ≤ b.code
  have same' := List.mergeSort_perm responses' fun a b => a.code ≤ b.code
  refine List.Perm.eq_of_pairwise (fun a b ha hb hab hba => ?_) (ordered responses)
    (ordered responses') (same.trans (perm.trans same'.symm))
  have hb' : b ∈ responses := perm.mem_iff.mpr (same'.mem_iff.mp hb)
  exact List.inj_on_of_nodup_map apart (same.mem_iff.mp ha) hb' (by omega)

end Response

/-- The responses of a map that lists them in another order. -/
theorem Response.buildAll_inStep {shop : Workshop} {entries entries' : Entries}
    {excused : Failure → Prop} (perm : entries.Perm entries') (apart : (codes entries).Nodup) :
    InStepUnless excused Eq (buildAll shop (.map entries)) (buildAll shop (.map entries')) := by
  rw [buildAll_eq, buildAll_eq]
  refine ((InStepUnless.mapM_of_perm perm).imp fun found found' hfound same => ?_).map
    fun _ _ sorted => sorted
  rw [← map_code_of_mapM hfound] at apart
  exact mergeSort_eq_of_perm (same.filterMap id) apart

namespace OperationEntry

variable {shop : Workshop} {entry : OperationEntry}

/-- The entry with another responses map. -/
def withResponses (entry : OperationEntry) (responses : Entries) : OperationEntry :=
  { entry with node := entry.node.withMember "responses" (.map responses) }

theorem get?_withResponses {key : String} (h : key ≠ "responses") (responses : Entries) :
    (entry.withResponses responses).node.get? key = entry.node.get? key :=
  Node.get?_withMember_of_ne h _

theorem get_withResponses {key : String} (h : key ≠ "responses") (responses : Entries) :
    (entry.withResponses responses).node.get key = entry.node.get key :=
  Node.get_withMember_of_ne h _

theorem body?_withResponses (shop : Workshop) (entry : OperationEntry) (responses : Entries) :
    (entry.withResponses responses).body? shop = entry.body? shop := by
  unfold body?
  rw [get?_withResponses (by decide)]

theorem assemble_withResponses (path : String) (declared : List Parameter)
    (body : Option Parameter) (responses : Entries) :
    assemble shop (entry.withResponses responses) path declared body =
      assemble shop entry path declared body := by
  have hname : nameFor (entry.withResponses responses).node entry.method =
      nameFor entry.node entry.method := by
    rw [nameFor, get_withResponses (by decide), nameFor]
  funext found
  unfold assemble
  rw [get_withResponses (by decide), get_withResponses (by decide), get_withResponses (by decide),
    ← hname]
  rfl

/-- What comes of the rest of an operation whose responses stand in another order. -/
theorem finish_inStep {responses responses' : Entries} {excused : Failure → Prop}
    (declares : entry.node.get? "responses" = some (.map responses))
    (perm : responses.Perm responses') (apart : (Response.codes responses).Nodup) (path : String)
    (declared : List Parameter) :
    InStepUnless excused Eq (finish shop entry path declared)
      (finish shop (entry.withResponses responses') path declared) := by
  have before : entry.node.get "responses" = .map responses := by
    rw [Node.get, declares]
    rfl
  have after : (entry.withResponses responses').node.get "responses" = .map responses' :=
    Node.get_withMember_self declares _
  unfold finish
  rw [body?_withResponses, before, after]
  refine (InStepUnless.refl (entry.body? shop)).bind_eq fun body _ => ?_
  refine (Response.buildAll_inStep perm apart).bind_eq fun found _ => ?_
  rw [assemble_withResponses]
  exact .refl _

/-- The order in which an operation lists its responses changes nothing of the operation, nor of the
warnings, if no two keys stand for one status code. -/
theorem build_withResponses_iff {responses responses' : Entries}
    (declares : entry.node.get? "responses" = some (.map responses))
    (perm : responses.Perm responses') (apart : (Response.codes responses).Nodup) :
    ((entry.withResponses responses').build shop).warnings = (entry.build shop).warnings ∧
      ∀ operation, ((entry.withResponses responses').build shop).operation = .ok operation ↔
        (entry.build shop).operation = .ok operation := by
  have nodes : (entry.withResponses responses').parameterNodes = entry.parameterNodes := by
    rw [parameterNodes, get_withResponses (by decide), parameterNodes]
    rfl
  have same : (entry.withResponses responses').path = entry.path := rfl
  unfold build
  rw [nodes, same]
  cases entry.path.written with
  | error failure => exact ⟨rfl, fun _ => Iff.rfl⟩
  | ok path =>
    dsimp only
    cases Parameter.buildAll shop entry.parameterNodes with
    | error failure => exact ⟨rfl, fun _ => Iff.rfl⟩
    | ok declared =>
      have rest := (@finish_inStep shop entry _ _ _ declares perm apart path declared).inStep
      exact ⟨rfl, fun operation => rest.eq_ok_iff.symm⟩

/-- Responses with a body, with a header, with neither, and one that stands for no status code. -/
def listAnswers : Entries :=
  [(.str "404", .map [(.str "description", .str "No such shelter")]),
    (.str "5XX", .map []),
    (.int 201, .map [(.str "headers", .map [(.str "Location", .map [])])]),
    (.str "default", .map [(.str "content", .map
      [(.str "application/json", .map [(.str "schema", .map [(.str "type", .str "string")])])])])]

/-- An operation that lists its responses in no particular order. -/
def listEntry : OperationEntry where
  path := .str "/pets"
  method := "get"
  tag := "pets"
  node := .map [(.str "summary", .str "All pets"), (.str "responses", .map listAnswers)]
  pathParameters := []

/-- The workshop of an OpenAPI 3 description that shares nothing. -/
def listShop : Workshop where
  document := .map []
  dialect := .v3

theorem isOk_build_listEntry : (listEntry.build listShop).operation.isOk = true := by
  delta build finish Parameter.buildAll Parameter.build? body? Parameter.buildBody?
    Response.buildAll Response.ofMember? Response.build
  rw [Schema.build_eq fun _ => .error (.malformed .endless)]
  decide +kernel

theorem build_withResponses_listAnswers :
    listEntry.node.get? "responses" = some (.map listAnswers) ∧
      listAnswers.Perm listAnswers.reverse ∧ (Response.codes listAnswers).Nodup ∧
      ∃ operation, (listEntry.build listShop).operation = .ok operation ∧
        ((listEntry.withResponses listAnswers.reverse).build listShop).operation =
          .ok operation := by
  have declares : listEntry.node.get? "responses" = some (.map listAnswers) := rfl
  have perm : listAnswers.Perm listAnswers.reverse := (List.reverse_perm listAnswers).symm
  have apart : (Response.codes listAnswers).Nodup := by
    have hcodes : Response.codes listAnswers = [404, 201, 200] := by decide +kernel
    rw [hcodes]
    decide
  obtain ⟨operation, hbuilt⟩ := Except.exists_of_isOk isOk_build_listEntry
  have same := (@build_withResponses_iff listShop listEntry _ _ declares perm apart).2 operation
  exact ⟨declares, perm, apart, operation, hbuilt, same.mpr hbuilt⟩

end OperationEntry
end OpenApi
