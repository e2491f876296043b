import OpenApi.Operation.Responses
import OpenApi.Proofs.KeptItems

/-
Which results of an operation are kept.

The results are the successes among the responses, one of each type: a result is left out if it has
the type of one that is kept already.  Having the same type is `Alike`: the same text of the type,
and elements that are alike where both models have any.  How the models came about, as references or
as records, in a header or in a body, and which properties they have is not compared.

The theorem this file exists for is `exists_alike_of_not_mem_results`: a result that is left out is
like one that stands before it and is kept.  The argument is about what is kept of the responses up
to some place (`keptOf`), which no later response changes.
-/
namespace OpenApi

/-- Two models are alike: the texts of their types are the same, and so are those of their elements
at every depth that both of them reach. -/
inductive Model.Alike : Model → Model → Prop where
  | intro {m n : Model} (text : m.toTypeText = n.toTypeText)
      (links : ∀ a ∈ m.link, ∀ b ∈ n.link, Alike a b) : Alike m n

/-- Two models are structurally equal: of the same kind, with the same text of the type and the same
properties, and with elements that are structurally equal if one of them has any. -/
inductive Model.StructurallyEqual : Model → Model → Prop where
  | plain {m n : Model} (kind : m.kind = n.kind) (text : m.toTypeText = n.toTypeText)
      (properties : m.properties = n.properties) (left : m.link = none) (right : n.link = none) :
      StructurallyEqual m n
  | linked {m n a b : Model} (kind : m.kind = n.kind) (text : m.toTypeText = n.toTypeText)
      (properties : m.properties = n.properties) (left : m.link = some a) (right : n.link = some b)
      (elements : StructurallyEqual a b) : StructurallyEqual m n

namespace Response

open Model (Alike StructurallyEqual)

/-! ### Models of the same type -/

theorem sameType_linked {m n a b : Model} (hm : m.link = some a) (hn : n.link = some b) :
    sameType m n = (m.toTypeText == n.toTypeText && sameType a b) := by
  obtain ⟨_, _, _, link⟩ := m
  subst hm
  rw [sameType, hn]

theorem sameType_unlinked {m n : Model} (h : m.link = none ∨ n.link = none) :
    sameType m n = (m.toTypeText == n.toTypeText) := by
  obtain ⟨_, _, _, link⟩ := m
  cases link with
  | none => rfl
  | some a => rw [sameType, h.resolve_left nofun, Bool.and_true]

theorem sizeOf_link_lt {m a : Model} (h : m.link = some a) : sizeOf a < sizeOf m := by
  obtain ⟨_, _, _, link⟩ := m
  subst h
  simp +arith

/-- The comparison finds out whether models are alike.  The recursion is into the elements of the
first model, as in the comparison itself. -/
theorem sameType_iff (m n : Model) : sameType m n = true ↔ Alike m n := by
  match hm : m.link, hn : n.link with
  | none, _ =>
    rw [sameType_unlinked (.inl hm), beq_iff_eq]
    exact ⟨fun text => ⟨text, by simp [hm]⟩, fun ⟨text, _⟩ => text⟩
  | some a, none =>
    rw [sameType_unlinked (.inr hn), beq_iff_eq]
    exact ⟨fun text => ⟨text, by simp [hn]⟩, fun ⟨text, _⟩ => text⟩
  | some a, some b =>
    have elements := sameType_iff a b
    rw [sameType_linked hm hn, Bool.and_eq_true, beq_iff_eq, elements]
    constructor
    · rintro ⟨text, alike⟩
      exact ⟨text, by simpa [hm, hn] using alike⟩
    · rintro ⟨text, links⟩
      exact ⟨text, links a hm b hn⟩
termination_by m
decreasing_by exact sizeOf_link_lt hm

/-! ### What is kept -/

theorem isResult_iff {r : Response} :
    isResult r = true ↔ 200 ≤ r.code ∧ r.code < 300 ∧ r.code ≠ 204 := by
  simp [isResult, and_assoc]

/-- What is kept once a further result has been looked at. -/
def keepNew (kept : List Response) (r : Response) : List Response :=
  if kept.any (fun seen => sameType r.toModel seen.toModel) then kept else kept ++ [r]

theorem keepNew_cases (kept : List Response) (r : Response) :
    (keepNew kept r = kept ∧ ∃ seen ∈ kept, Alike r.toModel seen.toModel) ∨
      (keepNew kept r = kept ++ [r] ∧ ∀ seen ∈ kept, ¬ Alike r.toModel seen.toModel) := by
  have hany : kept.any (fun seen => sameType r.toModel seen.toModel) = true ↔
      ∃ seen ∈ kept, Alike r.toModel seen.toModel := by
    simp only [List.any_eq_true, sameType_iff]
  rw [keepNew]
  split
  · next found => exact .inl ⟨rfl, hany.mp found⟩
  · next missing =>
    exact .inr ⟨rfl, fun seen hseen alike => missing (hany.mpr ⟨seen, hseen, alike⟩)⟩

/-- What is kept of the results among responses. -/
def keptOf (responses : List Response) : List Response :=
  (responses.filter isResult).foldl keepNew []

theorem keptOf_eq (responses : List Response) : keptOf responses =
    firstOnes (fun seen r => sameType r.toModel seen.toModel) (responses.filter isResult) := rfl

theorem keptOf_concat {r : Response} (before : List Response) (h : isResult r = true) :
    keptOf (before ++ [r]) = keepNew (keptOf before) r := by
  rw [keptOf, List.filter_append, List.filter_cons_of_pos h, List.filter_nil, List.foldl_append,
    List.foldl_cons, List.foldl_nil, keptOf]

/-- What is kept is kept for good, and what is added is added behind it. -/
theorem keptOf_extends (before after : List Response) :
    keptOf before <+: keptOf (before ++ after) := by
  rw [keptOf_eq, keptOf_eq, List.filter_append]
  exact firstOnes_extends _ _

/-- What is kept are results, in the order in which the responses have them. -/
theorem keptOf_sublist (responses : List Response) :
    (keptOf responses).Sublist (responses.filter isResult) := firstOnes_sublist _

/-- No two of what is kept are alike. -/
theorem pairwise_keptOf (responses : List Response) :
    (keptOf responses).Pairwise fun seen r => ¬ Alike r.toModel seen.toModel := by
  rw [keptOf_eq]
  refine (pairwise_firstOnes _).imp fun {seen r} apart alike => ?_
  rw [(sameType_iff r.toModel seen.toModel).mpr alike] at apart
  cases apart

/-! ### The results -/

theorem results_eq {responses : List Response} (h : ∃ r ∈ responses, isResult r = true) :
    results responses = keptOf responses := by
  obtain ⟨r, hr, success⟩ := h
  have found : r ∈ responses.filter isResult := List.mem_filter.mpr ⟨hr, success⟩
  rw [results]
  split
  · next none => exact absurd (none ▸ found) List.not_mem_nil
  · rfl

theorem results_eq_nothing {responses : List Response} (h : ∀ r ∈ responses, isResult r = false) :
    results responses = [nothing] := by
  have none : responses.filter isResult = [] :=
    List.filter_eq_nil_iff.mpr fun r hr => by simp [h r hr]
  rw [results, none]

/-- No two results are alike. -/
theorem pairwise_results (responses : List Response) :
    (results responses).Pairwise fun seen r => ¬ Alike r.toModel seen.toModel := by
  by_cases h : ∃ r ∈ responses, isResult r = true
  · exact results_eq h ▸ pairwise_keptOf responses
  · rw [results_eq_nothing fun r hr => Bool.eq_false_iff.mpr fun success => h ⟨r, hr, success⟩]
    exact List.pairwise_singleton _ _

/-- A success that is not among the results is like one that stands before it and is among them. -/
theorem exists_alike_of_not_mem_results {before after : List Response} {r : Response}
    (success : 200 ≤ r.code ∧ r.code < 300 ∧ r.code ≠ 204)
    (missing : r ∉ results (before ++ r :: after)) :
    ∃ seen ∈ before, seen ∈ results (before ++ r :: after) ∧ Alike r.toModel seen.toModel := by
  have found := isResult_iff.mpr success
  have joined : before ++ r :: after = (before ++ [r]) ++ after := by simp
  rw [results_eq ⟨r, by simp, found⟩] at missing ⊢
  have later := (keptOf_extends (before ++ [r]) after).subset
  rw [← joined, keptOf_concat before found] at later
  obtain ⟨same, seen, hseen, alike⟩ | ⟨added, -⟩ := keepNew_cases (keptOf before) r
  · have hbefore := (List.mem_filter.mp ((keptOf_sublist before).subset hseen)).1
    exact ⟨seen, hbefore, later (same.symm ▸ hseen), alike⟩
  · exact absurd (later (added.symm ▸ List.mem_append_right _ List.mem_cons_self)) missing

/-- A response with a pet in it. -/
def petResponse (code : Int) : Response :=
  { type := "Pet", base := "Pet", kind := .reference, code := code }

theorem exists_alike_of_pets :
    petResponse 201 ∉ results ([petResponse 200] ++ petResponse 201 :: [nothing]) ∧
      ∃ seen ∈ [petResponse 200],
        seen ∈ results ([petResponse 200] ++ petResponse 201 :: [nothing]) ∧
          Alike (petResponse 201).toModel seen.toModel := by
  have missing : petResponse 201 ∉ results ([petResponse 200] ++ petResponse 201 :: [nothing]) := by
    have hresults : (results ([petResponse 200] ++ petResponse 201 :: [nothing])).map (·.code) =
        [200, 200] := by decide +kernel
    intro h
    exact absurd (hresults ▸ List.mem_map_of_mem h) (by decide)
  exact ⟨missing, exists_alike_of_not_mem_results (by decide) missing⟩

/-- A response with a record in it that has one property. -/
def recordResponse (code : Int) (property : String) : Response :=
  { kind := .record, properties := [{ name := property, type := "string", base := "string" }],
    code := code }

/-- Records are alike whatever their properties are, so only the first of them is kept. -/
theorem not_structurallyEqual_records :
    ¬ ∀ (before after : List Response) (r : Response),
      200 ≤ r.code ∧ r.code < 300 ∧ r.code ≠ 204 → r ∉ results (before ++ r :: after) →
        ∃ seen ∈ before, seen ∈ results (before ++ r :: after) ∧ r.source = seen.source ∧
          StructurallyEqual r.toModel seen.toModel := by
  intro h
  have hresults : (results ([recordResponse 200 "id"] ++ recordResponse 201 "name" :: [])).map
      (·.code) = [200] := by decide +kernel
  obtain ⟨seen, hseen, -, -, equal⟩ := h [recordResponse 200 "id"] [] (recordResponse 201 "name")
    (by decide) fun hmem => absurd (hresults ▸ List.mem_map_of_mem hmem) (by decide)
  rw [List.mem_singleton] at hseen
  subst hseen
  have properties : (recordResponse 201 "name").properties.map (·.name) =
      (recordResponse 200 "id").properties.map (·.name) := by
    cases equal with
    | plain _ _ properties => rw [properties]
    | linked _ _ properties => rw [properties]
  exact absurd properties (by decide)

end Response
end OpenApi
