import OpenApi.Proofs.Jobs

/-
Why a job fails.

A job looks at its schema and asks for other jobs, and what fails is one of the two.  `Job.Fails`
lists the places where looking at a schema can fail, and `fails_of_run` says that there are no
others.  What has to be known of every failure of a job is then a question for each of these places,
and the rules need not be gone through again.
-/
namespace OpenApi

/-- Whether a value stands under `$ref` somewhere in another one. -/
def Node.IsReferenceIn (ref whole : Node) : Prop :=
  ∃ holder : Node, holder.OccursIn whole ∧ holder.get? "$ref" = some ref

theorem Node.IsReferenceIn.occursIn {ref whole : Node} (h : ref.IsReferenceIn whole) :
    ref.OccursIn whole := by
  obtain ⟨holder, hholder, href⟩ := h
  exact (occursIn_of_get? href).trans hholder

theorem Node.IsReferenceIn.trans {ref part whole : Node} (h : ref.IsReferenceIn part)
    (hpart : part.OccursIn whole) : ref.IsReferenceIn whole := by
  obtain ⟨holder, hholder, href⟩ := h
  exact ⟨holder, hholder.trans hpart, href⟩

theorem Node.not_isReferenceIn_empty {ref : Node} : ¬ ref.IsReferenceIn (.map []) := by
  rintro ⟨holder, hholder, href⟩
  cases hholder with
  | whole => cases href
  | entry mem _ => cases mem

namespace Schema.Job

/-- What can go wrong when a job is done. -/
inductive Fails (scope : Scope) (build : Job → Except Failure Model) (job : Job)
    (failure : Failure) : Prop where
  | shape (failed : shape job.schema = .error failure)
  | lookup {ref : Node} (stands : ref.IsReferenceIn job.schema)
      (failed : Reference.resolve scope.document ref = .error failure)
  | type {value format : Node} (stands : value.OccursIn job.schema)
      (failed : scope.typeOf value format = .error failure)
  | default {model : Model} (failed : withDefault job.schema model = .error failure)
  | name {entries : Entries} {entry : Scalar × Node}
      (declared : job.schema.get? "properties" = some (.map entries)) (mem : entry ∈ entries)
      (failed : entry.1.written = .error failure)
  | value {name : String}
      (failed : (propertyContext scope job.schema job.name).valueOf scope name = .error failure)
  | subjob {next : Job} (mem : next ∈ job.subjobs scope) (failed : build next = .error failure)

section
variable {scope : Scope} {build : Job → Except Failure Model} {job : Job} {failure : Failure}
  {found : Shape}

/-- A reference in a part of a schema is one of the schema. -/
theorem isReferenceIn_of_part {part ref : Node} (hs : shape job.schema = .ok found)
    (hpart : part ∈ found.parts) (href : part.get? "$ref" = some ref) :
    ref.IsReferenceIn job.schema := by
  rcases source_of_partsOf (partsOf_shape hs) hpart with hoccurs | rfl
  · exact ⟨part, hoccurs, href⟩
  · cases href

theorem fails_of_element {node : Node} (hs : shape job.schema = .ok found)
    (hnode : node ∈ found.parts)
    (hsub : ∀ next ∈ job.elementJobs node, next ∈ job.subjobs scope)
    (h : element scope build job node = .error failure) : Fails scope build job failure := by
  unfold element at h
  split at h
  · rename_i ref href
    have hstands := isReferenceIn_of_part hs hnode href
    rcases Except.bind_eq_error_iff.mp h with h | ⟨_, _, h⟩
    · exact .lookup hstands h
    · rcases Except.bind_eq_error_iff.mp h with h | ⟨_, _, h⟩
      · exact .type hstands.occursIn h
      · cases h
  · rename_i hnone
    have hnext : job.inner node ∈ job.elementJobs node := by
      simp [elementJobs, Node.has, hnone]
    rcases Except.bind_eq_error_iff.mp h with h | ⟨_, _, h⟩
    · exact .subjob (hsub _ hnext) h
    · cases h

theorem fails_of_offered {member : Node} (hs : shape job.schema = .ok found)
    (hmember : member ∈ found.parts)
    (hsub : ∀ next ∈ job.offeredJobs scope member, next ∈ job.subjobs scope)
    (h : offered scope build job member = .error failure) : Fails scope build job failure := by
  unfold offered at h
  unfold offeredJobs at hsub
  split at h
  · rename_i ref href
    simp only [href] at hsub
    split at h
    · cases h
    · rename_i hfresh
      rw [if_neg hfresh] at hsub
      rcases Except.bind_eq_error_iff.mp h with h | ⟨schema, hfound, h⟩
      · exact .lookup (isReferenceIn_of_part hs hmember href) h
      · rw [hfound] at hsub
        exact .subjob (hsub _ List.mem_cons_self) (Except.map_eq_error_iff.mp h)
  · rename_i other _ href
    rcases Except.bind_eq_error_iff.mp h with h | ⟨_, _, h⟩
    · exact .lookup (isReferenceIn_of_part hs hmember href) h
    · cases h
  · rename_i hnone
    simp only [hnone] at hsub
    exact .subjob (hsub _ List.mem_cons_self) (Except.map_eq_error_iff.mp h)

theorem fails_of_declared (hsub : ∀ next ∈ job.declaredJobs, next ∈ job.subjobs scope)
    (h : declared scope build job = .error failure) : Fails scope build job failure := by
  unfold declared at h
  unfold declaredJobs at hsub
  split at h
  · rename_i entries hentries
    rw [hentries] at hsub
    obtain ⟨entry, hentry, h⟩ := Except.exists_of_mapM_eq_error h
    rcases Except.bind_eq_error_iff.mp h with h | ⟨name, _, h⟩
    · exact .name hentries hentry h
    · rcases Except.bind_eq_error_iff.mp h with h | ⟨value, _, h⟩
      · exact .value h
      · cases value with
        | some value => cases h
        | none =>
          exact .subjob (hsub _ (List.mem_map_of_mem hentry)) (Except.map_eq_error_iff.mp h)
  · cases h

theorem fails_of_promotable {members : List Node} (hs : shape job.schema = .ok found)
    (hmembers : ∀ member ∈ members, member ∈ found.parts)
    (hsub : ¬ (requiredNames job.schema).isEmpty → ∀ member ∈ members,
      ∀ next ∈ job.offeredJobs scope member, next ∈ job.subjobs scope)
    (h : promotable scope build job members = .error failure) : Fails scope build job failure := by
  unfold promotable at h
  split at h
  · cases h
  · rename_i hrequires
    obtain ⟨member, hmember, h⟩ := Except.exists_of_mapM_eq_error (Except.map_eq_error_iff.mp h)
    exact fails_of_offered hs (hmembers member hmember) (hsub hrequires member hmember) h

/-- A job fails where it looks at its schema, or as one of its subjobs does. -/
theorem fails_of_run (h : run scope build job = .error failure) : Fails scope build job failure := by
  cases hs : shape job.schema with
  | error failure' =>
    rw [run, hs] at h
    cases h
    exact .shape hs
  | ok found =>
    have hsubjobs := subjobs.eq_def scope job
    rw [hs] at hsubjobs
    rw [run_of_shape hs] at h
    cases found with
    | reference ref =>
      have hstands : ref.IsReferenceIn job.schema := by
        cases shapeOf_shape hs with
        | reference href => exact ⟨job.schema, .whole, href⟩
      rcases Except.bind_eq_error_iff.mp h with h | ⟨_, _, h⟩
      · exact .lookup hstands h
      · rcases Except.bind_eq_error_iff.mp h with h | ⟨_, _, h⟩
        · exact .type hstands.occursIn h
        · exact .default h
    | enumeration type members => exact .default h
    | array element | dictionary element =>
      rcases Except.bind_eq_error_iff.mp h with h | ⟨_, _, h⟩
      · exact fails_of_element hs List.mem_cons_self (fun _ hnext => hsubjobs ▸ hnext) h
      · exact .default h
    | composition kind members =>
      simp only at hsubjobs
      rcases Except.bind_eq_error_iff.mp h with h | ⟨_, _, h⟩
      · obtain ⟨member, hmember, h⟩ := Except.exists_of_mapM_eq_error h
        refine .subjob ?_ h
        rw [hsubjobs]
        exact List.mem_append_left _ (List.mem_map_of_mem hmember)
      · rcases Except.bind_eq_error_iff.mp h with h | ⟨_, _, h⟩
        · refine fails_of_promotable hs (fun _ hmember => hmember)
            (fun hrequires member hmember next hnext => ?_) h
          rw [hsubjobs, if_neg hrequires]
          refine List.mem_append_right _ (List.mem_append_left _ ?_)
          exact List.mem_flatMap.mpr ⟨member, hmember, hnext⟩
        · rcases Except.bind_eq_error_iff.mp h with h | ⟨_, _, h⟩
          · refine fails_of_declared (fun next hnext => ?_) h
            rw [hsubjobs]
            exact List.mem_append_right _ (List.mem_append_right _ hnext)
          · cases h
    | record =>
      rcases Except.bind_eq_error_iff.mp h with h | ⟨_, _, h⟩
      · exact fails_of_declared (fun _ hnext => hsubjobs ▸ hnext) h
      · exact .default h
    | generic type =>
      have hstands : type.OccursIn job.schema := by
        cases shapeOf_shape hs with
        | generic htype => exact Node.occursIn_of_get? htype
      rcases Except.bind_eq_error_iff.mp h with h | ⟨_, _, h⟩
      · exact .type hstands h
      · exact .default h
    | unknown => cases h

end
end Schema.Job
end OpenApi
