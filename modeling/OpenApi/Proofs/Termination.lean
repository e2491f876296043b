import Mathlib.Logic.Relation
import OpenApi.Proofs.Building

/-
Building ends.

References may form cycles: through several definitions, through properties of what they lead to, or
through one pointer that is spelled in several ways.  `buildTo` is building without any measure: it
goes down as far as it is allowed to and leaves what lies deeper to `cut`.  A depth that is computed
from the description and the schema is enough whatever `cut` answers, so nothing lies deeper.

The reason is said of every job that building reaches: no reference is followed twice at once, all
of them are references of the description or of the schema, and each step follows one more of them
or goes to a smaller schema.
-/
namespace OpenApi.Schema

namespace Job

/-- Building down to a depth. -/
def buildTo (scope : Scope) (cut : Job → Except Failure Model) : Nat → Job → Except Failure Model
  | 0, job => cut job
  | depth + 1, job => run scope (buildTo scope cut depth) job

section
variable {scope : Scope} {root : Node} {job next : Job}

theorem buildTo_eq_built {cut : Job → Except Failure Model} {depth : Nat}
    (within : Within scope root job.schema) (h : rank scope root job ≤ depth) :
    buildTo scope cut depth job = built scope job := by
  induction depth generalizing job with
  | zero =>
    have hpos := Node.size_pos job.schema
    rw [rank] at h
    omega
  | succ depth ih =>
    rw [built_eq, buildTo]
    refine run_congr fun next hnext => ?_
    have hleads := leadsTo_of_mem_subjobs hnext
    have hrank := hleads.rank_lt within
    exact ih (hleads.within within) (by omega)

/-- What holds of every job on the way from a root. -/
structure Sound (scope : Scope) (root : Node) (job : Job) : Prop where
  within : Within scope root job.schema
  nodup : job.following.Nodup
  known : ∀ ref ∈ job.following, ref ∈ known scope root

/-- One step follows one more reference, or goes to a smaller schema. -/
theorem LeadsTo.grows_or_shrinks (h : LeadsTo scope job next)
    (within : Within scope root job.schema) :
    (∃ ref ∈ known scope root, ref ∉ job.following ∧ next.following = ref :: job.following) ∨
      next.following = job.following ∧ next.schema.size < job.schema.size := by
  cases h with
  | part smaller _ => exact .inr ⟨rfl, smaller⟩
  | @target ref _ written fresh _ => exact .inl ⟨ref, within ref written, fresh, rfl⟩

theorem Sound.step (h : Sound scope root job) (hstep : LeadsTo scope job next) :
    Sound scope root next := by
  refine ⟨hstep.within h.within, ?_, ?_⟩
  · rcases hstep.grows_or_shrinks h.within with ⟨ref, _, hfresh, heq⟩ | ⟨heq, _⟩
    · rw [heq]
      exact List.nodup_cons.mpr ⟨hfresh, h.nodup⟩
    · rw [heq]
      exact h.nodup
  · rcases hstep.grows_or_shrinks h.within with ⟨ref, hknown, _, heq⟩ | ⟨heq, _⟩
    · rw [heq]
      exact List.forall_mem_cons.mpr ⟨hknown, h.known⟩
    · rw [heq]
      exact h.known

/-- The jobs that building reaches from one job. -/
def Reaches (scope : Scope) : Job → Job → Prop :=
  Relation.ReflTransGen fun job next => next ∈ job.subjobs scope

theorem Sound.of_reaches {start : Job} (h : Sound scope root start)
    (hreach : Reaches scope start job) : Sound scope root job := by
  induction hreach with
  | refl => exact h
  | tail _ hnext ih => exact ih.step (leadsTo_of_mem_subjobs hnext)

end
end Job

open Job

theorem build_eq_buildTo {scope : Scope} {schema : Node} {depth : Nat} (name : String)
    (isDefinition : Bool) (cut : Job → Except Failure Model)
    (h : (known scope schema).length * scope.document.size + schema.size ≤ depth) :
    build scope schema name isDefinition =
      buildTo scope cut depth ⟨[], schema, name, isDefinition⟩ := by
  have hrank : rank scope schema ⟨[], schema, name, isDefinition⟩ ≤ depth := by
    have hle : (unfollowed scope schema []).length ≤ (known scope schema).length :=
      List.length_filter_le _ _
    have hmul := Nat.mul_le_mul_right scope.document.size hle
    show (unfollowed scope schema []).length * scope.document.size + schema.size ≤ depth
    omega
  have hbuilt : buildTo scope cut depth ⟨[], schema, name, isDefinition⟩ =
      built scope ⟨[], schema, name, isDefinition⟩ :=
    buildTo_eq_built (within_root scope schema) hrank
  exact hbuilt.symm

/-- Building as a function that runs by structural recursion. -/
theorem build_eq (cut : Job → Except Failure Model) :
    build = fun scope schema name isDefinition =>
      buildTo scope cut ((known scope schema).length * scope.document.size + schema.size)
        ⟨[], schema, name, isDefinition⟩ := by
  funext scope schema name isDefinition
  exact build_eq_buildTo name isDefinition cut (Nat.le_refl _)

/-- Building from a schema needs no more than a depth that is known beforehand.  On the way no
reference is followed twice at once, and every step follows one more reference of the description or
the schema, or goes to a smaller schema. -/
theorem build_terminates (scope : Scope) (schema : Node) (name : String) (isDefinition : Bool) :
    (∀ (cut : Job → Except Failure Model) (depth : Nat),
      (known scope schema).length * scope.document.size + schema.size ≤ depth →
        buildTo scope cut depth ⟨[], schema, name, isDefinition⟩ =
          build scope schema name isDefinition) ∧
    ∀ job, Reaches scope ⟨[], schema, name, isDefinition⟩ job →
      job.following.Nodup ∧ (∀ ref ∈ job.following, ref ∈ known scope schema) ∧
      (∀ next ∈ job.subjobs scope,
        (∃ ref ∈ known scope schema, ref ∉ job.following ∧
          next.following = ref :: job.following) ∨
        next.following = job.following ∧ next.schema.size < job.schema.size) ∧
      ∀ nested nested' : Job → Except Failure Model,
        (∀ next ∈ job.subjobs scope, nested next = nested' next) →
          run scope nested job = run scope nested' job := by
  let start : Job := ⟨[], schema, name, isDefinition⟩
  have hstart : Sound scope schema start :=
    ⟨within_root scope schema, List.nodup_nil, fun _ h => absurd h List.not_mem_nil⟩
  constructor
  · exact fun cut depth hdepth => (build_eq_buildTo name isDefinition cut hdepth).symm
  · intro job hreach
    have hjob := hstart.of_reaches hreach
    refine ⟨hjob.nodup, hjob.known, fun next hnext => ?_, fun nested nested' h => run_congr h⟩
    exact (leadsTo_of_mem_subjobs hnext).grows_or_shrinks hjob.within

end OpenApi.Schema
