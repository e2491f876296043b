import OpenApi.Proofs.Termination
import OpenApi.Schema.Memory

/-
Building with a memory gives what building without one gives.

A memory is sound if a fresh look would find all that it holds.  Every part of building leaves a
sound memory sound and the references that are being followed as they were, on success and on
failure alike, and its outcome is that of its counterpart on jobs: this is `Remembers`.  It passes
through sequences and lists of computations, so that each function of `Remembering` is compared
with one function of `Job`, and building down to a depth follows by induction on the depth.

So an answer does not depend on the requests that came before it.
-/
namespace OpenApi.Schema

/-- Whether all that a memory holds is what a fresh look would find. -/
structure Memory.Sound (scope : Scope) (memory : Memory) : Prop where
  targets : ∀ {ref : String} {target : Node}, memory.targets.lookup ref = some target →
    Reference.resolve scope.document (.str ref) = .ok target
  discriminators : ∀ {name : String} {found : Option Node},
    memory.discriminators.lookup name = some found → found = scope.discriminator? name

namespace Memory

variable {scope : Scope} {memory : Memory}

theorem sound_empty (scope : Scope) : ({} : Memory).Sound scope :=
  ⟨(nomatch ·), (nomatch ·)⟩

theorem Sound.keepTarget (h : memory.Sound scope) {ref : String} {target : Node}
    (found : Reference.resolve scope.document (.str ref) = .ok target) :
    (memory.keepTarget ref target).Sound scope := by
  refine ⟨fun {ref' target'} hlookup => ?_, h.discriminators⟩
  rw [Memory.keepTarget, List.lookup_cons] at hlookup
  split at hlookup
  · rename_i hsame
    cases hlookup
    rwa [eq_of_beq hsame]
  · exact h.targets hlookup

theorem Sound.keepDiscriminator (h : memory.Sound scope) (name : String) :
    (memory.keepDiscriminator name (scope.discriminator? name)).Sound scope := by
  refine ⟨h.targets, fun {name' found'} hlookup => ?_⟩
  rw [Memory.keepDiscriminator, List.lookup_cons] at hlookup
  split at hlookup
  · rename_i hsame
    cases hlookup
    rw [eq_of_beq hsame]
  · exact h.discriminators hlookup

theorem Sound.follow (h : memory.Sound scope) (ref : String) : (memory.follow ref).Sound scope :=
  ⟨h.targets, h.discriminators⟩

theorem Sound.unfollow (h : memory.Sound scope) : memory.unfollow.Sound scope :=
  ⟨h.targets, h.discriminators⟩

end Memory

/-- From every sound memory in which the given references are followed, a computation has the given
outcome, and it leaves a sound memory in which the same references are followed. -/
def Remembers (scope : Scope) (following : List String) {α : Type} (action : Remembering α)
    (outcome : Except Failure α) : Prop :=
  ∀ memory : Memory, memory.Sound scope → memory.following = following →
    (action.run memory).1 = outcome ∧ (action.run memory).2.Sound scope ∧
      (action.run memory).2.following = following

namespace Remembers

section
variable {scope : Scope} {following : List String} {α β : Type}

theorem plainly (outcome : Except Failure α) :
    Remembers scope following (Remembering.plainly outcome) outcome :=
  fun _ hsound hfollowing => ⟨rfl, hsound, hfollowing⟩

theorem pure (a : α) : Remembers scope following (pure a) (.ok a) := plainly (.ok a)

theorem bind {action : Remembering α} {next : α → Remembering β} {outcome : Except Failure α}
    {nextOutcome : α → Except Failure β} (first : Remembers scope following action outcome)
    (rest : ∀ a, outcome = .ok a → Remembers scope following (next a) (nextOutcome a)) :
    Remembers scope following (action >>= next) (outcome >>= nextOutcome) := by
  intro memory hsound hfollowing
  obtain ⟨houtcome, hsound, hfollowing⟩ := first memory hsound hfollowing
  have hrun : (action >>= next).run memory =
      match (action.run memory).1 with
      | .ok a => (next a).run (action.run memory).2
      | .error failure => (.error failure, (action.run memory).2) := by
    show (ExceptT.bindCont next (action.run memory).1) (action.run memory).2 = _
    cases (action.run memory).1 <;> rfl
  rw [hrun, houtcome]
  cases outcome with
  | error failure => exact ⟨rfl, hsound, hfollowing⟩
  | ok a => exact rest a rfl _ hsound hfollowing

theorem map {action : Remembering α} {outcome : Except Failure α}
    (first : Remembers scope following action outcome) (f : α → β) :
    Remembers scope following (do return f (← action)) (outcome.map f) := by
  have hmapped := first.bind fun a _ => pure (f a)
  cases outcome <;> exact hmapped

/-- A computation that looks at the memory first. -/
theorem look {next : Memory → Remembering α} {outcome : Except Failure α}
    (h : ∀ memory : Memory, memory.Sound scope → memory.following = following →
      Remembers scope following (next memory) outcome) :
    Remembers scope following (get >>= next) outcome :=
  fun memory hsound hfollowing => h memory hsound hfollowing memory hsound hfollowing

/-- A computation that changes the memory first, but not the references that are followed. -/
theorem change (update : Memory → Memory) {next : Remembering α} {outcome : Except Failure α}
    (keeps : ∀ memory : Memory, memory.Sound scope →
      (update memory).Sound scope ∧ (update memory).following = memory.following)
    (rest : Remembers scope following next outcome) :
    Remembers scope following (modify update >>= fun _ => next) outcome :=
  fun memory hsound hfollowing =>
    rest (update memory) (keeps memory hsound).1 ((keeps memory hsound).2.trans hfollowing)

theorem mapM {f : β → Remembering α} {g : β → Except Failure α} {items : List β}
    (h : ∀ item ∈ items, Remembers scope following (f item) (g item)) :
    Remembers scope following (items.mapM f) (items.mapM g) := by
  induction items with
  | nil => exact pure []
  | cons item rest ih =>
    rw [List.mapM_cons, List.mapM_cons]
    refine (h item List.mem_cons_self).bind fun a _ => ?_
    have hrest := ih fun other hother => h other (List.mem_cons_of_mem item hother)
    exact hrest.bind fun others _ => pure (a :: others)

theorem whileFollowing {ref : String} {action : Remembering α} {outcome : Except Failure α}
    (h : Remembers scope (ref :: following) action outcome) :
    Remembers scope following (Remembering.whileFollowing ref action) outcome := by
  intro memory hsound hfollowing
  obtain ⟨houtcome, hafter, hlast⟩ := h (memory.follow ref) (hsound.follow ref)
    (congrArg (ref :: ·) hfollowing)
  exact ⟨houtcome, hafter.unfollow, congrArg List.tail hlast⟩

end

/-! ### Looking things up -/

section
variable {scope : Scope} {following : List String}

theorem resolve (ref : Node) :
    Remembers scope following (Remembering.resolve scope ref)
      (Reference.resolve scope.document ref) := by
  unfold Remembering.resolve
  split
  · rename_i s
    refine look fun memory hsound _ => ?_
    split
    · rename_i target hlookup
      rw [hsound.targets hlookup]
      exact pure target
    · have hfresh : Remembers scope following
          (do
            let target ← Remembering.plainly (Reference.resolve scope.document (.str s))
            modify (Memory.keepTarget s target)
            return target)
          (Reference.resolve scope.document (.str s) >>= .ok) := by
        refine (plainly _).bind fun target hfound => ?_
        exact change (Memory.keepTarget s target)
          (fun memory hsound => ⟨hsound.keepTarget hfound, rfl⟩) (pure target)
      have hpure : (Reference.resolve scope.document (.str s) >>= Except.ok) =
          Reference.resolve scope.document (.str s) := bind_pure _
      rwa [hpure] at hfresh
  · exact plainly _

theorem target (node : Node) :
    Remembers scope following (Remembering.target scope node)
      (Reference.target scope.document node) := by
  unfold Remembering.target Reference.target
  cases node.get? "$ref" with
  | some ref => exact resolve ref
  | none => exact pure node

theorem discriminator? (name : String) :
    Remembers scope following (Remembering.discriminator? scope name)
      (.ok (scope.discriminator? name)) := by
  refine look fun memory hsound _ => ?_
  split
  · rename_i found hlookup
    rw [hsound.discriminators hlookup]
    exact pure _
  · exact change (Memory.keepDiscriminator name (scope.discriminator? name))
      (fun memory hsound => ⟨hsound.keepDiscriminator name, rfl⟩) (pure _)

end

/-! ### Building -/

section
variable {scope : Scope} {job : Job} {build : Node → Remembering Model}
  {built : Job → Except Failure Model}

theorem element {node : Node}
    (h : ∀ next ∈ job.elementJobs node,
      Remembers scope next.following (build next.schema) (built next)) :
    Remembers scope job.following (Remembering.element scope build node)
      (Job.element scope built job node) := by
  unfold Remembering.element Job.element
  unfold Job.elementJobs Node.has at h
  cases href : node.get? "$ref" with
  | some ref =>
    refine (resolve ref).bind fun _ _ => ?_
    exact (plainly (scope.typeOf ref .null)).bind fun use _ => pure _
  | none =>
    rw [href] at h
    exact (h (job.inner node) List.mem_cons_self).bind fun element _ => pure (element, some element)

theorem offered {member : Node}
    (h : ∀ next ∈ job.offeredJobs scope member,
      Remembers scope next.following (build next.schema) (built next)) :
    Remembers scope job.following (Remembering.offered scope build member)
      (Job.offered scope built job member) := by
  unfold Remembering.offered Job.offered
  unfold Job.offeredJobs at h
  split
  · rename_i ref href
    simp only [href] at h ⊢
    refine look fun memory _ hfollowing => ?_
    rw [hfollowing]
    by_cases hfollowed : ref ∈ job.following
    · rw [if_pos hfollowed, if_pos hfollowed]
      exact pure []
    · rw [if_neg hfollowed, if_neg hfollowed]
      rw [if_neg hfollowed] at h
      refine (resolve (.str ref)).bind fun schema hfound => ?_
      rw [hfound] at h
      have howner := (h _ List.mem_cons_self).whileFollowing
      exact howner.map (·.properties)
  · rename_i other _ href
    simp only [href] at h ⊢
    exact (resolve other).bind fun _ _ => pure []
  · rename_i hnone
    simp only [hnone] at h ⊢
    have howner := h _ List.mem_cons_self
    exact howner.map (·.properties)

theorem promotable {members : List Node}
    (h : ∀ member ∈ members, ∀ next ∈ job.offeredJobs scope member,
      ¬ (requiredNames job.schema).isEmpty →
        Remembers scope next.following (build next.schema) (built next)) :
    Remembers scope job.following (Remembering.promotable scope build job.schema members)
      (Job.promotable scope built job members) := by
  unfold Remembering.promotable Job.promotable
  by_cases hempty : (requiredNames job.schema).isEmpty
  · rw [if_pos hempty, if_pos hempty]
    exact pure []
  · rw [if_neg hempty, if_neg hempty]
    have hoffers := mapM fun member hmember =>
      offered fun next hnext => h member hmember next hnext hempty
    exact hoffers.map List.flatten

theorem context (schema : Node) (parent : String) {following : List String} :
    Remembers scope following (Remembering.context scope schema parent)
      (.ok (propertyContext scope schema parent)) := by
  unfold Remembering.context propertyContext
  by_cases hnameless : parent.isEmpty
  · simp only [hnameless, if_true]
    exact pure _
  · simp only [hnameless]
    exact (discriminator? parent).bind fun found _ => pure _

theorem property (context : PropertyContext) {entry : Scalar × Node}
    (h : Remembers scope job.following (build entry.2) (built (job.inner entry.2))) :
    Remembers scope job.following (Remembering.property scope build context entry)
      (Job.property scope built job context entry) := by
  unfold Remembering.property Job.property
  refine (plainly entry.1.written).bind fun name _ => ?_
  refine (plainly (context.valueOf scope name)).bind fun value _ => ?_
  cases value with
  | some value => exact pure _
  | none => exact h.map _

theorem declared
    (h : ∀ next ∈ job.declaredJobs,
      Remembers scope next.following (build next.schema) (built next)) :
    Remembers scope job.following (Remembering.declared scope build job.schema job.name)
      (Job.declared scope built job) := by
  unfold Remembering.declared Job.declared
  unfold Job.declaredJobs at h
  split
  · rename_i entries hentries
    simp only [hentries] at h ⊢
    have hproperties : Remembers scope job.following
        (entries.mapM (Remembering.property scope build
          (propertyContext scope job.schema job.name)))
        (entries.mapM (Job.property scope built job (propertyContext scope job.schema job.name))) :=
      mapM fun entry hentry => property _ (h (job.inner entry.2) (List.mem_map_of_mem hentry))
    show Remembers scope job.following _
      (.ok (propertyContext scope job.schema job.name) >>= fun context =>
        entries.mapM (Job.property scope built job context))
    refine (context job.schema job.name).bind fun context hcontext => ?_
    cases hcontext
    exact hproperties
  · simp only at h ⊢
    exact pure []

theorem byShape {found : Shape} (hshape : shape job.schema = .ok found)
    (h : ∀ next ∈ job.subjobs scope,
      Remembers scope next.following (build next.schema) (built next)) :
    Remembers scope job.following
      (Remembering.byShape scope build job.schema job.name job.isDefinition found)
      (Job.byShape scope built job found) := by
  unfold Job.subjobs at h
  rw [hshape] at h
  cases found with
  | reference ref =>
    refine (resolve ref).bind fun _ _ => ?_
    exact (plainly (scope.typeOf ref .null)).bind fun use _ => plainly _
  | enumeration type members => exact plainly _
  | array items => exact (element h).bind fun found _ => plainly _
  | dictionary values => exact (element h).bind fun found _ => plainly _
  | composition kind members =>
    simp only [List.mem_append] at h
    have hchildren := mapM fun member hmember =>
      h (job.inner member) (.inl (List.mem_map_of_mem hmember))
    have hfound : Remembers scope job.following
        (Remembering.promotable scope build job.schema members)
        (Job.promotable scope built job members) :=
      promotable fun member hmember next hnext hrequires => by
        rw [if_neg hrequires] at h
        exact h next (.inr (.inl (List.mem_flatMap.mpr ⟨member, hmember, hnext⟩)))
    have hown := declared fun next hnext => h next (.inr (.inr hnext))
    refine hchildren.bind fun children _ => ?_
    refine hfound.bind fun candidates _ => ?_
    exact hown.bind fun own _ => pure _
  | record => exact (declared h).bind fun properties _ => plainly _
  | generic type =>
    exact (plainly (scope.typeOf type (job.schema.get "format"))).bind fun use _ => plainly _
  | unknown => exact pure _

end

section
variable {scope : Scope}

/-- Every job is built as far down as it needs, whatever is remembered already. -/
theorem buildTo {root : Node} {depth : Nat} {job : Job} (within : Within scope root job.schema)
    (hrank : Job.rank scope root job ≤ depth) :
    Remembers scope job.following
      (Remembering.buildTo scope depth job.schema job.name job.isDefinition)
      (Job.built scope job) := by
  induction depth generalizing job with
  | zero =>
    have hpos := Node.size_pos job.schema
    rw [Job.rank] at hrank
    omega
  | succ depth ih =>
    rw [Job.built_eq]
    refine (plainly (shape job.schema)).bind fun found hshape => ?_
    refine byShape hshape fun next hnext => ?_
    have hleads := Job.leadsTo_of_mem_subjobs hnext
    have hless := hleads.rank_lt within
    have hnested := ih (hleads.within within) (by omega)
    -- The models below have no names of their own.
    cases hleads <;> exact hnested

theorem build (schema : Node) (name : String) (isDefinition : Bool) :
    Remembers scope [] (Remembering.build scope schema name isDefinition)
      (Schema.build scope schema name isDefinition) := by
  have hall : (unfollowed scope schema []).length ≤ (known scope schema).length :=
    List.length_filter_le _ _
  have hrank : Job.rank scope schema ⟨[], schema, name, isDefinition⟩ ≤
      Remembering.reach scope schema :=
    Nat.add_le_add_right (Nat.mul_le_mul_right scope.document.size hall) schema.size
  exact buildTo (within_root scope schema) hrank

end
end Remembers

/-! ### Requests -/

namespace Request

/-- The answer to a request when nothing is remembered. -/
def answer (scope : Scope) : Request → Except Failure Answer
  | .build schema name isDefinition =>
    (Schema.build scope schema name isDefinition).map .model
  | .resolve ref => (Reference.resolve scope.document ref).map .node
  | .target node => (Reference.target scope.document node).map .node

section
variable {scope : Scope}

theorem remembers_perform (request : Request) :
    Remembers scope [] (request.perform scope) (request.answer scope) := by
  cases request with
  | build schema name isDefinition => exact (Remembers.build schema name isDefinition).map _
  | resolve ref => exact (Remembers.resolve ref).map _
  | target node => exact (Remembers.target node).map _

theorem performAll_of_sound {memory : Memory} (hsound : memory.Sound scope)
    (hidle : memory.following = []) (requests : List Request) :
    (performAll scope memory requests).1 = requests.map (answer scope) ∧
      (performAll scope memory requests).2.Sound scope ∧
      (performAll scope memory requests).2.following = [] := by
  induction requests generalizing memory with
  | nil => exact ⟨rfl, hsound, hidle⟩
  | cons request rest ih =>
    obtain ⟨houtcome, hsound, hidle⟩ := remembers_perform request memory hsound hidle
    obtain ⟨houtcomes, hlast⟩ := ih hsound hidle
    exact ⟨congrArg₂ List.cons houtcome houtcomes, hlast⟩

end

/-- A request is answered, after any requests and failures before it, as it is answered at first.
Between requests no reference is being followed, and what is remembered by then is what a fresh look
would find. -/
theorem performAll_independent (scope : Scope) (requests : List Request) :
    (performAll scope {} requests).1 =
        requests.map (fun request => ((request.perform scope).run {}).1) ∧
      (performAll scope {} requests).1 = requests.map (answer scope) ∧
      (performAll scope {} requests).2.following = [] ∧
      (performAll scope {} requests).2.Sound scope := by
  have hempty := Memory.sound_empty scope
  obtain ⟨houtcomes, hsound, hidle⟩ := performAll_of_sound hempty rfl requests
  refine ⟨?_, houtcomes, hidle, hsound⟩
  rw [houtcomes]
  refine List.map_congr_left fun request _ => ?_
  exact (remembers_perform request {} hempty rfl).1.symm

end Request
end OpenApi.Schema
