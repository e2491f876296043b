import OpenApi.Proofs.Except
import OpenApi.Schema.Build

/-
Building a model, one model at a time.

`buildIn` and the functions beside it build a model and everything below it.  Here the same work is
cut into jobs: a job is one model to be built, and `Job.run` does a single job when it is told how
to do any other (`build`).  The jobs that it may ask for are the list `Job.subjobs`, and `run_congr`
says that it asks for no others.

What a job leads to is said once, in `Job.LeadsTo`: a part of the schema, or the target of a
reference that is not being followed yet.  The measure that falls with every step (`rank_lt`), the
references that can be met (`LeadsTo.within`) and induction on jobs (`Job.induction`) all come from
it.
-/
namespace OpenApi.Schema

/-- One model to be built: the references that are being followed, the schema, and what the model
is for. -/
structure Job where
  following : List String
  schema : Node
  name : String := ""
  isDefinition : Bool := false

namespace Job

/-- The model for a part of the schema; nothing more is followed for it. -/
def inner (job : Job) (part : Node) : Job := { following := job.following, schema := part }

/-- The model for the target of a reference that was not followed before. -/
def target (job : Job) (ref : String) (schema : Node) : Job :=
  { following := ref :: job.following, schema := schema }

section
variable (scope : Scope) (build : Job → Except Failure Model) (job : Job)

/-- The element of a container, and the link to it. -/
def element (node : Node) : Except Failure (Model × Option Model) :=
  match node.get? "$ref" with
  | some ref => do
    let _ ← Reference.resolve scope.document ref
    let use ← scope.typeOf ref .null
    return ({ toTypeText := use.toTypeText, imports := use.imports }, none)
  | none => do
    let element ← build (job.inner node)
    return (element, some element)

/-- What a member of a composition has to offer for promotion. -/
def offered (member : Node) : Except Failure (List Model) :=
  match member.get? "$ref" with
  | some (.str ref) =>
    if ref ∈ job.following then .ok []
    else do
      let schema ← Reference.resolve scope.document (.str ref)
      (build (job.target ref schema)).map (·.properties)
  | some other => do
    let _ ← Reference.resolve scope.document other
    return []
  | none => (build (job.inner member)).map (·.properties)

/-- The candidates for promotion in a composition, if it requires anything. -/
def promotable (members : List Node) : Except Failure (List Model) :=
  if (requiredNames job.schema).isEmpty then .ok []
  else (members.mapM (offered scope build job)).map List.flatten

/-- One declared property. -/
def property (context : PropertyContext) (entry : Scalar × Node) : Except Failure Model := do
  let name ← entry.1.written
  let isRequired := Node.listHas name context.required
  match ← context.valueOf scope name with
  | some value => return asProperty name isRequired (fixedProperty entry.2 value)
  | none => (build (job.inner entry.2)).map (asProperty name isRequired)

/-- The declared properties of the schema. -/
def declared : Except Failure (List Model) :=
  match job.schema.get? "properties" with
  | some (.map entries) =>
    entries.mapM (property scope build job (propertyContext scope job.schema job.name))
  | _ => .ok []

/-- The model of a schema of the given shape. -/
def byShape (found : Shape) : Except Failure Model :=
  let model := plainModel job.schema job.name job.isDefinition
  match found with
  | .reference ref => do
    let _ ← Reference.resolve scope.document ref
    let use ← scope.typeOf ref .null
    withDefault job.schema (withType { model with kind := .reference } use)
  | .enumeration type members =>
    withDefault job.schema
      { model with kind := .enumeration, type := type, base := type, enumerators := members }
  | .array items => do
    let (element, link) ← element scope build job items
    withDefault job.schema (withElement model .array element link)
  | .dictionary values => do
    let (element, link) ← element scope build job values
    withDefault job.schema (withElement model .dictionary element link)
  | .composition kind members => do
    let children ← members.mapM fun member => build (job.inner member)
    let found ← promotable scope build job members
    let own ← declared scope build job
    return withMembers model kind children (promote (requiredNames job.schema) found ++ own)
  | .record => do
    let properties ← declared scope build job
    withDefault job.schema (withProperties model properties)
  | .generic type => do
    let use ← scope.typeOf type (job.schema.get "format")
    withDefault job.schema (withType model use)
  | .unknown => .ok model

/-- Do a job, with `build` for all other jobs. -/
def run : Except Failure Model := shape job.schema >>= byShape scope build job

end

/-! ### The jobs that a job asks for -/

def elementJobs (job : Job) (node : Node) : List Job :=
  if node.has "$ref" then [] else [job.inner node]

def offeredJobs (scope : Scope) (job : Job) (member : Node) : List Job :=
  match member.get? "$ref" with
  | some (.str ref) =>
    if ref ∈ job.following then []
    else
      match Reference.resolve scope.document (.str ref) with
      | .ok schema => [job.target ref schema]
      | .error _ => []
  | some _ => []
  | none => [job.inner member]

def declaredJobs (job : Job) : List Job :=
  match job.schema.get? "properties" with
  | some (.map entries) => entries.map fun entry => job.inner entry.2
  | _ => []

/-- All jobs that a job can ask for; which of them it comes to depends on failures and on
discriminators. -/
def subjobs (scope : Scope) (job : Job) : List Job :=
  match shape job.schema with
  | .ok (.array items) => job.elementJobs items
  | .ok (.dictionary values) => job.elementJobs values
  | .ok (.composition _ members) =>
    members.map job.inner ++
      ((if (requiredNames job.schema).isEmpty then []
          else members.flatMap (offeredJobs scope job)) ++
        job.declaredJobs)
  | .ok .record => job.declaredJobs
  | _ => []

section
variable {scope : Scope} {build build' : Job → Except Failure Model} {job : Job}

theorem element_congr {node : Node} (h : ∀ next ∈ job.elementJobs node, build next = build' next) :
    element scope build job node = element scope build' job node := by
  unfold element
  split
  · rfl
  · rename_i hnone
    have hnext : job.inner node ∈ job.elementJobs node := by
      simp [elementJobs, Node.has, hnone]
    rw [h _ hnext]

theorem offered_congr {member : Node}
    (h : ∀ next ∈ job.offeredJobs scope member, build next = build' next) :
    offered scope build job member = offered scope build' job member := by
  unfold offered
  unfold offeredJobs at h
  split
  · rename_i ref href
    simp only [href] at h
    split
    · rfl
    · rename_i hfresh
      rw [if_neg hfresh] at h
      cases hres : Reference.resolve scope.document (.str ref) with
      | error failure => rfl
      | ok schema =>
        rw [hres] at h
        show Except.map _ (build _) = Except.map _ (build' _)
        rw [h _ List.mem_cons_self]
  · rfl
  · rename_i hnone
    simp only [hnone] at h
    rw [h _ List.mem_cons_self]

theorem property_congr {context : PropertyContext} {entry : Scalar × Node}
    (h : build (job.inner entry.2) = build' (job.inner entry.2)) :
    property scope build job context entry = property scope build' job context entry := by
  unfold property
  rw [h]

theorem declared_congr (h : ∀ next ∈ job.declaredJobs, build next = build' next) :
    declared scope build job = declared scope build' job := by
  unfold declared
  unfold declaredJobs at h
  split
  · rename_i entries hentries
    rw [hentries] at h
    exact Except.mapM_congr fun entry hentry =>
      property_congr (h _ (List.mem_map_of_mem hentry))
  · rfl

theorem run_of_shape {found : Shape} (h : shape job.schema = .ok found) :
    run scope build job = byShape scope build job found := by
  rw [run, h]
  rfl

/-- A job depends on how its subjobs are done, and on no other job. -/
theorem run_congr (h : ∀ next ∈ job.subjobs scope, build next = build' next) :
    run scope build job = run scope build' job := by
  unfold subjobs at h
  cases hshape : shape job.schema with
  | error failure => rw [run, run, hshape]; rfl
  | ok found =>
    rw [hshape] at h
    rw [run_of_shape hshape, run_of_shape hshape]
    cases found with
    | array items =>
      show (element scope build job items >>= _) = (element scope build' job items >>= _)
      rw [element_congr h]
    | dictionary values =>
      show (element scope build job values >>= _) = (element scope build' job values >>= _)
      rw [element_congr h]
    | composition kind members =>
      simp only [List.mem_append] at h
      have hmembers : (members.mapM fun member => build (job.inner member)) =
          members.mapM fun member => build' (job.inner member) :=
        Except.mapM_congr fun member hm => h _ (.inl (List.mem_map_of_mem hm))
      have hfound : promotable scope build job members = promotable scope build' job members := by
        unfold promotable
        by_cases hempty : (requiredNames job.schema).isEmpty
        · rw [if_pos hempty, if_pos hempty]
        · rw [if_neg hempty, if_neg hempty]
          rw [if_neg hempty] at h
          congr 1
          exact Except.mapM_congr fun member hm => offered_congr fun next hnext =>
            h _ (.inr (.inl (List.mem_flatMap.mpr ⟨member, hm, hnext⟩)))
      have hown : declared scope build job = declared scope build' job :=
        declared_congr fun next hnext => h next (.inr (.inr hnext))
      show ((members.mapM fun member => build (job.inner member)) >>= _) = _
      rw [hmembers, hfound, hown]
      rfl
    | record =>
      show (declared scope build job >>= _) = (declared scope build' job >>= _)
      rw [declared_congr h]
    | _ => rfl

end

/-! ### Where jobs lead -/

/-- The steps from a job to another one. -/
inductive LeadsTo (scope : Scope) (job : Job) : Job → Prop where
  /-- Down into the schema; the values of a dictionary of anything have a schema of their own. -/
  | part {part : Node} (smaller : part.size < job.schema.size)
      (source : part.OccursIn job.schema ∨ part = .map []) : LeadsTo scope job (job.inner part)
  /-- Away to the target of a reference. -/
  | target {ref : String} {schema : Node} (written : ref ∈ job.schema.references)
      (fresh : ref ∉ job.following)
      (found : Reference.resolve scope.document (.str ref) = .ok schema) :
      LeadsTo scope job (job.target ref schema)

theorem source_of_partsOf {schema part : Node} {parts : List Node} (h : PartsOf schema parts)
    (hp : part ∈ parts) : part.OccursIn schema ∨ part = .map [] := by
  cases h with
  | nothing => cases hp
  | anything _ => exact .inr (List.mem_singleton.mp hp)
  | member found =>
    rw [List.mem_singleton.mp hp]
    exact .inl (Node.occursIn_of_get? found)
  | items found => exact .inl ((Node.occursIn_of_mem hp).trans (Node.occursIn_of_get? found))

section
variable {scope : Scope} {job next : Job}

theorem leadsTo_of_part {found : Shape} {part : Node} (hs : shape job.schema = .ok found)
    (hp : part ∈ found.parts) : LeadsTo scope job (job.inner part) :=
  .part (Nat.lt_of_le_of_lt (Node.size_le_of_mem hp) (size_lt_of_shape hs))
    (source_of_partsOf (partsOf_shape hs) hp)

theorem leadsTo_of_mem_elementJobs {found : Shape} {node : Node}
    (hs : shape job.schema = .ok found) (hp : node ∈ found.parts)
    (h : next ∈ job.elementJobs node) : LeadsTo scope job next := by
  unfold elementJobs at h
  split at h
  · cases h
  · rw [List.mem_singleton.mp h]
    exact leadsTo_of_part hs hp

theorem leadsTo_of_mem_offeredJobs {found : Shape} {member : Node}
    (hs : shape job.schema = .ok found) (hp : member ∈ found.parts)
    (h : next ∈ job.offeredJobs scope member) : LeadsTo scope job next := by
  unfold offeredJobs at h
  split at h
  · rename_i ref href
    split at h
    · cases h
    · rename_i hfresh
      split at h
      · rename_i schema hres
        rw [List.mem_singleton.mp h]
        have hwritten : ref ∈ job.schema.references :=
          (partsOf_shape hs).references_subset ref
            (Node.references_subset_of_mem hp ref (Node.mem_references_of_get? href))
        exact .target hwritten hfresh hres
      · cases h
  · cases h
  · rw [List.mem_singleton.mp h]
    exact leadsTo_of_part hs hp

theorem leadsTo_of_mem_declaredJobs (h : next ∈ job.declaredJobs) : LeadsTo scope job next := by
  unfold declaredJobs at h
  split at h
  · rename_i entries hentries
    obtain ⟨entry, hentry, rfl⟩ := List.mem_map.mp h
    refine .part ?_ (.inl ?_)
    · exact Nat.lt_of_le_of_lt (Node.size_le_sizeEntries_of_mem hentry)
        (sizeEntries_lt_of_get? hentries)
    · exact (Node.OccursIn.entry hentry .whole).trans (Node.occursIn_of_get? hentries)
  · cases h

theorem leadsTo_of_mem_subjobs (h : next ∈ job.subjobs scope) : LeadsTo scope job next := by
  unfold subjobs at h
  split at h
  · rename_i items hs
    exact leadsTo_of_mem_elementJobs hs (List.mem_singleton_self items) h
  · rename_i values hs
    exact leadsTo_of_mem_elementJobs hs (List.mem_singleton_self values) h
  · rename_i kind members hs
    rcases List.mem_append.mp h with h | h
    · obtain ⟨member, hm, rfl⟩ := List.mem_map.mp h
      exact leadsTo_of_part hs hm
    · rcases List.mem_append.mp h with h | h
      · split at h
        · cases h
        · obtain ⟨member, hm, hnext⟩ := List.mem_flatMap.mp h
          exact leadsTo_of_mem_offeredJobs hs hm hnext
      · exact leadsTo_of_mem_declaredJobs h
  · exact leadsTo_of_mem_declaredJobs h
  · cases h

/-- Whatever can be met from a job can be met from those before it. -/
theorem LeadsTo.within {root : Node} (h : LeadsTo scope job next)
    (hw : Within scope root job.schema) : Within scope root next.schema := by
  cases h with
  | part _ source =>
    rcases source with hocc | rfl
    · exact fun r hr => hw r (hocc.references_subset r hr)
    · intro r hr
      simp [inner, Node.references, Node.referencesOfEntries] at hr
  | target _ _ found => exact within_of_resolve found

/-- How far a job can go down at most: through the whole document for each reference that can still
be followed, and through its own schema. -/
def rank (scope : Scope) (root : Node) (job : Job) : Nat :=
  (unfollowed scope root job.following).length * scope.document.size + job.schema.size

theorem LeadsTo.rank_lt {root : Node} (h : LeadsTo scope job next)
    (hw : Within scope root job.schema) : rank scope root next < rank scope root job := by
  cases h with
  | part smaller _ => exact Nat.add_lt_add_left smaller _
  | @target ref schema written fresh found =>
    have hless : (unfollowed scope root (ref :: job.following)).length <
        (unfollowed scope root job.following).length :=
      length_unfollowed_cons_lt (hw ref written) fresh
    have hsize : schema.size ≤ scope.document.size :=
      (Reference.occursIn_of_resolve found).size_le
    have hpos := Node.size_pos job.schema
    have hmul := Nat.mul_le_mul_right scope.document.size (Nat.succ_le_of_lt hless)
    rw [Nat.succ_mul] at hmul
    show (unfollowed scope root (ref :: job.following)).length * scope.document.size + schema.size <
      (unfollowed scope root job.following).length * scope.document.size + job.schema.size
    omega

/-- Induction on jobs: what holds of a job as soon as it holds of all its subjobs holds of every
job. -/
theorem induction (scope : Scope) {P : Job → Prop}
    (step : ∀ job, (∀ next, LeadsTo scope job next → P next) → P job) (job : Job) : P job := by
  -- The measure counts references that can be met from a fixed schema, here from that of `job`.
  have bounded : ∀ n job', Within scope job.schema job'.schema →
      rank scope job.schema job' < n → P job' := by
    intro n
    induction n with
    | zero => exact fun job' _ h => absurd h (Nat.not_lt_zero _)
    | succ n ih =>
      intro job' hw hlt
      refine step job' fun next hnext => ih next (hnext.within hw) ?_
      exact Nat.lt_of_lt_of_le (hnext.rank_lt hw) (Nat.le_of_lt_succ hlt)
  exact bounded _ job (within_root scope job.schema) (Nat.lt_succ_self _)

end
end Job
end OpenApi.Schema
