import OpenApi.Proofs.Jobs

/-
Building is what all jobs come to.

`Job.built` is the model that building gives for a job.  `built_eq` opens one step of it: the job is
run, and its subjobs are built.  So nothing that follows looks at the recursion of `buildIn` again.
-/
namespace OpenApi.Schema
namespace Job

/-- The model of a job. -/
def built (scope : Scope) (job : Job) : Except Failure Model :=
  buildIn scope job.schema job.following job.schema job.name job.isDefinition
    (within_root scope job.schema)

/-- Whether building from a root does a job as `build` does it. -/
def Agrees (scope : Scope) (root : Node) (build : Job → Except Failure Model) (job : Job) : Prop :=
  ∀ within : Within scope root job.schema,
    buildIn scope root job.following job.schema job.name job.isDefinition within = build job

section
variable {scope : Scope} {root : Node} {build : Job → Except Failure Model} {job : Job}

theorem buildElement_eq {node : Node} (within : Within scope root node)
    (h : ∀ next ∈ job.elementJobs node, Agrees scope root build next) :
    buildElement scope root job.following node within = element scope build job node := by
  rw [buildElement]
  unfold element
  cases href : node.get? "$ref" with
  | some ref =>
    dsimp only
    cases Reference.resolve scope.document ref with
    | error failure => rfl
    | ok _ => cases scope.typeOf ref .null <;> rfl
  | none =>
    have hnext : job.inner node ∈ job.elementJobs node := by
      simp [elementJobs, Node.has, href]
    have hbuild : buildIn scope root job.following node "" false within = build (job.inner node) :=
      h _ hnext within
    dsimp only
    rw [hbuild]
    cases build (job.inner node) <;> rfl

theorem buildMembers_eq {members : List Node} (within : WithinItems scope root members)
    (h : ∀ member ∈ members, Agrees scope root build (job.inner member)) :
    buildMembers scope root job.following members within =
      members.mapM fun member => build (job.inner member) := by
  induction members with
  | nil => rw [buildMembers, List.mapM_nil]; rfl
  | cons member rest ih =>
    have hhead : buildIn scope root job.following member "" false within.head =
        build (job.inner member) := h member List.mem_cons_self within.head
    have htail := ih within.tail fun m hm => h m (List.mem_cons_of_mem _ hm)
    rw [buildMembers, List.mapM_cons, hhead, htail]
    cases build (job.inner member) with
    | error failure => rfl
    | ok child =>
      dsimp only
      cases rest.mapM fun member => build (job.inner member) <;> rfl

theorem memberProperties_eq {member : Node} (within : Within scope root member)
    (h : ∀ next ∈ job.offeredJobs scope member, Agrees scope root build next) :
    memberProperties scope root job.following member within = offered scope build job member := by
  rw [memberProperties]
  unfold offered
  unfold offeredJobs at h
  split
  · rename_i ref href
    simp only [href] at h ⊢
    by_cases hf : ref ∈ job.following
    · rw [dif_pos hf, if_pos hf]
    · rw [dif_neg hf, if_neg hf]
      rw [if_neg hf] at h
      split
      · rename_i failure hres
        rw [hres]
        rfl
      · rename_i schema hres
        rw [hres] at h
        have hbuild : buildIn scope root (ref :: job.following) schema "" false
            (within_of_resolve hres) = build (job.target ref schema) :=
          h _ List.mem_cons_self (within_of_resolve hres)
        rw [hbuild, hres]
        rfl
  · rename_i other hother href
    simp only [href]
    cases Reference.resolve scope.document other <;> rfl
  · rename_i hnone
    simp only [hnone] at h ⊢
    exact congrArg (Except.map (·.properties)) (h _ List.mem_cons_self within)

theorem candidates_eq {members : List Node} (within : WithinItems scope root members)
    (h : ∀ member ∈ members, ∀ next ∈ job.offeredJobs scope member, Agrees scope root build next) :
    candidates scope root job.following members within =
      (members.mapM (offered scope build job)).map List.flatten := by
  induction members with
  | nil => rw [candidates, List.mapM_nil]; rfl
  | cons member rest ih =>
    have hhead := memberProperties_eq within.head (h member List.mem_cons_self)
    have htail := ih within.tail fun m hm => h m (List.mem_cons_of_mem _ hm)
    rw [candidates, List.mapM_cons, hhead, htail]
    cases offered scope build job member with
    | error failure => rfl
    | ok found =>
      dsimp only
      cases rest.mapM (offered scope build job) <;> rfl

theorem buildProperty_eq {context : PropertyContext} {key : Scalar} {schema : Node} {name : String}
    (hname : key.written = .ok name) (within : Within scope root schema)
    (h : Agrees scope root build (job.inner schema)) :
    buildProperty scope root job.following context name schema within =
      property scope build job context (key, schema) := by
  have hbuild : buildIn scope root job.following schema "" false within =
      build (job.inner schema) := h within
  rw [buildProperty, hbuild]
  unfold property
  simp only [hname]
  show _ = (context.valueOf scope name >>= _)
  cases context.valueOf scope name with
  | error failure => rfl
  | ok value => cases value <;> rfl

theorem buildEntries_eq {context : PropertyContext} {entries : Entries}
    (within : WithinEntries scope root entries)
    (h : ∀ entry ∈ entries, Agrees scope root build (job.inner entry.2)) :
    buildEntries scope root job.following context entries within =
      entries.mapM (property scope build job context) := by
  induction entries with
  | nil => rw [buildEntries, List.mapM_nil]; rfl
  | cons entry rest ih =>
    obtain ⟨key, schema⟩ := entry
    have htail := ih within.tail fun e he => h e (List.mem_cons_of_mem _ he)
    rw [buildEntries, List.mapM_cons]
    cases hname : key.written with
    | error failure =>
      dsimp only
      rw [property, hname]
      rfl
    | ok name =>
      dsimp only
      rw [buildProperty_eq hname within.head (h _ List.mem_cons_self), htail]
      cases property scope build job context (key, schema) with
      | error failure => rfl
      | ok found =>
        dsimp only
        cases rest.mapM (property scope build job context) <;> rfl

theorem buildProperties_eq (within : Within scope root job.schema)
    (h : ∀ next ∈ job.declaredJobs, Agrees scope root build next) :
    buildProperties scope root job.following job.schema job.name within =
      declared scope build job := by
  rw [buildProperties]
  unfold declared
  unfold declaredJobs at h
  split
  · rename_i entries hentries
    simp only [hentries] at h ⊢
    exact buildEntries_eq _ fun entry hentry => h _ (List.mem_map_of_mem hentry)
  · rename_i hother
    split
    · rename_i entries hentries
      exact absurd hentries (hother entries)
    · rfl

/-- If building does all subjobs as `build` does, it does the job by its rule. -/
theorem buildIn_eq_run (within : Within scope root job.schema)
    (h : ∀ next ∈ job.subjobs scope, Agrees scope root build next) :
    buildIn scope root job.following job.schema job.name job.isDefinition within =
      run scope build job := by
  rw [buildIn]
  unfold subjobs at h
  split
  · rename_i failure hs
    rw [run, hs]
    rfl
  · rename_i ref hs
    rw [run_of_shape hs, byShape]
    cases Reference.resolve scope.document ref with
    | error failure => rfl
    | ok _ =>
      dsimp only
      cases scope.typeOf ref .null <;> rfl
  · rename_i type members hs
    rw [run_of_shape hs]
    rfl
  · rename_i items hs
    simp only [hs] at h
    rw [buildElement_eq _ h, run_of_shape hs, byShape]
    cases element scope build job items <;> rfl
  · rename_i values hs
    simp only [hs] at h
    rw [buildElement_eq _ h, run_of_shape hs, byShape]
    cases element scope build job values <;> rfl
  · rename_i kind members hs
    simp only [hs, List.mem_append] at h
    have hwithin : WithinItems scope root members := within.parts hs
    have hmembers := buildMembers_eq hwithin fun member hm => h _ (.inl (List.mem_map_of_mem hm))
    have hown := buildProperties_eq within fun next hnext => h next (.inr (.inr hnext))
    have hfound : (if (requiredNames job.schema).isEmpty then .ok []
          else candidates scope root job.following members hwithin) =
        promotable scope build job members := by
      unfold promotable
      by_cases hempty : (requiredNames job.schema).isEmpty
      · rw [if_pos hempty, if_pos hempty]
      · rw [if_neg hempty, if_neg hempty]
        rw [if_neg hempty] at h
        exact candidates_eq _ fun member hm next hnext =>
          h next (.inr (.inl (List.mem_flatMap.mpr ⟨member, hm, hnext⟩)))
    rw [hmembers, hown, run_of_shape hs, byShape]
    dsimp only
    rw [hfound]
    cases members.mapM fun member => build (job.inner member) with
    | error failure => rfl
    | ok children =>
      dsimp only
      cases promotable scope build job members with
      | error failure => rfl
      | ok found =>
        dsimp only
        cases declared scope build job <;> rfl
  · rename_i hs
    simp only [hs] at h
    rw [buildProperties_eq _ h, run_of_shape hs, byShape]
    cases declared scope build job <;> rfl
  · rename_i type hs
    rw [run_of_shape hs, byShape]
    cases scope.typeOf type (job.schema.get "format") <;> rfl
  · rename_i hs
    rw [run_of_shape hs]
    rfl

end

/-- What is built for a job does not depend on where building began. -/
theorem agrees_built (scope : Scope) (job : Job) (root : Node) :
    Agrees scope root (built scope) job := by
  induction job using Job.induction scope generalizing root with
  | step job ih =>
    have hrun : ∀ root (within : Within scope root job.schema),
        buildIn scope root job.following job.schema job.name job.isDefinition within =
          run scope (built scope) job := fun root within =>
      buildIn_eq_run within fun next hnext => ih next (leadsTo_of_mem_subjobs hnext) root
    intro within
    exact (hrun root within).trans (hrun job.schema (within_root scope job.schema)).symm

theorem built_eq (scope : Scope) (job : Job) : built scope job = run scope (built scope) job :=
  buildIn_eq_run _ fun next _ => agrees_built scope next job.schema

/-! ### What a job can come to -/

theorem withDefault_eq_ok {schema : Node} {m model : Model} (h : withDefault schema m = .ok model) :
    ∃ literal, model = { m with default := literal } := by
  obtain ⟨literal, _, rfl⟩ := Except.map_eq_ok_iff.mp h
  exact ⟨literal, rfl⟩

/-- The model of a job before its shape is known. -/
def plain (job : Job) : Model := plainModel job.schema job.name job.isDefinition

/-- The rules by which a job succeeds, with what each of them needs. -/
inductive Rule (scope : Scope) (build : Job → Except Failure Model) (job : Job) : Model → Prop where
  | reference {ref target : Node} {use : TypeUse} {model : Model}
      (shaped : shape job.schema = .ok (.reference ref))
      (found : Reference.resolve scope.document ref = .ok target)
      (typed : scope.typeOf ref .null = .ok use)
      (done : withDefault job.schema (withType { job.plain with kind := .reference } use) =
        .ok model) : Rule scope build job model
  | enumeration {type : String} {members : List Enumerator} {model : Model}
      (shaped : shape job.schema = .ok (.enumeration type members))
      (done : withDefault job.schema
        { job.plain with
          kind := .enumeration
          type := type
          base := type
          enumerators := members } =
        .ok model) : Rule scope build job model
  | container {node : Node} {kind : ModelKind} {item model : Model} {link : Option Model}
      (shaped : shape job.schema = .ok (.array node) ∧ kind = .array ∨
        shape job.schema = .ok (.dictionary node) ∧ kind = .dictionary)
      (built : element scope build job node = .ok (item, link))
      (done : withDefault job.schema (withElement job.plain kind item link) = .ok model) :
      Rule scope build job model
  | composition {kind : ModelKind} {members : List Node} {children found own : List Model}
      (shaped : shape job.schema = .ok (.composition kind members))
      (built : (members.mapM fun member => build (job.inner member)) = .ok children)
      (offered : promotable scope build job members = .ok found)
      (declared : declared scope build job = .ok own) :
      Rule scope build job
        (withMembers job.plain kind children (promote (requiredNames job.schema) found ++ own))
  | record {own : List Model} {model : Model}
      (shaped : shape job.schema = .ok .record)
      (declared : declared scope build job = .ok own)
      (done : withDefault job.schema (withProperties job.plain own) = .ok model) :
      Rule scope build job model
  | generic {type : Node} {use : TypeUse} {model : Model}
      (shaped : shape job.schema = .ok (.generic type))
      (typed : scope.typeOf type (job.schema.get "format") = .ok use)
      (done : withDefault job.schema (withType job.plain use) = .ok model) :
      Rule scope build job model
  | unknown (shaped : shape job.schema = .ok .unknown) : Rule scope build job job.plain

section
variable {scope : Scope} {build : Job → Except Failure Model} {job : Job} {model : Model}

theorem rule_of_run (h : run scope build job = .ok model) : Rule scope build job model := by
  obtain ⟨found, hs, h⟩ := Except.bind_eq_ok_iff.mp h
  cases found with
  | reference ref =>
    obtain ⟨_, hres, h⟩ := Except.bind_eq_ok_iff.mp h
    obtain ⟨_, hty, h⟩ := Except.bind_eq_ok_iff.mp h
    exact .reference hs hres hty h
  | enumeration type members => exact .enumeration hs h
  | array items =>
    obtain ⟨⟨_, _⟩, he, h⟩ := Except.bind_eq_ok_iff.mp h
    exact .container (.inl ⟨hs, rfl⟩) he h
  | dictionary values =>
    obtain ⟨⟨_, _⟩, he, h⟩ := Except.bind_eq_ok_iff.mp h
    exact .container (.inr ⟨hs, rfl⟩) he h
  | composition kind members =>
    obtain ⟨_, hchildren, h⟩ := Except.bind_eq_ok_iff.mp h
    obtain ⟨_, hfound, h⟩ := Except.bind_eq_ok_iff.mp h
    obtain ⟨_, hown, h⟩ := Except.bind_eq_ok_iff.mp h
    cases h
    exact .composition hs hchildren hfound hown
  | record =>
    obtain ⟨_, hown, h⟩ := Except.bind_eq_ok_iff.mp h
    exact .record hs hown h
  | generic type =>
    obtain ⟨_, hty, h⟩ := Except.bind_eq_ok_iff.mp h
    exact .generic hs hty h
  | unknown =>
    cases h
    exact .unknown hs

/-- The element of a container is named by a reference, or built and linked. -/
theorem element_cases {node : Node} {item : Model} {link : Option Model}
    (h : element scope build job node = .ok (item, link)) :
    link = none ∨ link = some item ∧ ∃ next ∈ job.elementJobs node, build next = .ok item := by
  unfold element at h
  unfold elementJobs
  split at h
  · obtain ⟨_, _, h⟩ := Except.bind_eq_ok_iff.mp h
    obtain ⟨_, _, h⟩ := Except.bind_eq_ok_iff.mp h
    cases h
    exact .inl rfl
  · rename_i hnone
    obtain ⟨_, hbuild, h⟩ := Except.bind_eq_ok_iff.mp h
    cases h
    rw [Node.has, hnone]
    exact .inr ⟨rfl, _, List.mem_cons_self, hbuild⟩

/-- A declared property is fixed to one value, or the model of its schema with the name of the
property. -/
theorem declared_cases {own : List Model} {p : Model} (h : declared scope build job = .ok own)
    (hp : p ∈ own) : ∃ name isRequired,
      (∃ part value, part.OccursIn job.schema ∧
          p = asProperty name isRequired (fixedProperty part value)) ∨
        ∃ next ∈ job.declaredJobs, ∃ m, build next = .ok m ∧ p = asProperty name isRequired m := by
  unfold declared at h
  unfold declaredJobs
  split at h
  · rename_i entries hentries
    obtain ⟨entry, hentry, h⟩ := Except.exists_mem_of_mapM h hp
    obtain ⟨name, _, h⟩ := Except.bind_eq_ok_iff.mp h
    obtain ⟨value, _, h⟩ := Except.bind_eq_ok_iff.mp h
    refine ⟨name, Node.listHas name (requiredNames job.schema), ?_⟩
    cases value with
    | some value =>
      cases h
      have hpart := (Node.OccursIn.entry hentry .whole).trans (Node.occursIn_of_get? hentries)
      exact .inl ⟨entry.2, value, hpart, rfl⟩
    | none =>
      obtain ⟨m, hm, rfl⟩ := Except.map_eq_ok_iff.mp h
      exact .inr ⟨_, List.mem_map_of_mem hentry, m, hm, rfl⟩
  · cases h
    cases hp

/-- What is offered for promotion are properties of models that are built for subjobs. -/
theorem exists_job_of_offered {member : Node} {found : List Model} {property : Model}
    (h : offered scope build job member = .ok found) (hp : property ∈ found) :
    ∃ next ∈ job.offeredJobs scope member, ∃ owner, build next = .ok owner ∧
      property ∈ owner.properties := by
  unfold offered at h
  unfold offeredJobs
  split at h
  · split at h
    · cases h
      cases hp
    · rename_i hfresh
      obtain ⟨schema, hres, h⟩ := Except.bind_eq_ok_iff.mp h
      obtain ⟨owner, hbuild, rfl⟩ := Except.map_eq_ok_iff.mp h
      rw [if_neg hfresh, hres]
      exact ⟨_, List.mem_cons_self, owner, hbuild, hp⟩
  · obtain ⟨_, _, h⟩ := Except.bind_eq_ok_iff.mp h
    cases h
    cases hp
  · obtain ⟨owner, hbuild, rfl⟩ := Except.map_eq_ok_iff.mp h
    exact ⟨_, List.mem_cons_self, owner, hbuild, hp⟩

/-- A candidate of a composition is a property of a model that one of its members leads to. -/
theorem exists_job_of_promotable {members : List Node} {found : List Model} {c : Model}
    (h : promotable scope build job members = .ok found) (hc : c ∈ found) :
    ∃ member ∈ members, ∃ next ∈ job.offeredJobs scope member, ∃ owner,
      build next = .ok owner ∧ c ∈ owner.properties := by
  unfold promotable at h
  split at h
  · cases h
    cases hc
  · obtain ⟨offers, hoffers, rfl⟩ := Except.map_eq_ok_iff.mp h
    obtain ⟨offer, hoffer, hc⟩ := List.mem_flatten.mp hc
    obtain ⟨member, hmember, hoffered⟩ := Except.exists_mem_of_mapM hoffers hoffer
    exact ⟨member, hmember, exists_job_of_offered hoffered hc⟩

/-- What is offered for promotion are all properties of the model that the member leads to. -/
theorem offered_of_mem_offeredJobs {member : Node} {next : Job}
    (h : next ∈ job.offeredJobs scope member) :
    offered scope build job member = (build next).map (·.properties) := by
  unfold offeredJobs at h
  unfold offered
  split at h
  · rename_i ref href
    split at h
    · cases h
    · rename_i hfresh
      split at h
      · rename_i schema hresolve
        rw [List.mem_singleton.mp h, if_neg hfresh, hresolve]
        rfl
      · cases h
  · cases h
  · rw [List.mem_singleton.mp h]

/-- A model has the name that it is built for. -/
theorem name_of_rule (h : Rule scope build job model) : model.name = job.name := by
  have hdone {before : Model} (hname : before.name = job.name)
      (hdone : withDefault job.schema before = .ok model) : model.name = job.name := by
    obtain ⟨literal, rfl⟩ := withDefault_eq_ok hdone
    exact hname
  cases h with
  | reference _ _ _ done => exact hdone rfl done
  | enumeration _ done => exact hdone rfl done
  | container _ _ done => exact hdone rfl done
  | composition => rfl
  | record _ _ done => exact hdone rfl done
  | generic _ _ done => exact hdone rfl done
  | unknown => rfl

theorem name_of_built (h : built scope job = .ok model) : model.name = job.name := by
  rw [built_eq] at h
  exact name_of_rule (rule_of_run h)

/-- The kind of a model tells the shape of its schema. -/
theorem shape_of_rule (h : Rule scope build job model) :
    ∃ found, shape job.schema = .ok found ∧ model.kind = found.kind := by
  have hdone {before : Model} {found : Shape} (hs : shape job.schema = .ok found)
      (hkind : before.kind = found.kind) (hdone : withDefault job.schema before = .ok model) :
      ∃ found, shape job.schema = .ok found ∧ model.kind = found.kind := by
    obtain ⟨literal, rfl⟩ := withDefault_eq_ok hdone
    exact ⟨found, hs, hkind⟩
  cases h with
  | reference shaped _ _ done => exact hdone shaped rfl done
  | enumeration shaped done => exact hdone shaped rfl done
  | container shaped _ done =>
    rcases shaped with ⟨shaped, rfl⟩ | ⟨shaped, rfl⟩
    · exact hdone shaped rfl done
    · exact hdone shaped rfl done
  | composition shaped => exact ⟨_, shaped, rfl⟩
  | record shaped _ done => exact hdone shaped rfl done
  | generic shaped _ done => exact hdone shaped rfl done
  | unknown shaped => exact ⟨_, shaped, rfl⟩

theorem shape_of_built (h : built scope job = .ok model) :
    ∃ found, shape job.schema = .ok found ∧ model.kind = found.kind := by
  rw [built_eq] at h
  exact shape_of_rule (rule_of_run h)

end
end Job

/-- What is promoted is a candidate of a required name, made required. -/
theorem exists_of_mem_promote {required : List Node} {candidates : List Model} {p : Model}
    (hp : p ∈ promote required candidates) :
    ∃ name c, .str name ∈ required ∧ c ∈ candidates ∧ c.name = Name.quoteUnlessBare name ∧
      c.isRequired = false ∧ p = { c with isRequired := true } := by
  obtain ⟨item, hitem, h⟩ := List.mem_filterMap.mp hp
  split at h
  · rename_i s
    obtain ⟨c, hfind, rfl⟩ := Option.map_eq_some_iff.mp h
    have hsame := List.find?_some hfind
    simp only [Bool.and_eq_true, beq_iff_eq, Bool.not_eq_true'] at hsame
    exact ⟨s, c, hitem, List.mem_of_find?_eq_some hfind, hsame.1, hsame.2, rfl⟩
  · cases h

end OpenApi.Schema
