import OpenApi.Proofs.RequiredProperties

/-
What a composition takes over from its members.

For each name that it requires, a composition takes a copy of the first candidate of that name that
is not required yet.  Candidates are all models that stand in the models of its members, or of the
targets of those that are references.  A member that is a record offers its properties this way, and
a copy of one of these is the model of the property with nothing changed but that it is required.

A member that is a composition again offers the models of its own members, which have no names, and
the record in which it keeps its properties, which is called `properties`.  So whoever requires that
name may take over a whole record in place of a property (`exists_source_of_promoted`).
-/
namespace OpenApi
namespace Schema

/-- A model is that of an optional property of a record, apart from its being required. -/
structure IsCopyOfProperty (scope : Scope) (owner : Job) (name : String) (copy : Model) : Prop where
  shaped : shape owner.schema = .ok .record
  optional : .str name ∉ requiredNames owner.schema
  declared : ∃ entry ∈ (owner.schema.get "properties").entries?.getD [],
    entry.1.text? = some name ∧
      ∃ model, Job.built scope (owner.inner entry.2) = .ok model ∧ copy = asProperty name true model

/-- A model is the record of the properties that a composition has of its own, apart from its being
required. -/
structure IsCopyOfRecord (scope : Scope) (owner : Job) (copy : Model) : Prop where
  shaped : ∃ kind members, shape owner.schema = .ok (.composition kind members)
  recorded : ∃ model, Job.built scope owner = .ok model ∧
    copy = { name := "properties"
             kind := .record
             properties := ownProperties model
             isRequired := true }

section
variable {scope : Scope} {job next : Job} {member : Node} {build : Job → Except Failure Model}

/-! ### Candidates -/

/-- What offers candidates for a member is the member itself or the target of its reference. -/
theorem target_of_mem_offeredJobs (h : next ∈ job.offeredJobs scope member) :
    Reference.target scope.document member = .ok next.schema ∧ next.name = "" := by
  unfold Job.offeredJobs at h
  unfold Reference.target
  split at h
  · rename_i ref href
    split at h
    · cases h
    · split at h
      · rename_i schema hresolve
        rw [List.mem_singleton.mp h, href]
        exact ⟨hresolve, rfl⟩
      · cases h
  · cases h
  · rename_i hnone
    rw [List.mem_singleton.mp h, hnone]
    exact ⟨rfl, rfl⟩

/-- A schema without a name has no discriminator, so its properties are what their schemas say. -/
theorem property_of_unnamed {entry : Scalar × Node} {p : Model} (unnamed : job.name = "")
    (h : Job.property scope build job (propertyContext scope job.schema job.name) entry = .ok p) :
    ∃ name model, entry.1.text? = some name ∧ build (job.inner entry.2) = .ok model ∧
      p = asProperty name (Node.listHas name (requiredNames job.schema)) model := by
  obtain ⟨name, hname, h⟩ := Except.bind_eq_ok_iff.mp h
  obtain ⟨value, hvalue, h⟩ := Except.bind_eq_ok_iff.mp h
  rw [unnamed] at hvalue
  cases hvalue
  obtain ⟨model, hmodel, rfl⟩ := Except.map_eq_ok_iff.mp h
  exact ⟨name, model, Scalar.written_eq_ok_iff.mp hname, hmodel, rfl⟩

theorem isCopyOfProperty_of_mem_declared {own : List Model} {c : Model} {name : String}
    (unnamed : job.name = "") (shaped : shape job.schema = .ok .record)
    (h : Job.declared scope (Job.built scope) job = .ok own) (hc : c ∈ own)
    (hname : c.name = Name.quoteUnlessBare name) (optional : c.isRequired = false) :
    IsCopyOfProperty scope job name { c with isRequired := true } := by
  rw [declared_eq] at h
  obtain ⟨entry, hentry, hproperty⟩ := Except.exists_mem_of_mapM h hc
  obtain ⟨written, model, htext, hmodel, rfl⟩ := property_of_unnamed unnamed hproperty
  have hsame : written = name := Name.quoteUnlessBare_injective hname
  subst hsame
  exact ⟨shaped, not_mem_requiredNames_iff.mp optional, entry, hentry, htext, model, hmodel, rfl⟩

/-- A candidate with a name is a property of a record, or the record of a composition. -/
theorem isCopy_of_candidate {owner c : Model} {name : String} (unnamed : next.name = "")
    (h : Job.built scope next = .ok owner) (hc : c ∈ owner.properties)
    (hname : c.name = Name.quoteUnlessBare name) (optional : c.isRequired = false) :
    IsCopyOfProperty scope next name { c with isRequired := true } ∨
      name = "properties" ∧ IsCopyOfRecord scope next { c with isRequired := true } := by
  cases ownRule_of_built h with
  | record shaped declared _ properties_eq =>
    exact .inl (isCopyOfProperty_of_mem_declared unnamed shaped declared (properties_eq ▸ hc) hname
      optional)
  | without _ empty =>
    rw [empty] at hc
    cases hc
  | @composition kind members _ _ _ shaped _ _ kind_ne unnamed' =>
    obtain ⟨hproperties, _, hrecord⟩ := eq_record_of_named unnamed' hc hname
    refine .inr ⟨hproperties, ⟨kind, members, shaped⟩, _, h, ?_⟩
    rw [ownProperties_withMembers kind_ne unnamed', hrecord]

end

/-! ### Promotion -/

/-- The properties that a composition has of its own are promoted ones, followed by those that it
declares.  Each promoted one has a name that the composition requires, and is a copy of the property
of that name in a member that is a record; or the name is `properties`, and it is a copy of the
record of a member that is a composition. -/
theorem exists_source_of_promoted {scope : Scope} {job : Job} {model : Model} {kind : ModelKind}
    {members : List Node} (h : Job.built scope job = .ok model)
    (shaped : shape job.schema = .ok (.composition kind members)) :
    ∃ promoted own, ownProperties model = promoted ++ own ∧
      Job.declared scope (Job.built scope) job = .ok own ∧
        ∀ p ∈ promoted, ∃ name, .str name ∈ requiredNames job.schema ∧
          p.name = Name.quoteUnlessBare name ∧
            ∃ member ∈ members, ∃ next ∈ job.offeredJobs scope member,
              Reference.target scope.document member = .ok next.schema ∧
                (IsCopyOfProperty scope next name p ∨
                  name = "properties" ∧ IsCopyOfRecord scope next p) := by
  cases ownRule_of_built h with
  | record shaped' _ _ _ => cases shaped.symm.trans shaped'
  | without shaped' _ => exact absurd (.inr ⟨kind, members, shaped⟩) shaped'
  | composition shaped' offered declared kind_ne unnamed =>
    cases shaped.symm.trans shaped'
    refine ⟨_, _, ownProperties_withMembers kind_ne unnamed, declared, fun p hp => ?_⟩
    obtain ⟨name, c, hrequired, hc, hname, optional, rfl⟩ := exists_of_mem_promote hp
    obtain ⟨member, hmember, next, hnext, owner, howner, hc⟩ :=
      Job.exists_job_of_promotable offered hc
    obtain ⟨htarget, hunnamed⟩ := target_of_mem_offeredJobs hnext
    exact ⟨name, hrequired, hname, member, hmember, next, hnext, htarget,
      isCopy_of_candidate hunnamed howner hc hname optional⟩

open animalScope in
theorem exists_source_of_tag : ∃ cat,
    Job.built animalScope ⟨[], requiring "Animal", "Cat", true⟩ = .ok cat ∧
      ∃ promoted own, ownProperties cat = promoted ++ own ∧
        Job.declared animalScope (Job.built animalScope) ⟨[], requiring "Animal", "Cat", true⟩ =
          .ok own ∧
          ∀ p ∈ promoted, ∃ name, .str name ∈ requiredNames (requiring "Animal") ∧
            p.name = Name.quoteUnlessBare name ∧
              ∃ member ∈ [reference "Animal"],
                ∃ next ∈ Job.offeredJobs animalScope ⟨[], requiring "Animal", "Cat", true⟩ member,
                  Reference.target animalScope.document member = .ok next.schema ∧
                    (IsCopyOfProperty animalScope next name p ∨
                      name = "properties" ∧ IsCopyOfRecord animalScope next p) := by
  obtain ⟨cat, hcat⟩ := Except.exists_of_isOk builds.2.1
  exact ⟨cat, hcat, exists_source_of_promoted hcat rfl⟩

/-- A composition that requires `properties` of a composition, which declares a name only. -/
def recordSchema : Node := .map
  [(.str "allOf", .list [.map
      [(.str "allOf", .list [.map [(.str "type", .str "string")]]),
        (.str "properties", .map [(.str "name", .map [(.str "type", .str "string")])])]]),
    (.str "required", .list [.str "properties"])]

theorem ownNames_recordSchema :
    (Job.built ⟨.map [], .v3⟩ ⟨[], recordSchema, "", false⟩).toOption.map
      (fun model => (ownProperties model).map (·.name)) = some ["properties"] := by
  show (build ⟨.map [], .v3⟩ recordSchema "" false).toOption.map _ = _
  rw [build_eq fun _ => .error (.malformed .endless)]
  decide +kernel

/-- The record of a composition is no property that a schema declares. -/
theorem not_declared_promoted : ¬ ∀ (scope : Scope) (job : Job) (model : Model) (kind : ModelKind)
    (members : List Node) (promoted own : List Model),
      Job.built scope job = .ok model → shape job.schema = .ok (.composition kind members) →
        ownProperties model = promoted ++ own → Job.declared scope (Job.built scope) job = .ok own →
          ∀ p ∈ promoted, ∃ name, .str name ∈ requiredNames job.schema ∧
            p.name = Name.quoteUnlessBare name ∧
              ∃ member ∈ members, ∃ target,
                Reference.target scope.document member = .ok target ∧ Declares target name := by
  intro h
  obtain ⟨model, hmodel, hnames⟩ := Except.exists_of_toOption_map ownNames_recordSchema
  obtain ⟨p, hp, hname⟩ := List.mem_map.mp (hnames ▸ List.mem_singleton_self "properties")
  obtain ⟨name, _, hsame, member, hmember, target, htarget, entry, hentry, htext⟩ :=
    h ⟨.map [], .v3⟩ ⟨[], recordSchema, "", false⟩ model .allOf _ (ownProperties model) [] hmodel
      rfl (List.append_nil _).symm rfl p hp
  have hproperties : name = "properties" :=
    Name.quoteUnlessBare_injective (hsame.symm.trans (hname.trans (by decide)))
  subst hproperties
  rw [List.mem_singleton] at hmember
  subst hmember
  cases htarget
  -- The member declares nothing but `name`.
  cases List.mem_singleton.mp hentry
  exact absurd htext (by decide)

end Schema
end OpenApi
