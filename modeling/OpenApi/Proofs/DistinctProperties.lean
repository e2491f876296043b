import Mathlib.Data.List.Nodup
import OpenApi.Proofs.PromotedProperties

/-
Whether the properties that a composition has of its own have different names.

These are the promoted properties followed by the declared ones.  The declared ones are named by the
keys of a map, so they differ.  But a promoted property is added for each occurrence of its name
among the required ones, and whether the schema declares the name itself is not looked at.  So the
names differ exactly when each name that is required and offered by a member is required once and
not declared (`nodup_names_ownProperties_iff`).

What is offered can be told from the schemas (`Offers`), without building any model.  A member that
is a composition offers one name, that of its record, as soon as there is anything to record: a
property that it declares, or one that it promotes in turn.  Hence the recursion, which goes along
with that of building.
-/
namespace OpenApi
namespace Schema

/-- Whether the model of a schema holds something of that name that is not required yet. -/
inductive Provides (scope : Scope) : Job → String → Prop where
  | property {job : Job} {name : String} (shaped : shape job.schema = .ok .record)
      (declares : Declares job.schema name) (optional : .str name ∉ requiredNames job.schema) :
      Provides scope job name
  | declared {job : Job} {kind : ModelKind} {members : List Node} {name : String}
      (shaped : shape job.schema = .ok (.composition kind members))
      (declares : Declares job.schema name) : Provides scope job "properties"
  | promoted {job next : Job} {member : Node} {kind : ModelKind} {members : List Node}
      {name : String} (shaped : shape job.schema = .ok (.composition kind members))
      (mem : member ∈ members) (leads : next ∈ job.offeredJobs scope member)
      (required : .str name ∈ requiredNames job.schema) (provides : Provides scope next name) :
      Provides scope job "properties"

/-- Whether a member of a composition offers a name to be promoted. -/
def Offers (scope : Scope) (job : Job) (member : Node) (name : String) : Prop :=
  ∃ next ∈ job.offeredJobs scope member, Provides scope next name

/-- Whether there is an optional model of that name. -/
def HasFree (models : List Model) (name : String) : Prop :=
  ∃ c ∈ models, c.name = Name.quoteUnlessBare name ∧ c.isRequired = false

/-- Whether the properties of a schema are named by texts, each by another one. -/
def NamesApart (schema : Node) : Prop :=
  ∃ keys : List String, keys.Nodup ∧
    ((schema.get "properties").entries?.getD []).map Prod.fst = keys.map .str

instance (models : List Model) (name : String) : Decidable (HasFree models name) :=
  inferInstanceAs (Decidable (∃ c ∈ models, _))

/-- The texts among the required names. -/
def texts (items : List Node) : List String :=
  items.filterMap fun | .str s => some s | _ => none

theorem mem_texts {items : List Node} {s : String} : s ∈ texts items ↔ .str s ∈ items := by
  rw [texts, List.mem_filterMap]
  constructor
  · rintro ⟨item, hitem, h⟩
    split at h
    · cases h
      exact hitem
    · cases h
  · exact fun h => ⟨.str s, h, rfl⟩

/-! ### What is offered -/

section
variable {scope : Scope} {job : Job} {model : Model} {kind : ModelKind} {members : List Node}
  {found own : List Model} {build : Job → Except Failure Model}

/-- A declared property stands in the record, whether it is required or not. -/
theorem declared_ne_nil_iff (h : Job.declared scope build job = .ok own) :
    own ≠ [] ↔ ∃ name, Declares job.schema name := by
  constructor
  · intro hne
    obtain ⟨p, hp⟩ := List.exists_mem_of_ne_nil own hne
    rw [declared_eq] at h
    obtain ⟨entry, hentry, hproperty⟩ := Except.exists_mem_of_mapM h hp
    obtain ⟨name, htext, _⟩ := name_of_property hproperty
    exact ⟨name, entry, hentry, htext⟩
  · rintro ⟨name, hdeclares⟩
    obtain ⟨p, hp, _⟩ := (exists_declared_iff _ h).mpr ⟨hdeclares, rfl⟩
    exact List.ne_nil_of_mem hp

theorem promote_ne_nil_iff {required : List Node} :
    promote required found ≠ [] ↔ ∃ name, .str name ∈ required ∧ HasFree found name := by
  constructor
  · intro hne
    obtain ⟨p, hp⟩ := List.exists_mem_of_ne_nil _ hne
    obtain ⟨name, c, hrequired, hc, hname, hfree, _⟩ := exists_of_mem_promote hp
    exact ⟨name, hrequired, c, hc, hname, hfree⟩
  · rintro ⟨name, h⟩
    obtain ⟨p, hp, _⟩ := exists_promoted_iff.mpr h
    exact List.ne_nil_of_mem hp

/-- The models that a composition holds have one name among them, that of its record. -/
theorem hasFree_withMembers_iff {children : List Model} {name : String}
    (unnamed : ∀ child ∈ children, child.name = "") :
    HasFree (withMembers model kind children own).properties name ↔
      name = "properties" ∧ own ≠ [] := by
  constructor
  · rintro ⟨c, hc, hname, _⟩
    obtain ⟨hproperties, hown, _⟩ := eq_record_of_named unnamed hc hname
    exact ⟨hproperties, hown⟩
  · rintro ⟨rfl, hown⟩
    have hname : "properties" = Name.quoteUnlessBare "properties" := by decide
    refine ⟨{ name := "properties", kind := .record, properties := own },
      List.mem_append_right _ ?_, hname, rfl⟩
    rw [ownRecord, if_neg fun hempty => hown (List.isEmpty_iff.mp hempty)]
    exact List.mem_singleton_self _

/-- A member offers what the model holds that it leads to. -/
theorem hasFree_offered_iff {member : Node} {offer : List Model} {name : String}
    (h : Job.offered scope build job member = .ok offer) :
    HasFree offer name ↔ ∃ next ∈ job.offeredJobs scope member, ∃ owner,
      build next = .ok owner ∧ HasFree owner.properties name := by
  constructor
  · rintro ⟨c, hc, hfree⟩
    obtain ⟨next, leads, owner, howner, hc⟩ := Job.exists_job_of_offered h hc
    exact ⟨next, leads, owner, howner, c, hc, hfree⟩
  · rintro ⟨next, leads, owner, howner, hfree⟩
    rw [Job.offered_of_mem_offeredJobs leads, howner] at h
    cases h
    exact hfree

/-- What a composition finds for a required name is what its members offer, if that is what the
models hold that they lead to. -/
theorem hasFree_found_iff {name : String} (h : Job.built scope job = .ok model)
    (shaped : shape job.schema = .ok (.composition kind members))
    (offered : Job.promotable scope (Job.built scope) job members = .ok found)
    (hrequired : .str name ∈ requiredNames job.schema)
    (each : ∀ next owner, Job.LeadsTo scope job next → Job.built scope next = .ok owner →
      (HasFree owner.properties name ↔ Provides scope next name)) :
    HasFree found name ↔ ∃ member ∈ members, Offers scope job member name := by
  rw [HasFree, exists_promotable_iff (List.ne_nil_of_mem hrequired) offered]
  constructor
  · rintro ⟨member, hmember, offer, hoffer, hfree⟩
    obtain ⟨next, leads, owner, howner, hfree⟩ := (hasFree_offered_iff hoffer).mp hfree
    have hleads := Job.leadsTo_of_mem_offeredJobs shaped hmember leads
    exact ⟨member, hmember, next, leads, (each next owner hleads howner).mp hfree⟩
  · rintro ⟨member, hmember, next, leads, hprovides⟩
    have hleads := Job.leadsTo_of_mem_offeredJobs shaped hmember leads
    obtain ⟨offer, hoffer⟩ := exists_offered h shaped hrequired hmember
    have howner := hoffer
    rw [Job.offered_of_mem_offeredJobs leads] at howner
    obtain ⟨owner, howner, _⟩ := Except.map_eq_ok_iff.mp howner
    have hfree := (each next owner hleads howner).mpr hprovides
    exact ⟨member, hmember, offer, hoffer,
      (hasFree_offered_iff hoffer).mpr ⟨next, leads, owner, howner, hfree⟩⟩

/-- What a model holds for promotion is told from the schemas.  The induction follows the jobs: the
record of a composition holds what the models hold that its members lead to. -/
theorem hasFree_iff {job : Job} {model : Model} {name : String}
    (h : Job.built scope job = .ok model) :
    HasFree model.properties name ↔ Provides scope job name := by
  induction job using Job.induction scope generalizing model name with
  | step job ih =>
  cases ownRule_of_built h with
  | record shaped _ _ _ =>
    rw [HasFree, exists_free_of_record h shaped]
    constructor
    · exact fun ⟨hdeclares, optional⟩ => .property shaped hdeclares optional
    · intro hprovides
      cases hprovides with
      | property _ hdeclares optional => exact ⟨hdeclares, optional⟩
      | declared shaped' _ => cases shaped.symm.trans shaped'
      | promoted shaped' _ _ _ _ => cases shaped.symm.trans shaped'
  | without shaped empty =>
    rw [HasFree, empty]
    constructor
    · rintro ⟨c, hc, _⟩
      cases hc
    · intro hprovides
      cases hprovides with
      | property shaped' _ _ => exact absurd (.inl shaped') shaped
      | declared shaped' _ => exact absurd (.inr ⟨_, _, shaped'⟩) shaped
      | promoted shaped' _ _ _ _ => exact absurd (.inr ⟨_, _, shaped'⟩) shaped
  | composition shaped offered declared _ unnamed =>
    have hfound {inner : String} (hrequired : .str inner ∈ requiredNames job.schema) :=
      hasFree_found_iff h shaped offered hrequired fun next owner hleads howner =>
        ih next hleads howner
    rw [hasFree_withMembers_iff unnamed, ne_eq, List.append_eq_nil_iff, not_and_or]
    rw [← ne_eq, ← ne_eq, promote_ne_nil_iff, declared_ne_nil_iff declared]
    constructor
    · rintro ⟨rfl, ⟨inner, hrequired, hfree⟩ | ⟨inner, hdeclares⟩⟩
      · obtain ⟨member, hmember, next, leads, hprovides⟩ := (hfound hrequired).mp hfree
        exact .promoted shaped hmember leads hrequired hprovides
      · exact .declared shaped hdeclares
    · intro hprovides
      cases hprovides with
      | property shaped' _ _ => cases shaped.symm.trans shaped'
      | declared _ hdeclares => exact ⟨rfl, .inr ⟨_, hdeclares⟩⟩
      | promoted shaped' hmember leads hrequired hprovides =>
        cases shaped.symm.trans shaped'
        exact ⟨rfl, .inl ⟨_, hrequired, (hfound hrequired).mpr ⟨_, hmember, _, leads, hprovides⟩⟩⟩

/-! ### Names -/

/-- Promotion looks at the texts among the required names only. -/
theorem promote_eq (required : List Node) : promote required found =
    (texts required).filterMap fun s =>
      (found.find? fun m => m.name == Name.quoteUnlessBare s && !m.isRequired).map
        fun m => { m with isRequired := true } := by
  rw [promote, texts, List.filterMap_filterMap]
  congr 1
  funext item
  cases item with
  | scalar value => cases value <;> rfl
  | _ => rfl

/-- The promoted properties have the names that are required and found, as often as they are
required. -/
theorem names_promote (required : List Node) : (promote required found).map (·.name) =
    ((texts required).filter (HasFree found ·)).map Name.quoteUnlessBare := by
  rw [promote_eq]
  induction texts required with
  | nil => rfl
  | cons s rest ih =>
    cases hfind : found.find? fun m => m.name == Name.quoteUnlessBare s && !m.isRequired with
    | none =>
      have hnone : ¬ HasFree found s := by
        rintro ⟨c, hc, hname, hfree⟩
        have hmiss := List.find?_eq_none.mp hfind c hc
        simp [hname, hfree] at hmiss
      rw [List.filterMap_cons_none (by rw [hfind]; rfl),
        List.filter_cons_of_neg (by simpa using hnone)]
      exact ih
    | some c =>
      have hsame := List.find?_some hfind
      simp only [Bool.and_eq_true, beq_iff_eq, Bool.not_eq_true'] at hsame
      have hsome : HasFree found s := ⟨c, List.mem_of_find?_eq_some hfind, hsame⟩
      rw [List.filterMap_cons_some (by rw [hfind]; rfl),
        List.filter_cons_of_pos (by simpa using hsome), List.map_cons, List.map_cons, ih]
      exact congrArg (· :: _) hsame.1

/-- The declared properties are named by the keys. -/
theorem names_declared {keys : List String} (h : Job.declared scope build job = .ok own)
    (hkeys : ((job.schema.get "properties").entries?.getD []).map Prod.fst = keys.map .str) :
    own.map (·.name) = keys.map Name.quoteUnlessBare := by
  rw [declared_eq] at h
  replace h := Except.mapM_eq_ok_iff.mp h
  generalize (job.schema.get "properties").entries?.getD [] = entries at h hkeys
  induction h generalizing keys with
  | nil =>
    rw [List.map_nil, eq_comm, List.map_eq_nil_iff] at hkeys
    rw [hkeys]
    rfl
  | cons hproperty _ ih =>
    obtain ⟨key, rest, rfl, hkey, hrest⟩ := List.map_eq_cons_iff.mp hkeys.symm
    obtain ⟨s, htext, hname, _⟩ := name_of_property hproperty
    rw [← hkey] at htext
    cases htext
    rw [List.map_cons, List.map_cons, hname, ih hrest.symm]

theorem declares_iff {schema : Node} {keys : List String} {name : String}
    (hkeys : ((schema.get "properties").entries?.getD []).map Prod.fst = keys.map .str) :
    Declares schema name ↔ name ∈ keys := by
  constructor
  · rintro ⟨entry, hentry, htext⟩
    have hkey : entry.1 ∈ keys.map Scalar.str := hkeys ▸ List.mem_map_of_mem hentry
    obtain ⟨key, hkey, hsame⟩ := List.mem_map.mp hkey
    rw [← hsame] at htext
    cases htext
    exact hkey
  · intro hname
    have hkey : Scalar.str name ∈ keys.map Scalar.str := List.mem_map_of_mem hname
    obtain ⟨entry, hentry, hsame⟩ := List.mem_map.mp (hkeys ▸ hkey)
    exact ⟨entry, hentry, hsame ▸ rfl⟩

end

/-- Some of the items of a list, followed by others. -/
theorem nodup_filter_append_iff {required keys : List String} {p : String → Bool}
    (distinct : keys.Nodup) : (required.filter p ++ keys).Nodup ↔
      ∀ name ∈ required, p name = true → required.count name = 1 ∧ name ∉ keys := by
  rw [List.nodup_append, List.nodup_iff_count_eq_one]
  constructor
  · rintro ⟨once, -, apart⟩ name hname hp
    have hmem : name ∈ required.filter p := List.mem_filter.mpr ⟨hname, hp⟩
    exact ⟨List.count_filter hp ▸ once name hmem, fun hkey => apart name hmem name hkey rfl⟩
  · intro hall
    refine ⟨fun name hmem => ?_, distinct, ?_⟩
    · obtain ⟨hname, hp⟩ := List.mem_filter.mp hmem
      exact (List.count_filter hp).trans (hall name hname hp).1
    · rintro name hmem _ hkey rfl
      obtain ⟨hname, hp⟩ := List.mem_filter.mp hmem
      exact (hall name hname hp).2 hkey

/-- The properties that a composition has of its own have different names exactly when each name
that is required and offered by a member is required once, and not declared by the composition. -/
theorem nodup_names_ownProperties_iff {scope : Scope} {job : Job} {model : Model} {kind : ModelKind}
    {members : List Node} (h : Job.built scope job = .ok model)
    (shaped : shape job.schema = .ok (.composition kind members)) (apart : NamesApart job.schema) :
    ((ownProperties model).map (·.name)).Nodup ↔
      ∀ name ∈ texts (requiredNames job.schema),
        (∃ member ∈ members, Offers scope job member name) →
          (texts (requiredNames job.schema)).count name = 1 ∧ ¬ Declares job.schema name := by
  obtain ⟨keys, distinct, hkeys⟩ := apart
  cases ownRule_of_built h with
  | record shaped' _ _ _ => cases shaped.symm.trans shaped'
  | without shaped' _ => exact absurd (.inr ⟨kind, members, shaped⟩) shaped'
  | composition shaped' offered declared kind_ne unnamed =>
    cases shaped.symm.trans shaped'
    rw [ownProperties_withMembers kind_ne unnamed, List.map_append, names_promote,
      names_declared declared hkeys, ← List.map_append,
      List.nodup_map_iff fun _ _ => Name.quoteUnlessBare_injective,
      nodup_filter_append_iff distinct]
    refine forall₂_congr fun name hname => ?_
    rw [decide_eq_true_iff, hasFree_found_iff h shaped offered (mem_texts.mp hname)
      fun _ _ _ howner => hasFree_iff howner, declares_iff hkeys]

theorem namesApart_of_none {schema : Node} (h : schema.get? "properties" = none) :
    NamesApart schema := by
  refine ⟨[], List.nodup_nil, ?_⟩
  rw [Node.get, h]
  rfl

open animalScope in
theorem nodup_names_cat : ∃ cat,
    Job.built animalScope ⟨[], requiring "Animal", "Cat", true⟩ = .ok cat ∧
      ((ownProperties cat).map (·.name)).Nodup := by
  obtain ⟨cat, hcat⟩ := Except.exists_of_isOk builds.2.1
  have hbuilt : Job.built animalScope ⟨[], requiring "Animal", "Cat", true⟩ = .ok cat := hcat
  refine ⟨cat, hbuilt, (nodup_names_ownProperties_iff hbuilt rfl (namesApart_of_none rfl)).mpr
    fun name hname _ => ?_⟩
  have hname : name ∈ ["tag"] := hname
  rw [List.mem_singleton.mp hname]
  refine ⟨rfl, ?_⟩
  rintro ⟨entry, hentry, _⟩
  cases hentry

/-- A composition that requires a property of its member and declares it again. -/
def refinedSchema : Node := .map
  [(.str "allOf", .list [.map [(.str "type", .str "object"), (.str "properties", identified)]]),
    (.str "required", .list [.str "id"]), (.str "properties", identified)]
where
  identified : Node := .map [(.str "id", .map [(.str "type", .str "string")])]

theorem ownNames_refinedSchema :
    (Job.built ⟨.map [], .v3⟩ ⟨[], refinedSchema, "", false⟩).toOption.map
      (fun model => (ownProperties model).map (·.name)) = some ["id", "id"] := by
  show (build ⟨.map [], .v3⟩ refinedSchema "" false).toOption.map _ = _
  rw [build_eq fun _ => .error (.malformed .endless)]
  decide +kernel

/-- The promoted property and the declared one have the same name. -/
theorem not_nodup_names_ownProperties : ¬ ∀ (scope : Scope) (job : Job) (model : Model)
    (kind : ModelKind) (members : List Node), Job.built scope job = .ok model →
      shape job.schema = .ok (.composition kind members) → NamesApart job.schema →
        ((ownProperties model).map (·.name)).Nodup := by
  intro h
  obtain ⟨model, hmodel, hnames⟩ := Except.exists_of_toOption_map ownNames_refinedSchema
  have hdistinct := h _ _ model .allOf _ hmodel rfl ⟨["id"], List.nodup_singleton "id", rfl⟩
  rw [hnames] at hdistinct
  exact absurd hdistinct (by decide)

end Schema
end OpenApi
