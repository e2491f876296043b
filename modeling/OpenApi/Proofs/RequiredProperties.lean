import OpenApi.Proofs.ClosedModels
import OpenApi.Proofs.OwnProperties
import OpenApi.Proofs.Spelling
import OpenApi.Proofs.Termination

/-
Which of the required names of a composition are found again in its model.

A schema may require names that it does not declare itself.  A composition then looks for them among
the properties of its members, and puts a required copy of each that it finds into its own record.
It looks at one level only: at the properties of a member, or of the target of a member that is a
reference.  A member that is a composition again has no properties there but the models of its own
members and their record, so what is declared further down is not found (`requires_iff`).

Nothing is lost where the declaring schema is the composition itself, or a record right below it.
Where it lies deeper, the name has to be required on the way once more.
-/
namespace OpenApi

namespace Schema

/-- Whether a model has a required property of that name. -/
def Requires (model : Model) (name : String) : Prop :=
  ∃ p ∈ ownProperties model, p.name = Name.quoteUnlessBare name ∧ p.isRequired = true

/-- Whether a member of a composition has a property to promote: its target is a record that declares
it and does not require it. -/
def Contributes (document member : Node) (name : String) : Prop :=
  ∃ target, Reference.target document member = .ok target ∧ shape target = .ok .record ∧
    Declares target name ∧ .str name ∉ requiredNames target

theorem listHas_iff {name : String} {items : List Node} :
    Node.listHas name items = true ↔ .str name ∈ items := by
  rw [Node.listHas, List.any_eq_true]
  constructor
  · rintro ⟨item, hmem, htext⟩
    rw [← Node.isText_iff.mp htext]
    exact hmem
  · exact fun hmem => ⟨.str name, hmem, Node.isText_iff.mpr rfl⟩

/-! ### Promotion -/

section
variable {required : List Node} {candidates : List Model} {name : String}

theorem exists_promoted_iff :
    (∃ p ∈ promote required candidates, p.name = Name.quoteUnlessBare name) ↔
      .str name ∈ required ∧
        ∃ c ∈ candidates, c.name = Name.quoteUnlessBare name ∧ c.isRequired = false := by
  constructor
  · rintro ⟨p, hp, hname⟩
    obtain ⟨s, c, hitem, hc, hsame, hfree, rfl⟩ := exists_of_mem_promote hp
    have hs : s = name := Name.quoteUnlessBare_injective (hsame.symm.trans hname)
    subst hs
    exact ⟨hitem, c, hc, hsame, hfree⟩
  · rintro ⟨hrequired, c, hc, hname, hfree⟩
    have hfound : (candidates.find? fun m =>
        m.name == Name.quoteUnlessBare name && !m.isRequired).isSome = true := by
      rw [List.find?_isSome]
      refine ⟨c, hc, ?_⟩
      rw [hname, hfree, beq_self_eq_true]
      rfl
    obtain ⟨first, hfirst⟩ := Option.isSome_iff_exists.mp hfound
    have hsame := List.find?_some hfirst
    rw [Bool.and_eq_true, beq_iff_eq] at hsame
    refine ⟨{ first with isRequired := true }, ?_, hsame.1⟩
    refine List.mem_filterMap.mpr ⟨.str name, hrequired, ?_⟩
    exact congrArg (Option.map fun m : Model => { m with isRequired := true }) hfirst

theorem isRequired_of_mem_promote {p : Model} (hp : p ∈ promote required candidates) :
    p.isRequired = true := by
  obtain ⟨_, _, _, _, _, _, rfl⟩ := exists_of_mem_promote hp
  rfl

end

/-! ### Models -/

section
variable {scope : Scope} {job : Job} {build : Job → Except Failure Model} {model : Model}
  {own : List Model} {name : String}

/-- A declared property has the name of its key, and is required if the schema says so. -/
theorem name_of_property {entry : Scalar × Node} {p : Model}
    (h : Job.property scope build job (propertyContext scope job.schema job.name) entry = .ok p) :
    ∃ s, entry.1.text? = some s ∧ p.name = Name.quoteUnlessBare s ∧
      p.isRequired = Node.listHas s (requiredNames job.schema) := by
  obtain ⟨s, hs, h⟩ := Except.bind_eq_ok_iff.mp h
  obtain ⟨value, _, h⟩ := Except.bind_eq_ok_iff.mp h
  refine ⟨s, Scalar.written_eq_ok_iff.mp hs, ?_⟩
  cases value with
  | some value =>
    cases h
    exact ⟨rfl, rfl⟩
  | none =>
    obtain ⟨m, _, rfl⟩ := Except.map_eq_ok_iff.mp h
    exact ⟨rfl, rfl⟩

theorem exists_declared_iff (b : Bool) (h : Job.declared scope build job = .ok own) :
    (∃ p ∈ own, p.name = Name.quoteUnlessBare name ∧ p.isRequired = b) ↔
      Declares job.schema name ∧ Node.listHas name (requiredNames job.schema) = b := by
  rw [declared_eq] at h
  constructor
  · rintro ⟨p, hp, hname, rfl⟩
    obtain ⟨entry, hentry, hp⟩ := Except.exists_mem_of_mapM h hp
    obtain ⟨s, hs, hsname, hrequired⟩ := name_of_property hp
    have hsame : s = name := Name.quoteUnlessBare_injective (hsname.symm.trans hname)
    subst hsame
    exact ⟨⟨entry, hentry, hs⟩, hrequired.symm⟩
  · rintro ⟨⟨entry, hentry, htext⟩, hb⟩
    obtain ⟨p, hp, hbuilt⟩ := Except.exists_result_of_mapM h hentry
    obtain ⟨s, hs, hsname, hrequired⟩ := name_of_property hbuilt
    cases htext.symm.trans hs
    exact ⟨p, hp, hsname, hrequired.trans hb⟩

/-! ### Members -/

theorem exists_promotable_iff {members : List Node} {found : List Model} {P : Model → Prop}
    (hrequired : requiredNames job.schema ≠ [])
    (h : Job.promotable scope build job members = .ok found) :
    (∃ c ∈ found, P c) ↔ ∃ member ∈ members, ∃ offer,
      Job.offered scope build job member = .ok offer ∧ ∃ c ∈ offer, P c := by
  unfold Job.promotable at h
  rw [if_neg fun hempty => hrequired (List.isEmpty_iff.mp hempty)] at h
  obtain ⟨offers, hoffers, rfl⟩ := Except.map_eq_ok_iff.mp h
  constructor
  · rintro ⟨c, hc, hP⟩
    obtain ⟨offer, hoffer, hc⟩ := List.mem_flatten.mp hc
    obtain ⟨member, hmember, hoffered⟩ := Except.exists_mem_of_mapM hoffers hoffer
    exact ⟨member, hmember, offer, hoffered, c, hc, hP⟩
  · rintro ⟨member, hmember, offer, hoffered, c, hc, hP⟩
    obtain ⟨offer', hoffer', hoffered'⟩ := Except.exists_result_of_mapM hoffers hmember
    cases hoffered.symm.trans hoffered'
    exact ⟨c, List.mem_flatten.mpr ⟨offer, hoffer', hc⟩, hP⟩

/-- A member that is not just being followed offers the properties of what it stands for. -/
theorem exists_owner_of_offered {member : Node} {offer : List Model} (hfresh : job.following = [])
    (h : Job.offered scope build job member = .ok offer) :
    ∃ next owner, Reference.target scope.document member = .ok next.schema ∧
      build next = .ok owner ∧ offer = owner.properties := by
  unfold Job.offered at h
  unfold Reference.target
  split at h
  · rename_i ref href
    rw [hfresh, if_neg List.not_mem_nil] at h
    obtain ⟨target, htarget, h⟩ := Except.bind_eq_ok_iff.mp h
    obtain ⟨owner, howner, rfl⟩ := Except.map_eq_ok_iff.mp h
    rw [href]
    exact ⟨job.target ref target, owner, htarget, howner, rfl⟩
  · rename_i other hother href
    -- A reference that is no text leads nowhere.
    obtain ⟨target, htarget, _⟩ := Except.bind_eq_ok_iff.mp h
    unfold Reference.resolve at htarget
    split at htarget
    · rename_i text
      exact absurd rfl (hother text)
    · obtain ⟨_, _, herror⟩ := Except.bind_eq_ok_iff.mp htarget
      cases herror
  · rename_i hnone
    obtain ⟨owner, howner, rfl⟩ := Except.map_eq_ok_iff.mp h
    rw [hnone]
    exact ⟨job.inner member, owner, rfl, howner, rfl⟩

theorem not_mem_requiredNames_iff {schema : Node} :
    Node.listHas name (requiredNames schema) = false ↔ .str name ∉ requiredNames schema := by
  rw [← listHas_iff, Bool.not_eq_true]

theorem exists_free_of_record (h : Job.built scope job = .ok model)
    (shaped : shape job.schema = .ok .record) :
    (∃ p ∈ model.properties, p.name = Name.quoteUnlessBare name ∧ p.isRequired = false) ↔
      Declares job.schema name ∧ .str name ∉ requiredNames job.schema := by
  cases ownRule_of_built h with
  | record _ declared _ properties_eq =>
    rw [properties_eq, exists_declared_iff false declared, not_mem_requiredNames_iff]
  | composition shaped' _ _ _ _ => cases shaped.symm.trans shaped'
  | without shaped' _ => exact absurd (.inl shaped) shaped'

/-- The models in a composition have no names but that of its record. -/
theorem eq_record_of_named {kind : ModelKind} {children : List Model} {c : Model}
    (unnamed : ∀ child ∈ children, child.name = "")
    (hc : c ∈ (withMembers model kind children own).properties)
    (hname : c.name = Name.quoteUnlessBare name) :
    name = "properties" ∧ own ≠ [] ∧
      c = { name := "properties", kind := .record, properties := own } := by
  rcases List.mem_append.mp hc with hc | hc
  · rw [unnamed c (List.mem_of_mem_filter hc)] at hname
    exact absurd hname.symm (Name.quoteUnlessBare_ne_empty name)
  · unfold ownRecord at hc
    split at hc
    · cases hc
    · rename_i hown
      have hrecord := List.mem_singleton.mp hc
      rw [hrecord] at hname
      refine ⟨?_, fun hnil => hown (List.isEmpty_iff.mpr hnil), hrecord⟩
      by_contra hne
      exact quoteUnlessBare_ne hne hname.symm

/-- Only a record has properties to be promoted from it, apart from the record of a composition. -/
theorem isRecord_of_free (h : Job.built scope job = .ok model) (hname : name ≠ "properties")
    (hfree : ∃ p ∈ model.properties, p.name = Name.quoteUnlessBare name ∧ p.isRequired = false) :
    shape job.schema = .ok .record := by
  obtain ⟨p, hp, hpname, _⟩ := hfree
  cases ownRule_of_built h with
  | record shaped _ _ _ => exact shaped
  | composition _ _ _ _ unnamed => exact absurd (eq_record_of_named unnamed hp hpname).1 hname
  | without _ empty =>
    rw [empty] at hp
    cases hp

theorem free_of_contributes {member : Node} {offer : List Model} (hfresh : job.following = [])
    (h : Job.offered scope (Job.built scope) job member = .ok offer)
    (hmember : Contributes scope.document member name) :
    ∃ c ∈ offer, c.name = Name.quoteUnlessBare name ∧ c.isRequired = false := by
  obtain ⟨target, htarget, hrecord, hdeclares, hoptional⟩ := hmember
  obtain ⟨next, owner, hnext, howner, rfl⟩ := exists_owner_of_offered hfresh h
  cases htarget.symm.trans hnext
  exact (exists_free_of_record howner hrecord).mpr ⟨hdeclares, hoptional⟩

theorem contributes_of_free {member : Node} {offer : List Model} (hfresh : job.following = [])
    (h : Job.offered scope (Job.built scope) job member = .ok offer) (hname : name ≠ "properties")
    (hfree : ∃ c ∈ offer, c.name = Name.quoteUnlessBare name ∧ c.isRequired = false) :
    Contributes scope.document member name := by
  obtain ⟨next, owner, hnext, howner, rfl⟩ := exists_owner_of_offered hfresh h
  have hrecord := isRecord_of_free howner hname hfree
  obtain ⟨hdeclares, hoptional⟩ := (exists_free_of_record howner hrecord).mp hfree
  exact ⟨next.schema, hnext, hrecord, hdeclares, hoptional⟩

/-! ### What is kept -/

/-- The required names of a composition that its model has. -/
theorem requires_iff_of_composition {kind : ModelKind} {members : List Node}
    (h : Job.built scope job = .ok model)
    (shaped : shape job.schema = .ok (.composition kind members)) :
    Requires model name ↔ .str name ∈ requiredNames job.schema ∧
      (Declares job.schema name ∨ ∃ member ∈ members, ∃ offer,
        Job.offered scope (Job.built scope) job member = .ok offer ∧
          ∃ c ∈ offer, c.name = Name.quoteUnlessBare name ∧ c.isRequired = false) := by
  cases ownRule_of_built h with
  | record shaped' _ _ _ => cases shaped.symm.trans shaped'
  | without shaped' _ => exact absurd (.inr ⟨kind, members, shaped⟩) shaped'
  | composition shaped' offered declared kind_ne unnamed =>
    cases shaped.symm.trans shaped'
    rw [Requires, ownProperties_withMembers kind_ne unnamed]
    constructor
    · rintro ⟨p, hp, hpname, hrequired⟩
      rcases List.mem_append.mp hp with hp | hp
      · obtain ⟨hmem, hfree⟩ := exists_promoted_iff.mp ⟨p, hp, hpname⟩
        exact ⟨hmem, .inr ((exists_promotable_iff (List.ne_nil_of_mem hmem) offered).mp hfree)⟩
      · obtain ⟨hdeclares, hhas⟩ := (exists_declared_iff true declared).mp
          ⟨p, hp, hpname, hrequired⟩
        exact ⟨listHas_iff.mp hhas, .inl hdeclares⟩
    · rintro ⟨hmem, hdeclares | hoffers⟩
      · obtain ⟨p, hp, h⟩ := (exists_declared_iff true declared).mpr
          ⟨hdeclares, listHas_iff.mpr hmem⟩
        exact ⟨p, List.mem_append_right _ hp, h⟩
      · have hfree := (exists_promotable_iff (List.ne_nil_of_mem hmem) offered).mpr hoffers
        obtain ⟨p, hp, hpname⟩ := exists_promoted_iff.mpr ⟨hmem, hfree⟩
        exact ⟨p, List.mem_append_left _ hp, hpname, isRequired_of_mem_promote hp⟩

theorem exists_offered {kind : ModelKind} {members : List Node} {member : Node}
    (h : Job.built scope job = .ok model)
    (shaped : shape job.schema = .ok (.composition kind members))
    (hrequired : .str name ∈ requiredNames job.schema) (hmember : member ∈ members) :
    ∃ offer, Job.offered scope (Job.built scope) job member = .ok offer := by
  cases ownRule_of_built h with
  | record shaped' _ _ _ => cases shaped.symm.trans shaped'
  | without shaped' _ => exact absurd (.inr ⟨kind, members, shaped⟩) shaped'
  | composition shaped' offered _ _ _ =>
    cases shaped.symm.trans shaped'
    unfold Job.promotable at offered
    rw [if_neg fun hempty => List.ne_nil_of_mem hrequired (List.isEmpty_iff.mp hempty)] at offered
    obtain ⟨offers, hoffers, _⟩ := Except.map_eq_ok_iff.mp offered
    exact Except.exists_of_mapM hoffers hmember

/-- The model of a declaring schema requires what the schema itself requires. -/
theorem requires_iff_of_declares (h : Job.built scope job = .ok model)
    (hdeclares : Declares job.schema name) :
    Requires model name ↔ HasOwn job.schema ∧ .str name ∈ requiredNames job.schema := by
  cases ownRule_of_built h with
  | record shaped declared kind_eq properties_eq =>
    rw [Requires, ownProperties, kind_eq, properties_eq]
    dsimp only
    rw [exists_declared_iff true declared, listHas_iff]
    exact ⟨fun h => ⟨.inl shaped, h.2⟩, fun h => ⟨hdeclares, h.2⟩⟩
  | composition shaped _ _ _ _ =>
    rw [requires_iff_of_composition h shaped]
    exact ⟨fun h => ⟨.inr ⟨_, _, shaped⟩, h.1⟩, fun h => ⟨h.2, .inl hdeclares⟩⟩
  | without shaped empty =>
    have hnone : ownProperties model = [] := by
      unfold ownProperties
      rw [empty]
      split <;> rfl
    rw [Requires, hnone]
    constructor
    · rintro ⟨p, hp, _⟩
      cases hp
    · exact fun h => absurd h.1 shaped

end

/-- Where a required name of a composition that some schema declares is required in the models.  It is
if the schema is the composition itself or a record right below it.  In general it is if one of these
declares the name, or if the declaring schema requires it too. -/
theorem requires_or_requires_iff {scope : Scope} {schema part : Node} {ownName partName name : String}
    {isDefinition : Bool} {model owner : Model} {kind : ModelKind} {members : List Node}
    (hmodel : build scope schema ownName isDefinition = .ok model)
    (shaped : shape schema = .ok (.composition kind members))
    (hrequired : .str name ∈ requiredNames schema)
    (howner : build scope part partName true = .ok owner) (hdeclares : Declares part name) :
    (part = schema ∨
        (∃ member ∈ members, Reference.target scope.document member = .ok part) ∧
          shape part = .ok .record →
      Requires model name ∨ Requires owner name) ∧
    (name ≠ "properties" →
      (Requires model name ∨ Requires owner name ↔
        Declares schema name ∨ (∃ member ∈ members, Contributes scope.document member name) ∨
          HasOwn part ∧ .str name ∈ requiredNames part)) := by
  have hbuilt : Job.built scope ⟨[], schema, ownName, isDefinition⟩ = .ok model := hmodel
  have hpart : Job.built scope ⟨[], part, partName, true⟩ = .ok owner := howner
  have hiff : Requires model name ↔ _ := requires_iff_of_composition hbuilt shaped
  have howner_iff : Requires owner name ↔ _ := requires_iff_of_declares hpart hdeclares
  have hkept : Declares schema name ∨ (∃ member ∈ members,
      Contributes scope.document member name) → Requires model name := by
    rintro (hown | ⟨member, hmember, hcontributes⟩)
    · exact hiff.mpr ⟨hrequired, .inl hown⟩
    · obtain ⟨offer, hoffer⟩ := exists_offered hbuilt shaped hrequired hmember
      have hfree := free_of_contributes rfl hoffer hcontributes
      exact hiff.mpr ⟨hrequired, .inr ⟨member, hmember, offer, hoffer, hfree⟩⟩
  constructor
  · rintro (rfl | ⟨⟨member, hmember, htarget⟩, hrecord⟩)
    · exact .inl (hkept (.inl hdeclares))
    · by_cases hagain : .str name ∈ requiredNames part
      · exact .inr (howner_iff.mpr ⟨.inl hrecord, hagain⟩)
      · exact .inl (hkept (.inr ⟨member, hmember, part, htarget, hrecord, hdeclares, hagain⟩))
  · intro hname
    rw [howner_iff, ← or_assoc]
    refine or_congr_left ⟨fun h => ?_, hkept⟩
    rcases (hiff.mp h).2 with hown | ⟨member, hmember, offer, hoffer, hfree⟩
    · exact .inl hown
    · exact .inr ⟨member, hmember, contributes_of_free rfl hoffer hname hfree⟩

/-- Whether a schema is another one, or found from there through references and the members of
`allOf`. -/
inductive FoundIn (document part : Node) : Node → Prop where
  | here : FoundIn document part part
  | target {schema ref target : Node} (href : schema.get? "$ref" = some ref)
      (found : Reference.resolve document ref = .ok target)
      (rest : FoundIn document part target) : FoundIn document part schema
  | member {schema member : Node} {members : List Node}
      (shaped : shape schema = .ok (.composition .allOf members)) (mem : member ∈ members)
      (rest : FoundIn document part member) : FoundIn document part schema

/-- A description with a record, a composition of it, and two compositions that require a property
of the record: one of the record itself, one of the composition. -/
def animalScope : Scope where
  document := .map [(.str "openapi", .str "3.0.0"), (.str "paths", .map []),
    (.str "components", .map [(.str "schemas", .map
      [(.str "Animal", animal), (.str "Pet", .map [(.str "allOf", .list [reference "Animal"])]),
        (.str "Cat", requiring "Animal"), (.str "Dog", requiring "Pet")])])]
  dialect := .v3
where
  animal : Node := .map
    [(.str "type", .str "object"),
      (.str "properties", .map [(.str "tag", .map [(.str "type", .str "string")])])]
  reference (name : String) : Node := .map [(.str "$ref", .str ("#/components/schemas/" ++ name))]
  requiring (name : String) : Node := .map
    [(.str "allOf", .list [reference name]), (.str "required", .list [.str "tag"])]

namespace animalScope

theorem target_reference {name : String} {schema : Node}
    (hsegments : Reference.segments? ("#/components/schemas/" ++ name) =
      some (Dialect.v3.schemasPath ++ [name]))
    (h : Entries.get? name (Dialect.v3.schemas animalScope.document) = some schema) :
    Reference.target animalScope.document (reference name) = .ok schema :=
  Reference.resolve_of_segments hsegments h

theorem target_animal : Reference.target animalScope.document (reference "Animal") = .ok animal :=
  target_reference (by decide +kernel) rfl

theorem target_pet : Reference.target animalScope.document (reference "Pet") =
    .ok (.map [(.str "allOf", .list [reference "Animal"])]) :=
  target_reference (by decide +kernel) rfl

theorem declares_animal : Declares animal "tag" := ⟨_, List.mem_cons_self, rfl⟩

theorem builds : (build animalScope animal "Animal" true).isOk = true ∧
    (build animalScope (requiring "Animal") "Cat" true).isOk = true ∧
      (build animalScope (requiring "Pet") "Dog" true).isOk = true := by
  rw [build_eq fun _ => .error (.malformed .endless)]
  decide +kernel

end animalScope

open animalScope in
theorem requires_cat_or_requires_animal : ∃ cat animal,
    build animalScope (requiring "Animal") "Cat" true = .ok cat ∧
      build animalScope animalScope.animal "Animal" true = .ok animal ∧
        (Requires cat "tag" ∨ Requires animal "tag") := by
  obtain ⟨animal, hanimal⟩ := Except.exists_of_isOk builds.1
  obtain ⟨cat, hcat⟩ := Except.exists_of_isOk builds.2.1
  have hkept := requires_or_requires_iff hcat rfl (List.mem_singleton_self _) hanimal
    declares_animal
  exact ⟨cat, animal, hcat, hanimal,
    hkept.1 (.inr ⟨⟨_, List.mem_singleton_self _, target_animal⟩, rfl⟩)⟩

open animalScope in
/-- The property that is two compositions away is not found. -/
theorem not_requires_of_foundIn : ¬ ∀ (scope : Scope) (schema part : Node) (members : List Node)
    (ownName name : String) (model : Model),
      shape schema = .ok (.composition .allOf members) →
        build scope schema ownName true = .ok model → .str name ∈ requiredNames schema →
          FoundIn scope.document part schema → Declares part name →
            Requires model name ∨ ∃ partName owner,
              build scope part partName true = .ok owner ∧ Requires owner name := by
  intro h
  obtain ⟨dog, hdog⟩ := Except.exists_of_isOk builds.2.2
  have hshape : shape (requiring "Pet") = .ok (.composition .allOf [reference "Pet"]) := rfl
  have hfound : FoundIn animalScope.document animal (requiring "Pet") := by
    refine .member hshape (List.mem_singleton_self _) (.target rfl target_pet ?_)
    exact .member rfl (List.mem_singleton_self _) (.target rfl target_animal .here)
  have hbuilt : Job.built animalScope ⟨[], requiring "Pet", "Dog", true⟩ = .ok dog := hdog
  rcases h animalScope _ animal _ "Dog" "tag" dog hshape hdog (List.mem_singleton_self _) hfound
    declares_animal with hrequires | ⟨partName, owner, howner, hrequires⟩
  · rcases ((requires_iff_of_composition hbuilt hshape).mp hrequires).2 with
      ⟨entry, hentry, _⟩ | ⟨member, hmember, offer, hoffer, hfree⟩
    · cases hentry
    · obtain ⟨target, htarget, hrecord, _⟩ := contributes_of_free rfl hoffer (by decide) hfree
      cases List.mem_singleton.mp hmember
      cases target_pet.symm.trans htarget
      cases hrecord
  · have hpart : Job.built animalScope ⟨[], animal, partName, true⟩ = .ok owner := howner
    have hagain := ((requires_iff_of_declares hpart declares_animal).mp hrequires).2
    cases hagain

end Schema
end OpenApi
