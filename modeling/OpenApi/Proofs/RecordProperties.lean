import OpenApi.Proofs.DistinctProperties
import OpenApi.Proofs.FixedProperties

/-
The properties of a record, one for each entry of its schema.

The key of an entry gives the name of the property and tells whether it is required.  All else is
the model of the schema below the key, where a value that is no map counts as the empty schema.  The
one property that a discriminator is about has a fixed value instead (`IsPropertyFor`).

Keys that differ give names that differ, so the correspondence is one to one
(`isPropertyFor_of_record`).
-/
namespace OpenApi
namespace Schema

/-- What a value is read as where a schema is expected. -/
def asSchema (value : Node) : Node := if value.isMap then value else .map []

/-- Whether the discriminator that tells a named schema from others is about the property of that
name. -/
def Pinned (scope : Scope) (parent name : String) : Prop :=
  parent ≠ "" ∧ ∃ d, scope.discriminator? parent = some d ∧ d.get "propertyName" = .str name

/-- A model is the property for an entry of the schema of a job. -/
structure IsPropertyFor (scope : Scope) (job : Job) (key : String) (value : Node) (p : Model) :
    Prop where
  name_eq : p.name = Name.quoteUnlessBare key
  isRequired_iff : p.isRequired = true ↔ .str key ∈ requiredNames job.schema
  built : ¬ Pinned scope job.name key → ∃ model,
    Job.built scope (job.inner (asSchema value)) = .ok model ∧
      p = { model with name := p.name, isRequired := p.isRequired }
  fixed : Pinned scope job.name key → ∃ text, IsFixed p key text

section
variable {scope : Scope} {job : Job} {model p : Model} {entry : Scalar × Node}

/-- A value that is no map says nothing, just as the empty schema. -/
theorem built_asSchema (scope : Scope) (job : Job) (value : Node) :
    Job.built scope (job.inner (asSchema value)) = Job.built scope (job.inner value) := by
  unfold asSchema
  split
  · rfl
  · rename_i hmap
    rw [Job.built_eq, Job.built_eq]
    cases value with
    | map | endless => exact absurd rfl hmap
    | scalar | list | set | pair => rfl

/-- A property is fixed if the discriminator of its parent is about it, and built from its schema if
not. -/
theorem fixed_or_built_of_property
    (h : Job.property scope (Job.built scope) job
      (propertyContext scope job.schema job.name) entry = .ok p) :
    ∃ key, entry.1.text? = some key ∧
      ((Pinned scope job.name key ∧ ∃ text, IsFixed p key text) ∨
        ¬ Pinned scope job.name key ∧ ∃ model, Job.built scope (job.inner entry.2) = .ok model ∧
          p = asProperty key (Node.listHas key (requiredNames job.schema)) model) := by
  by_cases hnamed : job.name = ""
  · obtain ⟨key, model, htext, hmodel, rfl⟩ := property_of_unnamed hnamed h
    exact ⟨key, htext, .inr ⟨fun pinned => pinned.1 hnamed, model, hmodel, rfl⟩⟩
  · obtain ⟨key, htext, ⟨d, text, hd, habout, _, hfixed⟩ | ⟨hfree, hmodel⟩⟩ :=
      property_cases hnamed h
    · exact ⟨key, htext, .inl ⟨⟨hnamed, d, hd, habout⟩, text, hfixed⟩⟩
    · exact ⟨key, htext, .inr ⟨fun pinned => hfree pinned.2, hmodel⟩⟩

theorem isPropertyFor_of_property {key : String} (hkey : entry.1 = .str key)
    (h : Job.property scope (Job.built scope) job
      (propertyContext scope job.schema job.name) entry = .ok p) :
    IsPropertyFor scope job key entry.2 p := by
  obtain ⟨s, htext, hname, hrequired⟩ := name_of_property h
  obtain ⟨s', htext', hcases⟩ := fixed_or_built_of_property h
  rw [hkey] at htext htext'
  cases htext
  cases htext'
  constructor
  · exact hname
  · rw [hrequired, listHas_iff]
  · intro hfree
    obtain ⟨pinned, _⟩ | ⟨_, model, hmodel, hp⟩ := hcases
    · exact absurd pinned hfree
    · refine ⟨model, (built_asSchema scope job entry.2).trans hmodel, ?_⟩
      rw [hp]
      rfl
  · intro pinned
    obtain ⟨_, hfixed⟩ | ⟨hfree, _⟩ := hcases
    · exact hfixed
    · exact absurd pinned hfree

/-- A schema with the model of a record is told as one. -/
theorem shape_of_kind_record (h : Job.built scope job = .ok model) (record : model.kind = .record) :
    shape job.schema = .ok .record := by
  obtain ⟨found, hfound, hkind⟩ := Job.shape_of_built h
  have hrecord : found.kind = .record := hkind.symm.trans record
  cases shapeOf_shape hfound with
  | record => exact hfound
  | composition composed => exact absurd hrecord (kind_ne_of_composition? composed (by decide))
  | reference | enumeration | array | dictionary | generic | unknown => cases hrecord

/-- A record has one property for each entry of its schema, in the order of the entries, and no two
of the same name. -/
theorem isPropertyFor_of_record (h : Job.built scope job = .ok model)
    (record : model.kind = .record) (apart : NamesApart job.schema) :
    List.Forall₂ (fun entry p => ∃ key, entry.1 = .str key ∧ IsPropertyFor scope job key entry.2 p)
        ((job.schema.get "properties").entries?.getD []) model.properties ∧
      (model.properties.map (·.name)).Nodup := by
  obtain ⟨keys, distinct, hkeys⟩ := apart
  have shaped := shape_of_kind_record h record
  cases ownRule_of_built h with
  | composition shaped' _ _ _ _ => cases shaped.symm.trans shaped'
  | without shaped' _ => exact absurd (.inl shaped) shaped'
  | record _ declared _ properties_eq =>
    rw [properties_eq]
    constructor
    · have htexts : ∀ entry ∈ (job.schema.get "properties").entries?.getD [],
          ∃ key, entry.1 = .str key := by
        intro entry hentry
        obtain ⟨key, _, hkey⟩ := List.mem_map.mp (hkeys ▸ List.mem_map_of_mem hentry)
        exact ⟨key, hkey.symm⟩
      rw [declared_eq] at declared
      refine ((List.forall₂_and_left _ _).mpr ⟨htexts, Except.mapM_eq_ok_iff.mp declared⟩).imp ?_
      rintro entry p ⟨⟨key, hkey⟩, hp⟩
      exact ⟨key, hkey, isPropertyFor_of_property hkey hp⟩
    · rw [names_declared declared hkeys]
      exact distinct.map fun _ _ => Name.quoteUnlessBare_injective

end

/-- A record of a shape in a union, which is told from other shapes by its property `kind`. -/
def unionScope : Scope where
  document := .map [(.str "openapi", .str "3.0.0"), (.str "paths", .map []),
    (.str "components", .map
      [(.str "schemas", .map [(.str "Shape", union), (.str "Square", square)])])]
  dialect := .v3
where
  union : Node := .map
    [(.str "oneOf", .list [.map [(.str "$ref", .str "#/components/schemas/Square")]]),
      (.str "discriminator", .map [(.str "propertyName", .str "kind")])]
  square : Node := .map
    [(.str "type", .str "object"), (.str "required", .list [.str "kind", .str "x-side"]),
      (.str "properties", .map
        [(.str "kind", .map [(.str "type", .str "string")]),
          (.str "x-side", .map [(.str "type", .str "number")]), (.str "colour", .null)])]

open unionScope in
theorem isPropertyFor_square : ∃ model, build unionScope square "Square" true = .ok model ∧
    model.kind = .record ∧ NamesApart square ∧
      List.Forall₂ (fun entry p => ∃ key, entry.1 = .str key ∧
          IsPropertyFor unionScope ⟨[], square, "Square", true⟩ key entry.2 p)
        ((square.get "properties").entries?.getD []) model.properties ∧
      (model.properties.map (·.name)).Nodup := by
  have hkind : (build unionScope square "Square" true).toOption.map (·.kind) = some .record := by
    rw [build_eq fun _ => .error (.malformed .endless)]
    decide +kernel
  obtain ⟨model, hmodel, record⟩ := Except.exists_of_toOption_map hkind
  have hbuilt : Job.built unionScope ⟨[], square, "Square", true⟩ = .ok model := hmodel
  have apart : NamesApart square := ⟨["kind", "x-side", "colour"], by decide, rfl⟩
  exact ⟨model, hmodel, record, apart, isPropertyFor_of_record hbuilt record apart⟩

end Schema
end OpenApi
