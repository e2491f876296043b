import OpenApi.Proofs.Building
import OpenApi.Proofs.Shapes
import OpenApi.Proofs.Termination

/-
The defaults of models.

The default of a schema becomes a literal in its model.  The literal follows the kind of the value
and not the declared type, and in an enumeration an integer counts the members, so it is written
when the model is there (`withDefault`).  Every rule that tells what a value is does so.  The rule
for compositions does not, and neither is anything written for a schema that has no shape: there the
default is lost (`DropsDefault`, `default_of_build`).
-/
namespace OpenApi.Schema

/-- Whether the model of a shape takes the default of its schema. -/
def Shape.takesDefault : Shape → Bool
  | .composition .. | .unknown => false
  | .reference _ | .enumeration .. | .array _ | .dictionary _ | .record | .generic _ => true

/-- A schema that is read as a composition, or as nothing at all. -/
structure DropsDefault (schema : Node) : Prop where
  unreferenced : schema.get? "$ref" = none
  unlisted : listedMembers schema = .ok []
  undescribed : describedMembers schema = .ok []
  without_items : arrayItems? schema = none
  without_values : dictionaryValues? schema = none
  composed_or_untold : (composition? schema).isSome ∨
    isRecord schema = false ∧ schema.get? "type" = none

section
variable {schema : Node}

theorem takesDefault_structure?_iff : ((structure? schema).getD .unknown).takesDefault = false ↔
    arrayItems? schema = none ∧ dictionaryValues? schema = none ∧
      ((composition? schema).isSome ∨ isRecord schema = false ∧ schema.get? "type" = none) := by
  unfold structure?
  cases arrayItems? schema with
  | some items => exact ⟨nofun, nofun⟩
  | none =>
    cases dictionaryValues? schema with
    | some values => exact ⟨nofun, nofun⟩
    | none =>
      cases composition? schema with
      | some composed => exact ⟨fun _ => ⟨rfl, rfl, .inl rfl⟩, fun _ => rfl⟩
      | none =>
        cases isRecord schema with
        | true => exact ⟨nofun, nofun⟩
        | false =>
          cases schema.get? "type" with
          | some type => exact ⟨nofun, nofun⟩
          | none => exact ⟨fun _ => ⟨rfl, rfl, .inr ⟨rfl, rfl⟩⟩, fun _ => rfl⟩

theorem dropsDefault_iff_of_shape {found : Shape} (h : shape schema = .ok found) :
    DropsDefault schema ↔ found.takesDefault = false := by
  cases told_of_shape h with
  | referenced href hfound =>
    subst hfound
    exact ⟨(nomatch href.symm.trans ·.unreferenced), nofun⟩
  | listed _ hlisted hfound =>
    subst hfound
    exact ⟨(nomatch hlisted.symm.trans ·.unlisted), nofun⟩
  | described _ _ hdescribed hfound =>
    subst hfound
    exact ⟨(nomatch hdescribed.symm.trans ·.undescribed), nofun⟩
  | structured href hlisted hdescribed hfound =>
    rw [hfound, takesDefault_structure?_iff]
    constructor
    · intro drops
      exact ⟨drops.without_items, drops.without_values, drops.composed_or_untold⟩
    · rintro ⟨hitems, hvalues, htold⟩
      exact ⟨href, hlisted, hdescribed, hitems, hvalues, htold⟩

/-- Only the members of an enumeration matter for the literal of a default. -/
theorem defaultLiteral_of_kind_ne {model : Model} (h : model.kind ≠ .enumeration) :
    defaultLiteral schema (some model) = defaultLiteral schema none := by
  unfold defaultLiteral
  dsimp only
  rw [if_neg h]

theorem defaultLiteral_of_withDefault {before model : Model}
    (h : withDefault schema before = .ok model) :
    defaultLiteral schema (some model) = .ok model.default := by
  obtain ⟨literal, hliteral, rfl⟩ := Except.map_eq_ok_iff.mp h
  exact hliteral

end

/-! ### The default of a model that is built -/

section
variable {scope : Scope} {job : Job} {model : Model}

/-- What becomes of the default of a schema: its model has the literal of it, or none where the
shape takes none. -/
inductive DefaultRule (job : Job) (model : Model) : Prop where
  | taken {found : Shape} (shaped : shape job.schema = .ok found)
      (takes : found.takesDefault = true)
      (literal : defaultLiteral job.schema (some model) = .ok model.default)
  | dropped {found : Shape} (shaped : shape job.schema = .ok found)
      (takes : found.takesDefault = false) (empty : model.default = none)

theorem defaultRule_of_built (h : Job.built scope job = .ok model) : DefaultRule job model := by
  rw [Job.built_eq] at h
  cases Job.rule_of_run h with
  | reference shaped _ _ done => exact .taken shaped rfl (defaultLiteral_of_withDefault done)
  | enumeration shaped done => exact .taken shaped rfl (defaultLiteral_of_withDefault done)
  | container shaped _ done =>
    have hliteral := defaultLiteral_of_withDefault done
    rcases shaped with ⟨shaped, _⟩ | ⟨shaped, _⟩
    · exact .taken shaped rfl hliteral
    · exact .taken shaped rfl hliteral
  | composition shaped => exact .dropped shaped rfl rfl
  | record shaped _ done => exact .taken shaped rfl (defaultLiteral_of_withDefault done)
  | generic shaped _ done => exact .taken shaped rfl (defaultLiteral_of_withDefault done)
  | unknown shaped => exact .dropped shaped rfl rfl

/-- A model has the default of its schema, unless the schema is a composition or says nothing of its
shape; then it has none. -/
theorem default_of_build {schema : Node} {name : String} {isDefinition : Bool}
    (h : build scope schema name isDefinition = .ok model) :
    (DropsDefault schema → model.default = none) ∧
      (defaultLiteral schema (some model) = .ok model.default ↔
        ¬ DropsDefault schema ∨ defaultLiteral schema none = .ok none) := by
  have hbuilt : Job.built scope ⟨[], schema, name, isDefinition⟩ = .ok model := h
  cases defaultRule_of_built hbuilt with
  | taken shaped takes literal =>
    have hkeeps : ¬ DropsDefault schema := by
      rw [dropsDefault_iff_of_shape shaped, takes]
      exact nofun
    exact ⟨fun drops => absurd drops hkeeps, fun _ => .inl hkeeps, fun _ => literal⟩
  | dropped shaped takes empty =>
    have hdrops : DropsDefault schema := (dropsDefault_iff_of_shape shaped).mpr takes
    have hkind : model.kind ≠ .enumeration := by
      obtain ⟨found, hfound, hkind⟩ := Job.shape_of_built hbuilt
      cases shaped.symm.trans hfound
      rw [hkind, Ne, kind_eq_enumeration_iff hfound]
      rintro ⟨_, hlisted | hdescribed⟩
      · exact hlisted hdrops.unlisted
      · exact hdescribed hdrops.undescribed
    refine ⟨fun _ => empty, ?_⟩
    rw [defaultLiteral_of_kind_ne hkind, empty]
    constructor
    · exact .inr
    · rintro (hkeeps | hnone)
      · exact absurd hdrops hkeeps
      · exact hnone

end

/-! ### A default beside a choice -/

namespace choiceScope

/-- A text with a default, by itself and as the only choice. -/
def text : Node := .map [(.str "type", .str "string"), (.str "default", .str "x")]

def choice : Node :=
  .map [(.str "oneOf", .list [.map [(.str "type", .str "string")]]), (.str "default", .str "x")]

def defaultOf (schema : Node) : Option (Option String) :=
  (build ⟨.map [], .v3⟩ schema "" false).toOption.map (·.default)

theorem defaultOf_eq : defaultOf text = some (some "'x'") ∧ defaultOf choice = some none := by
  delta defaultOf
  rw [build_eq fun _ => .error (.malformed .endless)]
  decide +kernel

end choiceScope

open choiceScope in
theorem default_of_build_text : ∃ model, build ⟨.map [], .v3⟩ text "" false = .ok model ∧
    defaultLiteral text (some model) = .ok model.default := by
  obtain ⟨model, hmodel, _⟩ := Except.exists_of_toOption_map defaultOf_eq.1
  have hshape : shape text = .ok (.generic (.str "string")) := rfl
  have hkeeps : ¬ DropsDefault text := by
    rw [dropsDefault_iff_of_shape hshape]
    decide
  exact ⟨model, hmodel, (default_of_build hmodel).2.mpr (.inl hkeeps)⟩

open choiceScope in
theorem not_default_of_build : ¬ ∀ (scope : Scope) (schema : Node) (name : String)
    (isDefinition : Bool) (model : Model), build scope schema name isDefinition = .ok model →
      defaultLiteral schema (some model) = .ok model.default := by
  intro h
  obtain ⟨model, hmodel, hnone⟩ := Except.exists_of_toOption_map defaultOf_eq.2
  have hliteral := h _ _ _ _ model hmodel
  have hwritten : defaultLiteral choice (some model) = .ok (some "'x'") := rfl
  rw [hnone, hwritten] at hliteral
  cases hliteral

end OpenApi.Schema
