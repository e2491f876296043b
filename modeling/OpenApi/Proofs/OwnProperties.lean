import OpenApi.Proofs.Building
import OpenApi.Proofs.Shapes

/-
The properties that a model has of its own.

A record has the properties that its schema declares.  A composition may declare properties beside
its members; these stand in a record of that name at the end of its model, behind those that are
promoted from members.  A schema of any other shape may carry the keyword too, but nothing is built
from it (`ownRule_of_built`).
-/
namespace OpenApi

theorem Scalar.written_eq_ok_iff {key : Scalar} {name : String} :
    key.written = .ok name ↔ key.text? = some name := by
  unfold written
  cases key.text? with
  | none =>
    constructor
    · intro h
      cases h
    · intro h
      cases h
  | some text =>
    constructor
    · intro h
      exact congrArg some (Except.ok.inj h)
    · intro h
      exact congrArg Except.ok (Option.some.inj h)

theorem Node.isText_iff {node : Node} {text : String} :
    node.isText text = true ↔ node = .str text := by
  unfold isText
  split
  · rename_i other
    rw [beq_iff_eq]
    constructor
    · rintro rfl
      rfl
    · intro h
      cases h
      rfl
  · rename_i hother
    exact ⟨nofun, fun h => absurd h (hother text)⟩

namespace Name

theorem toList_quoted (s : String) : ("'" ++ s ++ "'").toList = '\'' :: (s.toList ++ ['\'']) := by
  rw [String.toList_append, String.toList_append]
  rfl

theorem quoteUnlessBare_injective {s t : String} (h : quoteUnlessBare s = quoteUnlessBare t) :
    s = t := by
  -- No bare name begins with a quote.
  have hmixed {a b : String} (ha : isBare a.toList = true) (hab : a = "'" ++ b ++ "'") : False := by
    rw [hab, toList_quoted] at ha
    cases hb : b.toList ++ ['\''] with
    | nil => exact absurd hb (List.append_ne_nil_of_right_ne_nil _ (List.cons_ne_nil _ _))
    | cons d rest =>
      rw [hb, isBare, Bool.and_eq_true, Bool.and_eq_true] at ha
      exact absurd ha.1.1 (by decide)
  unfold quoteUnlessBare at h
  by_cases hs : isBare s.toList = true
  · by_cases ht : isBare t.toList = true
    · rw [if_pos hs, if_pos ht] at h
      exact h
    · rw [if_pos hs, if_neg ht] at h
      exact (hmixed hs h).elim
  · by_cases ht : isBare t.toList = true
    · rw [if_neg hs, if_pos ht] at h
      exact (hmixed ht h.symm).elim
    · rw [if_neg hs, if_neg ht] at h
      exact (String.append_right_inj "'").mp ((String.append_left_inj "'").mp h)

theorem quoteUnlessBare_ne_empty (s : String) : quoteUnlessBare s ≠ "" := by
  unfold quoteUnlessBare
  intro h
  by_cases hs : isBare s.toList = true
  · rw [if_pos hs] at h
    rw [h] at hs
    cases hs
  · rw [if_neg hs] at h
    have hlist := congrArg String.toList h
    rw [toList_quoted] at hlist
    cases hlist

end Name

namespace Schema

/-! ### Schemas and models -/

/-- Whether a schema declares a property of that name. -/
def Declares (schema : Node) (name : String) : Prop :=
  ∃ entry ∈ (schema.get "properties").entries?.getD [], entry.1.text? = some name

/-- Whether a schema is read with its properties. -/
def HasOwn (schema : Node) : Prop :=
  shape schema = .ok .record ∨ ∃ kind members, shape schema = .ok (.composition kind members)

/-- The properties that a model has of its own; those of a composition stand in its record. -/
def ownProperties (model : Model) : List Model :=
  match model.kind with
  | .record => model.properties
  | _ => ((model.properties.find? (·.name == "properties")).map (·.properties)).getD []

section
variable {scope : Scope} {job : Job} {model : Model} {own : List Model}

theorem declared_eq (build : Job → Except Failure Model) :
    Job.declared scope build job = ((job.schema.get "properties").entries?.getD []).mapM
      (Job.property scope build job (propertyContext scope job.schema job.name)) := by
  unfold Job.declared
  rw [Node.get]
  cases job.schema.get? "properties" with
  | none => rfl
  | some properties => cases properties <;> rfl

theorem declaredJobs_eq (job : Job) : job.declaredJobs =
    ((job.schema.get "properties").entries?.getD []).map fun entry => job.inner entry.2 := by
  unfold Job.declaredJobs
  rw [Node.get]
  cases job.schema.get? "properties" with
  | none => rfl
  | some properties => cases properties <;> rfl

theorem ownProperties_withMembers {kind : ModelKind} {children : List Model}
    (hkind : kind ≠ .record) (hnames : ∀ child ∈ children, child.name = "") :
    ownProperties (withMembers model kind children own) = own := by
  have hnone : (children.filter (!saysNothing ·)).find? (·.name == "properties") = none := by
    rw [List.find?_eq_none]
    intro child hchild
    rw [hnames child (List.mem_of_mem_filter hchild)]
    decide
  have hown : ownProperties (withMembers model kind children own) =
      (((withMembers model kind children own).properties.find? (·.name == "properties")).map
        (·.properties)).getD [] := by
    unfold ownProperties
    split
    · rename_i hrecord
      exact absurd hrecord hkind
    · rfl
  rw [hown]
  show (((children.filter (!saysNothing ·) ++ ownRecord own).find? _).map _).getD [] = own
  rw [List.find?_append, hnone, Option.none_or, ownRecord]
  cases own with
  | nil => rfl
  | cons first rest => rfl

/-- What becomes of the properties that a schema declares: those of a record stand in its model,
those of a composition in its record after the promoted ones, and others nowhere. -/
inductive OwnRule (scope : Scope) (job : Job) : Model → Prop where
  | record {own : List Model} {model : Model} (shaped : shape job.schema = .ok .record)
      (declared : Job.declared scope (Job.built scope) job = .ok own)
      (kind_eq : model.kind = .record) (properties_eq : model.properties = own) :
      OwnRule scope job model
  | composition {kind : ModelKind} {members : List Node} {children found own : List Model}
      (shaped : shape job.schema = .ok (.composition kind members))
      (offered : Job.promotable scope (Job.built scope) job members = .ok found)
      (declared : Job.declared scope (Job.built scope) job = .ok own)
      (kind_ne : kind ≠ .record) (unnamed : ∀ child ∈ children, child.name = "") :
      OwnRule scope job
        (withMembers job.plain kind children (promote (requiredNames job.schema) found ++ own))
  | without {model : Model} (shaped : ¬ HasOwn job.schema) (empty : model.properties = []) :
      OwnRule scope job model

theorem not_hasOwn_of_shape {schema : Node} {found : Shape} (h : shape schema = .ok found)
    (hrecord : found ≠ .record) (hcomposition : ∀ kind members, found ≠ .composition kind members) :
    ¬ HasOwn schema := by
  rintro (hs | ⟨kind, members, hs⟩)
  · exact hrecord (Except.ok.inj (h.symm.trans hs))
  · exact hcomposition kind members (Except.ok.inj (h.symm.trans hs))

theorem ownRule_of_built (h : Job.built scope job = .ok model) : OwnRule scope job model := by
  rw [Job.built_eq] at h
  cases Job.rule_of_run h with
  | record shaped declared done =>
    obtain ⟨literal, rfl⟩ := Job.withDefault_eq_ok done
    exact .record shaped declared rfl rfl
  | @composition kind members children found own shaped built offered declared =>
    have hunnamed : ∀ child ∈ children, child.name = "" := by
      intro child hchild
      obtain ⟨member, _, hbuilt⟩ := Except.exists_mem_of_mapM built hchild
      exact Job.name_of_built hbuilt
    cases shapeOf_shape shaped with
    | composition hfound =>
      exact .composition shaped offered declared (kind_ne_of_composition? hfound (by decide)) hunnamed
  | reference shaped _ _ done =>
    obtain ⟨literal, rfl⟩ := Job.withDefault_eq_ok done
    exact .without (not_hasOwn_of_shape shaped nofun nofun) rfl
  | enumeration shaped done =>
    obtain ⟨literal, rfl⟩ := Job.withDefault_eq_ok done
    exact .without (not_hasOwn_of_shape shaped nofun nofun) rfl
  | container shaped _ done =>
    obtain ⟨literal, rfl⟩ := Job.withDefault_eq_ok done
    rcases shaped with ⟨shaped, _⟩ | ⟨shaped, _⟩
    · exact .without (not_hasOwn_of_shape shaped nofun nofun) rfl
    · exact .without (not_hasOwn_of_shape shaped nofun nofun) rfl
  | generic shaped _ done =>
    obtain ⟨literal, rfl⟩ := Job.withDefault_eq_ok done
    exact .without (not_hasOwn_of_shape shaped nofun nofun) rfl
  | unknown shaped => exact .without (not_hasOwn_of_shape shaped nofun nofun) rfl

end

end Schema
end OpenApi
