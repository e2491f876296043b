import OpenApi.Proofs.ModelInvariants

/-
The imports of a model cover everything below it.

A model that stands in another one needs the imports of all its parts, since code is generated for
the outermost models only.  Each rule of building lifts imports in its own way; what they have in
common is the invariant `Closed` (`isInvariant_closed`).

The record that a composition wraps its own properties in has no imports of its own, they are lifted
to the composition.  So it is closed by no rule, and must not be taken for a property of its name.
-/
namespace OpenApi

namespace Model

/-- Whether a model is the whole or stands in it at any depth, through properties and links. -/
inductive StandsIn (part : Model) : Model → Prop where
  | whole : StandsIn part part
  | property {m p : Model} (mem : p ∈ m.properties) (below : StandsIn part p) : StandsIn part m
  | link {m l : Model} (linked : m.link = some l) (below : StandsIn part l) : StandsIn part m

/-- Whether a list of imports has those of a model and of all models in it. -/
def CoveredBy (imports : List String) (m : Model) : Prop :=
  ∀ part : Model, part.StandsIn m → ∀ i ∈ part.imports, i ∈ imports

/-- Whether a model imports whatever the models in it import. -/
def Closed (m : Model) : Prop := m.CoveredBy m.imports

theorem CoveredBy.mono {imports more : List String} {m : Model} (h : m.CoveredBy imports)
    (hsub : ∀ i ∈ imports, i ∈ more) : m.CoveredBy more :=
  fun part hpart i hi => hsub i (h part hpart i hi)

/-- A model is covered as soon as its own imports and its parts are. -/
theorem coveredBy_of_parts {imports : List String} {m : Model} (own : ∀ i ∈ m.imports, i ∈ imports)
    (properties : ∀ p ∈ m.properties, p.CoveredBy imports)
    (link : ∀ l, m.link = some l → l.CoveredBy imports) : m.CoveredBy imports := by
  intro part hpart
  cases hpart with
  | whole => exact own
  | property mem below => exact properties _ mem part below
  | link linked below => exact link _ linked part below

theorem closed_of_parts {m : Model} (properties : ∀ p ∈ m.properties, p.CoveredBy m.imports)
    (link : ∀ l, m.link = some l → l.CoveredBy m.imports) : m.Closed :=
  coveredBy_of_parts (fun _ hi => hi) properties link

theorem closed_of_leaf {m : Model} (hp : m.properties = []) (hl : m.link = none) : m.Closed := by
  refine closed_of_parts (fun p hmem => ?_) fun l hlink => ?_
  · rw [hp] at hmem
    cases hmem
  · rw [hl] at hlink
    cases hlink

/-- Only imports, properties and link matter. -/
theorem Closed.congr {m m' : Model} (h : m.Closed) (hi : m'.imports = m.imports)
    (hp : m'.properties = m.properties) (hl : m'.link = m.link) : m'.Closed := by
  refine closed_of_parts (fun p hmem => ?_) fun l hlink => ?_
  · rw [hp] at hmem
    rw [hi]
    exact fun part hpart => h part (.property hmem hpart)
  · rw [hl] at hlink
    rw [hi]
    exact fun part hpart => h part (.link hlink hpart)

end Model

namespace Schema

theorem mem_allImports {models : List Model} {m : Model} (h : m ∈ models) :
    ∀ i ∈ m.imports, i ∈ allImports models :=
  fun _ hi => List.mem_flatMap.mpr ⟨m, h, hi⟩

/-! ### The rules of building -/

section
variable {model : Model} {children own : List Model}

/-- A model with closed properties whose imports it lifts. -/
theorem closed_withProperties (h : ∀ p ∈ own, p.Closed) (hl : model.link = none) :
    (withProperties model own).Closed := by
  refine Model.closed_of_parts (fun p hp => ?_) fun l hlink => ?_
  · exact (h p hp).mono (mem_allImports hp)
  · exact absurd (hl.symm.trans hlink) (by simp)

theorem closed_withMembers {kind : ModelKind} (hchildren : ∀ m ∈ children, m.Closed)
    (h : ∀ p ∈ own, p.Closed) (hl : model.link = none) :
    (withMembers model kind children own).Closed := by
  have hcovered : ∀ p ∈ own, p.CoveredBy (withMembers model kind children own).imports :=
    fun p hp => (h p hp).mono fun i hi => List.mem_append.mpr (.inr (mem_allImports hp i hi))
  refine Model.closed_of_parts (fun p hp => ?_) fun l hlink => ?_
  · rcases List.mem_append.mp hp with hp | hp
    · have hkept := List.mem_of_mem_filter hp
      exact (hchildren p hkept).mono fun i hi =>
        List.mem_append.mpr (.inl (mem_allImports hp i hi))
    · -- The record has no imports, but its properties are covered by the composition.
      unfold ownRecord at hp
      split at hp
      · cases hp
      · rw [List.mem_singleton.mp hp]
        exact Model.coveredBy_of_parts (fun _ hi => nomatch hi) hcovered
          fun _ hlink => nomatch hlink
  · exact absurd (hl.symm.trans hlink) (by simp)

theorem closed_withElement {kind : ModelKind} {item : Model} {link : Option Model}
    (h : link = none ∨ link = some item ∧ item.Closed) (hp : model.properties = []) :
    (withElement model kind item link).Closed := by
  rcases h with rfl | ⟨rfl, hitem⟩
  · exact Model.closed_of_leaf hp rfl
  · refine Model.closed_of_parts (fun p hmem => ?_) fun l hlink => ?_
    · exact absurd (hp ▸ hmem) List.not_mem_nil
    · cases hlink
      exact hitem

end

theorem isInvariant_closed : IsInvariant Model.Closed where
  congr h _ imports properties _ link := h.congr imports properties link
  leaf properties _ link := Model.closed_of_leaf properties link
  element _ := fun h => closed_withElement h rfl
  record _ := fun h => closed_withProperties h rfl
  composition _ := fun _ hchildren h => closed_withMembers hchildren h rfl

end Schema
end OpenApi
