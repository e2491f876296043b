import Mathlib.Data.List.Forall2
import OpenApi.Proofs.ClientNumbers
import OpenApi.Proofs.KeptResults
import OpenApi.Proofs.TypeExpressions

/-
The tidy form of a model.

`TidyForm` says what a tidy form is, for a model and for all models in it: clean imports, one
enumerator and one enumeration of each name, and nothing else changed.  It does not say how the form
is found.  Tidying finds it, and in a tidy form there is nothing left to tidy (`TidyForm.tidy_eq`),
so models that have been tidied apart can be compared.
-/
namespace OpenApi

/-- Whether a list has the first item of each name in another list, in the order of that list. -/
structure FirstOfEach {α : Type} (name : α → String) (items kept : List α) : Prop where
  nodup : (kept.map name).Nodup
  inOrder : kept.Sublist items
  first : ∀ x ∈ kept, items.find? (fun y => name y == name x) = some x
  complete : ∀ x ∈ items, name x ∈ kept.map name

namespace Model

/-- Whether a model is the tidy form of another one, at every depth. -/
inductive TidyForm : Model → Model → Prop where
  | intro {m t : Model} {kept : List Model} (ordered : IsTidy t.imports)
      (mem_imports : ∀ i, i ∈ t.imports ↔ i ∈ m.imports ∧ i ≠ m.name)
      (enumerators : FirstOfEach Enumerator.name m.enumerators t.enumerators)
      (firstEnums : FirstOfEach Model.name m.enums kept)
      (enums : List.Forall₂ TidyForm kept t.enums)
      (properties : List.Forall₂ TidyForm m.properties t.properties)
      (link : Option.Rel TidyForm m.link t.link)
      (others : t = { m with
        imports := t.imports
        enumerators := t.enumerators
        enums := t.enums
        properties := t.properties
        link := t.link }) : TidyForm m t

end Model

/-! ### Items of one name -/

section
variable {α β : Type} {name : α → String}

theorem firstOfEach_uniqueByName (name : α → String) (items : List α) :
    FirstOfEach name items (uniqueByName name items) where
  nodup := nodup_map_uniqueByName name items
  inOrder := firstOnes_sublist items
  first := by
    induction items using List.reverseRecOn with
    | nil => exact fun _ hx => absurd hx List.not_mem_nil
    | append_singleton items x ih =>
      have hbefore : ∀ y ∈ uniqueByName name items,
          (items ++ [x]).find? (fun z => name z == name y) = some y := fun y hy => by
        rw [List.find?_append, ih y hy, Option.some_or]
      by_cases hmem : name x ∈ items.map name
      · rw [uniqueByName_concat_of_mem hmem]
        exact hbefore
      · have hnone : items.find? (fun z => name z == name x) = none :=
          List.find?_eq_none.mpr fun z hz heq => hmem (beq_iff_eq.mp heq ▸ List.mem_map_of_mem hz)
        rw [uniqueByName_concat_of_not_mem hmem]
        intro y hy
        rcases List.mem_append.mp hy with hy | hy
        · exact hbefore y hy
        · rw [List.mem_singleton.mp hy, List.find?_append, hnone, Option.none_or]
          exact List.find?_cons_of_pos (beq_self_eq_true _)
  complete x hx := by
    rcases exists_like_of_mem hx with hkept | ⟨y, hy, hname⟩
    · exact List.mem_map_of_mem hkept
    · exact List.mem_map.mpr ⟨y, hy, beq_iff_eq.mp hname⟩

/-- Items that keep their names are left out before they are changed as well as after. -/
theorem uniqueByName_map {f : α → α} (h : ∀ x, name (f x) = name x) (items : List α) :
    uniqueByName name (items.map f) = (uniqueByName name items).map f := by
  have hnames (items : List α) : (items.map f).map name = items.map name := by
    rw [List.map_map]
    exact List.map_congr_left fun x _ => h x
  induction items using List.reverseRecOn with
  | nil => rfl
  | append_singleton items x ih =>
    rw [List.map_append, List.map_singleton]
    by_cases hmem : name x ∈ items.map name
    · rw [uniqueByName_concat_of_mem hmem, ← ih]
      exact uniqueByName_concat_of_mem (by rwa [hnames, h])
    · rw [uniqueByName_concat_of_not_mem hmem, List.map_append, List.map_singleton, ← ih]
      exact uniqueByName_concat_of_not_mem (by rwa [hnames, h])

end

/-! ### Imports -/

/-- There is nothing to do about imports that are tidy. -/
theorem IsTidy.tidyImports_eq {imports : List String} {exclude : Option String}
    (h : IsTidy imports) (hexclude : ∀ i ∈ imports, some i ≠ exclude) :
    tidyImports imports exclude = imports := by
  have hdistinct : distinctTexts imports = imports := by
    rw [distinctTexts, TypeUse.appendNew_nil, eraseDups_eq_uniqueByName]
    exact uniqueByName_eq_self (by rw [List.map_id]; exact h.nodup)
  have hkept : imports.filter (fun i => some i != exclude) = imports :=
    List.filter_eq_self.mpr fun i hi => bne_iff_ne.mpr (hexclude i hi)
  rw [tidyImports, hdistinct, hkept]
  exact List.mergeSort_of_pairwise (h.ordered.imp fun hle => decide_eq_true hle)

namespace Model

/-! ### Models -/

theorem sizeOf_lt_of_mem_properties {m p : Model} (h : p ∈ m.properties) : sizeOf p < sizeOf m := by
  have hlt := List.sizeOf_lt_of_mem h
  cases m
  simp only [mk.sizeOf_spec] at hlt ⊢
  omega

theorem sizeOf_lt_of_mem_enums {m e : Model} (h : e ∈ m.enums) : sizeOf e < sizeOf m := by
  have hlt := List.sizeOf_lt_of_mem h
  cases m
  simp only [mk.sizeOf_spec] at hlt ⊢
  omega

/-- What holds of a model whenever it holds of the models in it, holds of all models. -/
theorem induction {motive : Model → Prop} (step : ∀ m : Model, (∀ p ∈ m.properties, motive p) →
    (∀ e ∈ m.enums, motive e) → (∀ l ∈ m.link, motive l) → motive m) (m : Model) : motive m :=
  step m (fun p _ => induction step p) (fun e _ => induction step e) fun l _ => induction step l
termination_by m
decreasing_by
  · exact sizeOf_lt_of_mem_properties ‹_›
  · exact sizeOf_lt_of_mem_enums ‹_›
  · exact Response.sizeOf_link_lt ‹_›

theorem tidy_eq (m : Model) : m.tidy = { m with
    imports := tidyImports m.imports (some m.name)
    enumerators := uniqueByName Enumerator.name m.enumerators
    enums := uniqueByName Model.name (m.enums.map tidy)
    properties := m.properties.map tidy
    link := m.link.map tidy } := by
  rw [← imports_tidy, ← enums_tidy, ← properties_tidy, ← link_tidy]
  cases m
  rfl

/-- Tidying finds the tidy form: at each model from what it finds for the models in it. -/
theorem tidyForm_tidy (m : Model) : m.TidyForm m.tidy := by
  induction m using Model.induction with
  | step m properties enums link =>
    have himports := imports_tidy m
    have henums : m.tidy.enums = (uniqueByName Model.name m.enums).map tidy := by
      rw [enums_tidy, uniqueByName_map name_tidy]
    refine @TidyForm.intro _ _ (uniqueByName Model.name m.enums) ?_ ?_ ?_
      (firstOfEach_uniqueByName Model.name m.enums) ?_ ?_ ?_ ?_
    · rw [himports]
      exact isTidy_tidyImports _ _
    · intro i
      rw [himports, mem_tidyImports, ne_eq, Option.some.injEq]
    · rw [tidy_eq]
      exact firstOfEach_uniqueByName _ _
    · rw [henums, List.forall₂_map_right_iff, List.forall₂_same]
      exact fun e he => enums e (mem_of_mem_uniqueByName he)
    · rw [properties_tidy, List.forall₂_map_right_iff, List.forall₂_same]
      exact properties
    · rw [link_tidy]
      cases hlink : m.link with
      | none => exact .none
      | some l => exact .some (link l hlink)
    · rw [tidy_eq]

/-- A tidy form has the name of the model. -/
theorem TidyForm.name_eq {m t : Model} (h : m.TidyForm t) : t.name = m.name := by
  cases h with
  | intro _ _ _ _ _ _ _ others => rw [others]

theorem TidyForm.names_eq {ms ts : List Model} (h : List.Forall₂ TidyForm ms ts) :
    ts.map Model.name = ms.map Model.name := by
  induction h with
  | nil => rfl
  | cons first _ ih => rw [List.map_cons, List.map_cons, first.name_eq, ih]

/-- Tidying changes nothing in a list of tidy forms. -/
theorem map_tidy_eq {ms ts : List Model}
    (h : ∀ m ∈ ms, ∀ t : Model, m.TidyForm t → t.tidy = t)
    (forms : List.Forall₂ TidyForm ms ts) : ts.map tidy = ts := by
  induction forms with
  | nil => rfl
  | cons first _ ih =>
    rw [List.forall_mem_cons] at h
    rw [List.map_cons, h.1 _ first, ih h.2]

/-- There is nothing left to tidy in a tidy form. -/
theorem TidyForm.tidy_eq {m t : Model} (h : m.TidyForm t) : t.tidy = t := by
  induction m using Model.induction generalizing t with
  | step m ihProperties ihEnums ihLink =>
    cases h with
    | intro ordered mem_imports enumerators firstEnums enums properties link others =>
      have hname : t.name = m.name := by rw [others]
      have himports : tidyImports t.imports (some t.name) = t.imports := by
        refine ordered.tidyImports_eq fun i hi heq => ?_
        exact ((mem_imports i).mp hi).2 ((Option.some.inj heq).trans hname)
      have henums : uniqueByName Model.name (t.enums.map tidy) = t.enums := by
        rw [map_tidy_eq (fun e he _ => ihEnums e (firstEnums.inOrder.subset he)) enums]
        exact uniqueByName_eq_self (by rw [TidyForm.names_eq enums]; exact firstEnums.nodup)
      have hlink : t.link.map tidy = t.link := by
        generalize m.link = before, t.link = after at ihLink link
        cases link with
        | none => rfl
        | some form => exact congrArg some (ihLink _ rfl form)
      rw [Model.tidy_eq, himports, uniqueByName_eq_self enumerators.nodup, henums,
        map_tidy_eq (fun p hp _ => ihProperties p hp) properties, hlink]
      cases t
      rfl

/-- A model is brought into its tidy form once and for all. -/
theorem tidy_canonical (m : Model) : m.TidyForm m.tidy ∧ m.tidy.tidy = m.tidy :=
  ⟨tidyForm_tidy m, (tidyForm_tidy m).tidy_eq⟩

end Model
end OpenApi
