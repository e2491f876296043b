import OpenApi.Client.Basic
import OpenApi.Proofs.ClosedModels

/-
What tidying does to imports.

Each list of imports is put in order on its own, so the lists themselves and what they contain are
separate questions.  A tidy list has no repetitions and is ordered by lower case (`IsTidy`).  It has
what the list had before, without the name of the model itself, so what covered a model before
covers it after (`CoveredBy.tidy`).
-/
namespace OpenApi

namespace TypeUse

theorem mem_appendNew {x : String} {imports names : List String} :
    x ∈ appendNew imports names ↔ x ∈ imports ∨ x ∈ names := by
  unfold appendNew
  induction names generalizing imports with
  | nil => simp
  | cons name rest ih =>
    rw [List.foldl_cons, ih]
    by_cases hmem : name ∈ imports
    · rw [if_pos hmem, List.mem_cons]
      constructor
      · rintro (h | h)
        · exact .inl h
        · exact .inr (.inr h)
      · rintro (h | rfl | h)
        · exact .inl h
        · exact .inl hmem
        · exact .inr h
    · rw [if_neg hmem, List.mem_append, List.mem_singleton, List.mem_cons, or_assoc]

theorem nodup_appendNew {imports : List String} (names : List String) (h : imports.Nodup) :
    (appendNew imports names).Nodup := by
  unfold appendNew
  induction names generalizing imports with
  | nil => exact h
  | cons name rest ih =>
    rw [List.foldl_cons]
    by_cases hmem : name ∈ imports
    · rw [if_pos hmem]
      exact ih h
    · rw [if_neg hmem]
      refine ih (List.nodup_append.mpr ⟨h, List.pairwise_singleton _ name, ?_⟩)
      intro a ha b hb
      rw [List.mem_singleton.mp hb]
      exact fun heq => hmem (heq ▸ ha)

end TypeUse

/-! ### Lists of imports -/

/-- Whether a list has no repetitions and is ordered without regard to case. -/
structure IsTidy (imports : List String) : Prop where
  nodup : imports.Nodup
  ordered : imports.Pairwise fun a b => Text.lower a ≤ Text.lower b

theorem mem_distinctTexts {x : String} {items : List String} :
    x ∈ distinctTexts items ↔ x ∈ items := by
  rw [distinctTexts, TypeUse.mem_appendNew]
  simp

theorem mem_sortByName {α : Type} {name : α → String} {items : List α} {x : α} :
    x ∈ sortByName name items ↔ x ∈ items := (List.mergeSort_perm items _).mem_iff

theorem lower_le_trans {α : Type} {name : α → String} (a b c : α)
    (hab : decide (Text.lower (name a) ≤ Text.lower (name b)) = true)
    (hbc : decide (Text.lower (name b) ≤ Text.lower (name c)) = true) :
    decide (Text.lower (name a) ≤ Text.lower (name c)) = true := by
  rw [decide_eq_true_eq] at hab hbc ⊢
  exact String.le_trans hab hbc

theorem lower_le_total {α : Type} {name : α → String} (a b : α) :
    (decide (Text.lower (name a) ≤ Text.lower (name b)) ||
      decide (Text.lower (name b) ≤ Text.lower (name a))) = true := by
  rw [Bool.or_eq_true, decide_eq_true_eq, decide_eq_true_eq]
  exact String.le_total _ _

theorem pairwise_sortByName {α : Type} (name : α → String) (items : List α) :
    (sortByName name items).Pairwise fun a b => Text.lower (name a) ≤ Text.lower (name b) :=
  (List.pairwise_mergeSort lower_le_trans lower_le_total items).imp fun h => of_decide_eq_true h

/-- One more item goes behind what comes before it by name, and before all else. -/
theorem exists_sortByName_cons {α : Type} (name : α → String) (a : α) (items : List α) :
    ∃ before after, sortByName name (a :: items) = before ++ a :: after ∧
      sortByName name items = before ++ after ∧
        (∀ b ∈ before, ¬ Text.lower (name a) ≤ Text.lower (name b)) ∧
          ∀ b ∈ after, Text.lower (name a) ≤ Text.lower (name b) := by
  obtain ⟨before, after, hmore, hitems, hbefore⟩ :=
    List.mergeSort_cons (@lower_le_trans α name) lower_le_total a items
  refine ⟨before, after, hmore, hitems, fun b hb => ?_, ?_⟩
  · simpa using hbefore b hb
  · have hordered := pairwise_sortByName name (a :: items)
    rw [show sortByName name (a :: items) = before ++ a :: after from hmore] at hordered
    exact (List.pairwise_cons.mp (List.pairwise_append.mp hordered).2.1).1

/-- What comes before an item is told from what comes after it by name. -/
theorem filter_before {α : Type} {name : α → String} {a : α} {before after : List α}
    (hbefore : ∀ b ∈ before, ¬ Text.lower (name a) ≤ Text.lower (name b))
    (hafter : ∀ b ∈ after, Text.lower (name a) ≤ Text.lower (name b)) :
    (before ++ after).filter (fun b => ¬ Text.lower (name a) ≤ Text.lower (name b)) = before ∧
      (before ++ after).filter (fun b => Text.lower (name a) ≤ Text.lower (name b)) = after := by
  constructor
  · rw [List.filter_append, List.filter_eq_self.mpr fun b hb => decide_eq_true (hbefore b hb),
      List.filter_eq_nil_iff.mpr, List.append_nil]
    intro b hb hdecided
    exact of_decide_eq_true hdecided (hafter b hb)
  · rw [List.filter_append, List.filter_eq_nil_iff.mpr, List.nil_append,
      List.filter_eq_self.mpr fun b hb => decide_eq_true (hafter b hb)]
    intro b hb hdecided
    exact hbefore b hb (of_decide_eq_true hdecided)

/-- Sorting more items leaves the order of those that were there. -/
theorem sublist_sortByName {α : Type} (name : α → String) {items more : List α}
    (h : items.Sublist more) : (sortByName name items).Sublist (sortByName name more) := by
  induction h with
  | slnil => exact List.Sublist.refl _
  | cons a _ ih =>
    obtain ⟨before, after, hmore, hitems, _⟩ := exists_sortByName_cons name a _
    rw [hmore]
    rw [hitems] at ih
    exact ih.trans ((List.sublist_cons_self a after).append_left before)
  | cons_cons a _ ih =>
    obtain ⟨before, after, hitems, hrest, hbefore, hafter⟩ := exists_sortByName_cons name a _
    obtain ⟨before', after', hmore, hrest', hbefore', hafter'⟩ := exists_sortByName_cons name a _
    rw [hitems, hmore]
    rw [hrest, hrest'] at ih
    have hfront := ih.filter fun b => ¬ Text.lower (name a) ≤ Text.lower (name b)
    have hback := ih.filter fun b => Text.lower (name a) ≤ Text.lower (name b)
    rw [(filter_before hbefore hafter).1, (filter_before hbefore' hafter').1] at hfront
    rw [(filter_before hbefore hafter).2, (filter_before hbefore' hafter').2] at hback
    exact hfront.append (hback.cons_cons a)

theorem mem_tidyImports {x : String} {imports : List String} {exclude : Option String} :
    x ∈ tidyImports imports exclude ↔ x ∈ imports ∧ some x ≠ exclude := by
  rw [tidyImports, mem_sortByName, List.mem_filter, mem_distinctTexts, bne_iff_ne]

theorem isTidy_tidyImports (imports : List String) (exclude : Option String) :
    IsTidy (tidyImports imports exclude) where
  nodup := (List.mergeSort_perm _ _).nodup_iff.mpr
    ((TypeUse.nodup_appendNew imports List.nodup_nil).filter _)
  ordered := pairwise_sortByName id _

/-! ### Models -/

namespace Model

theorem tidyAll_eq_map (models : List Model) : tidyAll models = models.map tidy := by
  induction models with
  | nil => rfl
  | cons m ms ih => rw [tidyAll, ih, List.map_cons]

theorem imports_tidy (m : Model) : m.tidy.imports = tidyImports m.imports (some m.name) := by
  cases m
  rfl

theorem name_tidy (m : Model) : m.tidy.name = m.name := by
  cases m
  rfl

theorem properties_tidy (m : Model) : m.tidy.properties = m.properties.map tidy := by
  rw [← tidyAll_eq_map]
  cases m
  rfl

theorem link_tidy (m : Model) : m.tidy.link = m.link.map tidy := by
  have hlink : m.tidy.link = tidyLink m.link := by
    cases m
    rfl
  rw [hlink]
  cases m.link <;> rfl

/-- What stands in a tidy model is a tidied part of the model. -/
theorem StandsIn.of_tidy {part m : Model} (h : part.StandsIn m.tidy) :
    ∃ original : Model, original.StandsIn m ∧ part = original.tidy := by
  generalize htidy : m.tidy = t at h
  induction h generalizing m with
  | whole => exact ⟨m, .whole, htidy.symm⟩
  | property mem _ ih =>
    rw [← htidy, properties_tidy] at mem
    obtain ⟨p, hp, rfl⟩ := List.mem_map.mp mem
    obtain ⟨original, hstands, rfl⟩ := ih rfl
    exact ⟨original, .property hp hstands, rfl⟩
  | link linked _ ih =>
    rw [← htidy, link_tidy] at linked
    obtain ⟨l, hl, rfl⟩ := Option.map_eq_some_iff.mp linked
    obtain ⟨original, hstands, rfl⟩ := ih rfl
    exact ⟨original, .link hl hstands, rfl⟩

/-- What covers a model covers it when it is tidied. -/
theorem CoveredBy.tidy {imports : List String} {m : Model} (h : m.CoveredBy imports) :
    m.tidy.CoveredBy imports := by
  intro part hpart i hi
  obtain ⟨original, hstands, rfl⟩ := hpart.of_tidy
  rw [imports_tidy] at hi
  exact h original hstands i (mem_tidyImports.mp hi).1

/-- A tidy model lacks at most its own name. -/
theorem Closed.tidy {m : Model} (h : m.Closed) : m.tidy.CoveredBy (m.name :: m.tidy.imports) := by
  refine CoveredBy.tidy (h.mono fun i hi => ?_)
  rw [imports_tidy]
  by_cases hname : i = m.name
  · exact List.mem_cons.mpr (.inl hname)
  · exact List.mem_cons_of_mem _ (mem_tidyImports.mpr ⟨hi, fun heq => hname (Option.some.inj heq)⟩)

end Model
end OpenApi
