import Mathlib.Data.List.Induction
import OpenApi.Enumerator

/-
Lists from which an item is left out if it is like one that is kept already.

The values of an enumeration are told apart in this way, and so are the items of a list that need
different names.  What is kept is never taken back for an item that comes later, so what is kept of
the front of a list is the front of what is kept of the list (`firstOnes_extends`).
-/
namespace OpenApi

variable {α : Type}

/-- What is kept once a further item has been looked at. -/
def keepUnlike (like : α → α → Bool) (kept : List α) (item : α) : List α :=
  if kept.any (like · item) then kept else kept ++ [item]

/-- The items without those that are like an earlier one that is kept. -/
def firstOnes (like : α → α → Bool) (items : List α) : List α := items.foldl (keepUnlike like) []

theorem uniqueByName_eq (name : α → String) (items : List α) :
    uniqueByName name items = firstOnes (fun a b => name a == name b) items := rfl

theorem Enumerator.withoutRepeats_eq (values : List Node) :
    withoutRepeats values = firstOnes sameValue values := rfl

section
variable {like : α → α → Bool} {items before : List α} {x : α}

theorem firstOnes_concat (items : List α) (x : α) :
    firstOnes like (items ++ [x]) = keepUnlike like (firstOnes like items) x := by
  rw [firstOnes, List.foldl_append, List.foldl_cons, List.foldl_nil, firstOnes]

/-- Items that are like one that is kept already come to nothing, and the others are only compared
with one another. -/
theorem foldl_keepUnlike (kept items : List α) : items.foldl (keepUnlike like) kept =
    kept ++ (items.filter fun x => !kept.any (like · x)).eraseDupsBy fun b a => like a b := by
  induction items generalizing kept with
  | nil => simp
  | cons x items ih =>
    rw [List.foldl_cons, ih, keepUnlike]
    by_cases hlike : kept.any (like · x) = true
    · rw [if_pos hlike, List.filter_cons_of_neg (by simp [hlike])]
    · have hfilter : (items.filter fun y => !kept.any (like · y)).filter
          (fun y => decide (like x y = false)) =
            items.filter fun y => !(kept ++ [x]).any (like · y) := by
        rw [List.filter_filter]
        refine List.filter_congr fun y _ => ?_
        simp [Bool.and_comm]
      rw [if_neg hlike, List.filter_cons_of_pos (by simp [hlike]), List.eraseDupsBy_cons, hfilter,
        List.append_assoc, List.singleton_append]

theorem firstOnes_eq_eraseDupsBy (items : List α) :
    firstOnes like items = items.eraseDupsBy fun b a => like a b := by
  have hall : (items.filter fun x => !([] : List α).any (like · x)) = items :=
    List.filter_eq_self.mpr fun _ _ => rfl
  rw [firstOnes, foldl_keepUnlike, hall, List.nil_append]

/-- What is kept of the front of a list is all that matters of it for the items behind it. -/
theorem firstOnes_append_congr {front : List α} (h : firstOnes like items = firstOnes like front)
    (back : List α) : firstOnes like (items ++ back) = firstOnes like (front ++ back) := by
  have heq (xs : List α) : firstOnes like (xs ++ back) =
      back.foldl (keepUnlike like) (firstOnes like xs) := List.foldl_append
  rw [heq, heq, h]

theorem firstOnes_concat_of_like (h : ∃ y ∈ firstOnes like items, like y x = true) :
    firstOnes like (items ++ [x]) = firstOnes like items := by
  rw [firstOnes_concat, keepUnlike, if_pos (List.any_eq_true.mpr h)]

theorem firstOnes_concat_of_unlike (h : ∀ y ∈ firstOnes like items, like y x = false) :
    firstOnes like (items ++ [x]) = firstOnes like items ++ [x] := by
  have hnone : ¬ (firstOnes like items).any (like · x) = true := by
    rw [List.any_eq_true]
    rintro ⟨y, hy, hlike⟩
    exact absurd (h y hy) (by rw [hlike]; decide)
  rw [firstOnes_concat, keepUnlike, if_neg hnone]

theorem keepUnlike_extends (kept : List α) (x : α) : kept <+: keepUnlike like kept x := by
  unfold keepUnlike
  split
  · exact List.prefix_rfl
  · exact List.prefix_append _ _

theorem firstOnes_extends (before after : List α) :
    firstOnes like before <+: firstOnes like (before ++ after) := by
  induction after using List.reverseRecOn with
  | nil => exact (List.append_nil before).symm ▸ List.prefix_rfl
  | append_singleton after x ih =>
    rw [← List.append_assoc, firstOnes_concat]
    exact ih.trans (keepUnlike_extends _ x)

/-- What is kept are items, in their order. -/
theorem firstOnes_sublist (items : List α) : (firstOnes like items).Sublist items := by
  induction items using List.reverseRecOn with
  | nil => exact .slnil
  | append_singleton items x ih =>
    rw [firstOnes_concat, keepUnlike]
    split
    · exact ih.trans (List.sublist_append_left _ _)
    · exact ih.append (.refl _)

/-- Every item is kept, or is like one that is kept. -/
theorem exists_like_of_mem (h : x ∈ items) :
    x ∈ firstOnes like items ∨ ∃ y ∈ firstOnes like items, like y x = true := by
  induction items using List.reverseRecOn with
  | nil => cases h
  | append_singleton items z ih =>
    have hkept := (@keepUnlike_extends _ like (firstOnes like items) z).subset
    rw [firstOnes_concat]
    rcases List.mem_append.mp h with h | h
    · exact (ih h).imp (@hkept x) fun ⟨y, hy, hlike⟩ => ⟨y, hkept hy, hlike⟩
    · obtain rfl := List.mem_singleton.mp h
      unfold keepUnlike at hkept ⊢
      split
      · rename_i hany
        exact .inr (List.any_eq_true.mp hany)
      · exact .inl (List.mem_append_right _ (List.mem_singleton_self x))

/-- What like items have in common holds of all items if it holds of those that are kept. -/
theorem forall_mem_firstOnes_iff {P : α → Prop}
    (h : ∀ x ∈ items, ∀ y ∈ items, like x y = true → P x → P y) :
    (∀ x ∈ firstOnes like items, P x) ↔ ∀ x ∈ items, P x := by
  have hkept := (@firstOnes_sublist _ like items).subset
  constructor
  · intro hall x hx
    rcases exists_like_of_mem hx with hmem | ⟨y, hy, hlike⟩
    · exact hall x hmem
    · exact h y (hkept hy) x hx hlike (hall y hy)
  · exact fun hall x hx => hall x (hkept hx)

theorem firstOnes_eq_nil_iff : firstOnes like items = [] ↔ items = [] := by
  rw [List.eq_nil_iff_forall_not_mem, List.eq_nil_iff_forall_not_mem]
  exact forall_mem_firstOnes_iff fun _ _ _ _ _ => id

/-- An item that nothing before it is like stands behind what is kept of that. -/
theorem exists_firstOnes_eq (h : ∀ y ∈ firstOnes like before, like y x = false)
    (after : List α) :
    ∃ more, firstOnes like (before ++ x :: after) = firstOnes like before ++ x :: more := by
  obtain ⟨more, hmore⟩ := @firstOnes_extends _ like (before ++ [x]) after
  rw [firstOnes_concat_of_unlike h] at hmore
  refine ⟨more, ?_⟩
  rw [List.append_cons before x after, ← hmore, List.append_cons _ x more]

/-- No later item is like an earlier one. -/
theorem pairwise_firstOnes (items : List α) :
    (firstOnes like items).Pairwise fun a b => like a b = false := by
  induction items using List.reverseRecOn with
  | nil => exact .nil
  | append_singleton items x ih =>
    rw [firstOnes_concat, keepUnlike]
    split
    · exact ih
    · rename_i hnone
      refine List.pairwise_append.mpr ⟨ih, List.pairwise_singleton _ _, fun y hy z hz => ?_⟩
      rw [List.mem_singleton.mp hz]
      exact Bool.eq_false_iff.mpr fun hlike => hnone (List.any_eq_true.mpr ⟨y, hy, hlike⟩)

/-- Nothing is left out of a list whose items are all unlike. -/
theorem firstOnes_eq_self (h : items.Pairwise fun a b => like a b = false) :
    firstOnes like items = items := by
  induction items using List.reverseRecOn with
  | nil => rfl
  | append_singleton items x ih =>
    obtain ⟨hitems, _, hx⟩ := List.pairwise_append.mp h
    have hkept := ih hitems
    rw [firstOnes_concat_of_unlike, hkept]
    exact fun y hy => hx y (hkept ▸ hy) x (List.mem_singleton_self x)

end

theorem uniqueByName_eq_eraseDupsBy (name : α → String) (items : List α) :
    uniqueByName name items = items.eraseDupsBy fun a b => name a == name b := by
  rw [uniqueByName_eq, firstOnes_eq_eraseDupsBy]
  congr 1
  funext b a
  exact BEq.comm

/-- Texts are their own names. -/
theorem eraseDups_eq_uniqueByName (items : List String) :
    items.eraseDups = uniqueByName id items :=
  (uniqueByName_eq_eraseDupsBy id items).symm

theorem mem_of_mem_uniqueByName {name : α → String} {items : List α} {x : α}
    (h : x ∈ uniqueByName name items) : x ∈ items :=
  (firstOnes_sublist items).subset h

theorem nodup_map_uniqueByName (name : α → String) (items : List α) :
    ((uniqueByName name items).map name).Nodup := by
  rw [uniqueByName_eq]
  exact List.pairwise_map.mpr ((pairwise_firstOnes items).imp beq_eq_false_iff_ne.mp)

/-- An item is left out if the name of an earlier one is its name, whether that is kept or not. -/
theorem uniqueByName_concat_of_mem {name : α → String} {items : List α} {x : α}
    (h : name x ∈ items.map name) : uniqueByName name (items ++ [x]) = uniqueByName name items := by
  obtain ⟨y, hy, hname⟩ := List.mem_map.mp h
  refine firstOnes_concat_of_like ?_
  rcases exists_like_of_mem hy with hkept | ⟨z, hz, hlike⟩
  · exact ⟨y, hkept, beq_iff_eq.mpr hname⟩
  · exact ⟨z, hz, beq_iff_eq.mpr ((beq_iff_eq.mp hlike).trans hname)⟩

theorem uniqueByName_concat_of_not_mem {name : α → String} {items : List α} {x : α}
    (h : name x ∉ items.map name) :
    uniqueByName name (items ++ [x]) = uniqueByName name items ++ [x] :=
  firstOnes_concat_of_unlike fun _ hy => beq_eq_false_iff_ne.mpr fun hname =>
    h (hname ▸ List.mem_map_of_mem (mem_of_mem_uniqueByName hy))

theorem uniqueByName_eq_self {name : α → String} {items : List α} (h : (items.map name).Nodup) :
    uniqueByName name items = items := by
  rw [uniqueByName_eq]
  refine firstOnes_eq_self ((List.pairwise_map.mp h).imp fun hne => ?_)
  rw [beq_eq_false_iff_ne]
  exact hne

end OpenApi
