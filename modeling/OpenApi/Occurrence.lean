import OpenApi.Reference

/-
Values that occur in a document.

Everything that is read while a description is resolved is a value at some depth of the document: a
member, an item, or what a reference leads to.  So a property of all values of a document, stated
once for the document, holds wherever reading arrives.
-/
namespace OpenApi
namespace Node

/-- Whether a value is the whole or occurs in it at any depth, through the items of lists and the
values of maps. -/
inductive OccursIn (part : Node) : Node → Prop where
  | whole : OccursIn part part
  | item {items : List Node} {v : Node} (mem : v ∈ items) (below : OccursIn part v) :
      OccursIn part (.list items)
  | entry {entries : Entries} {e : Scalar × Node} (mem : e ∈ entries) (below : OccursIn part e.2) :
      OccursIn part (.map entries)

theorem OccursIn.trans {a b c : Node} (hab : a.OccursIn b) (hbc : b.OccursIn c) :
    a.OccursIn c := by
  induction hbc with
  | whole => exact hab
  | item mem _ ih => exact .item mem ih
  | entry mem _ ih => exact .entry mem ih

theorem mem_of_get?_entries {key : String} {v : Node} {entries : Entries}
    (h : Entries.get? key entries = some v) : (.str key, v) ∈ entries := by
  induction entries with
  | nil => cases h
  | cons e rest ih =>
    obtain ⟨k, w⟩ := e
    simp only [Entries.get?] at h
    by_cases hk : k = .str key
    · rw [if_pos hk] at h
      cases h
      rw [hk]
      exact List.mem_cons_self
    · rw [if_neg hk] at h
      exact List.mem_cons_of_mem _ (ih h)

theorem occursIn_of_get? {key : String} {node v : Node} (h : node.get? key = some v) :
    v.OccursIn node := by
  cases node with
  | map entries => exact .entry (mem_of_get?_entries h) .whole
  | _ => cases h

theorem occursIn_of_mem {items : List Node} {v : Node} (h : v ∈ items) :
    v.OccursIn (.list items) := .item h .whole

theorem size_le_sizeEntries_of_mem {entries : Entries} {e : Scalar × Node} (h : e ∈ entries) :
    e.2.size ≤ sizeEntries entries := by
  induction entries with
  | nil => cases h
  | cons x rest ih =>
    simp only [sizeEntries]
    rcases List.mem_cons.mp h with rfl | h
    · omega
    · have := ih h
      omega

theorem OccursIn.size_le {part whole : Node} (h : part.OccursIn whole) :
    part.size ≤ whole.size := by
  induction h with
  | whole => exact Nat.le_refl _
  | item mem _ ih =>
    have := size_le_of_mem mem
    simp only [size]
    omega
  | entry mem _ ih =>
    have := size_le_sizeEntries_of_mem mem
    simp only [size]
    omega

end Node

namespace Reference

theorem mem_of_item? {items : List Node} {index : Int} {v : Node}
    (h : item? items index = some v) : v ∈ items := by
  unfold item? at h
  split at h
  · split at h
    · exact List.mem_of_getElem? h
    · cases h
  · exact List.mem_of_getElem? h

theorem occursIn_of_step {node next : Node} {segment : String} (h : step node segment = .ok next) :
    next.OccursIn node := by
  unfold step at h
  split at h
  · split at h
    · rename_i found
      cases h
      exact .entry (Node.mem_of_get?_entries found) .whole
    · cases h
  · split at h
    · rename_i found
      cases h
      obtain ⟨index, _, hitem⟩ := Option.bind_eq_some_iff.mp found
      exact .item (mem_of_item? hitem) .whole
    · cases h
  · cases h

theorem occursIn_of_walk {segments : List String} {node next : Node}
    (h : walk node segments = .ok next) : next.OccursIn node := by
  induction segments generalizing node with
  | nil =>
    cases h
    exact .whole
  | cons segment rest ih =>
    simp only [walk] at h
    split at h
    · rename_i middle hstep
      exact (ih h).trans (occursIn_of_step hstep)
    · cases h

theorem occursIn_of_resolve {document ref target : Node} (h : resolve document ref = .ok target) :
    target.OccursIn document := by
  unfold resolve at h
  split at h
  · split at h
    · split at h
      · rename_i hwalk
        cases h
        exact occursIn_of_walk hwalk
      · cases h
    · cases h
  · cases hw : ref.written <;> rw [hw] at h <;> cases h

end Reference
end OpenApi
