import OpenApi.Proofs.EqualValues
import OpenApi.Proofs.Enumerators

/-
Integers that are too long to be written.

They are the only fault of JSON values: such a value has a text in every style, and members can be
made from a list of such values, just if no integer in them has too many digits.

Which of several equal values is looked at does not matter for that, so the values of an enumeration
can be told apart before their members are made (`okIff_ofValues`).
-/
namespace OpenApi

/-! ### Texts of JSON values -/

namespace Node

theorem intsFit_bool (b : Bool) : (Node.bool b).IntsFit := by
  intro n h
  cases h

theorem intsFit_float (x : Double) : (Node.float x).IntsFit := by
  intro n h
  cases h

theorem intsFit_int_iff {n : Int} : (Node.int n).IntsFit ↔ Number.isLong n = false := by
  constructor
  · exact fun fits => fits n .whole
  · intro short m hm
    cases hm
    exact short

end Node

namespace Json

variable {style : Style}

/-- A JSON value is written in any style unless an integer in it is too long. -/
theorem okIff_write {node : Node} (plain : node.HasNotation) (depth : Nat) :
    Except.OkIff node.IntsFit .tooLong (write style depth node) := by
  induction plain generalizing depth with
  | null => exact .ok nofun rfl
  | bool b => cases b <;> exact .ok (Node.intsFit_bool _) rfl
  | int n =>
    have hwrite : write style depth (.int n) =
        if Number.isLong n then .error .tooLong else .ok (Number.intText n) := rfl
    rw [hwrite]
    cases hlong : Number.isLong n with
    | true => exact .error (by rw [Node.intsFit_int_iff, hlong]; decide) rfl
    | false => exact .ok (Node.intsFit_int_iff.mpr hlong) rfl
  | float x => exact .ok (Node.intsFit_float x) rfl
  | str s => exact .ok (Node.intsFit_str s) rfl
  | @list items _ ih =>
    rw [write, writeItems_eq_mapM]
    exact ((Except.OkIff.mapM fun x hx => ih x hx (depth + 1)).map _).congr
      Node.intsFit_list_iff.symm
  | @map entries texts _ _ ih =>
    obtain ⟨arranged, harranged, hperm⟩ := @exists_arrange _
      (writeEntries style (depth + 1) entries) style fun e he => by
        rw [writeEntries_eq_map] at he
        obtain ⟨e', he', rfl⟩ := List.mem_map.mp he
        exact texts e' he'
    rw [writeEntries_eq_map] at hperm
    -- An entry is judged by its text, because it has lost its value when entries are arranged.
    have hentry : ∀ e ∈ arranged,
        Except.OkIff (∃ text, e.2 = .ok text) .tooLong (entry style e) := by
      intro e he
      obtain ⟨e', he', rfl⟩ := List.mem_map.mp (hperm.mem_iff.mp he)
      obtain ⟨key, hkey⟩ := texts e' he'
      have hvalue := ih e' he' (depth + 1)
      rw [hkey]
      exact (hvalue.map _).congr hvalue.exists_iff.symm
    have hfits : (∀ e ∈ arranged, ∃ text, e.2 = .ok text) ↔ (Node.map entries).IntsFit := by
      rw [Node.intsFit_map_iff]
      simp only [hperm.mem_iff, List.forall_mem_map]
      exact forall₂_congr fun e he => (ih e he (depth + 1)).exists_iff
    rw [write, harranged]
    exact ((Except.OkIff.mapM hentry).map _).congr hfits

theorem okIff_render {node : Node} (plain : node.HasNotation) :
    Except.OkIff node.IntsFit .tooLong (render style node) := by
  rw [render, isEndless_of_hasNotation plain]
  exact okIff_write plain 0

end Json

/-! ### Members of enumerations -/

namespace Enumerator

variable {values : List Node}

theorem okIff_ofNumber (n : Number) : Except.OkIff (∃ text, n.literal? = some text)
    (.malformed .longNumber) (ofNumber n) := by
  unfold ofNumber
  cases n.literal? with
  | none => exact .error nofun rfl
  | some text => exact .ok ⟨text, rfl⟩ rfl

/-- A JSON value has a member unless an integer in it is too long. -/
theorem okIff_ofValue {value : Node} (plain : value.HasNotation) :
    Except.OkIff value.IntsFit (.malformed .longNumber) (ofValue value) := by
  have hwritten (h : value.kind ∉ [Node.Kind.int, .float, .bool, .str]) :
      Except.OkIff value.IntsFit (.malformed .longNumber) (ofValue value) := by
    rw [ofValue_eq_map h]
    exact ((Json.okIff_render plain).mapError Failure.ofUnwritable).map ofText
  cases plain with
  | null => exact hwritten (by decide)
  | bool b => exact .ok (Node.intsFit_bool b) rfl
  | int n =>
    exact (okIff_ofNumber (.int n)).congr
      (Number.exists_literal?_int_iff.trans Node.intsFit_int_iff.symm)
  | float x =>
    exact (okIff_ofNumber (.float x)).congr
      ⟨fun _ => Node.intsFit_float x, fun _ => Number.exists_literal?_float x⟩
  | str s => exact .ok (Node.intsFit_str s) rfl
  | list parts => exact hwritten (by simp [Node.kind])
  | map texts distinct parts => exact hwritten (by simp [Node.kind])

theorem intsFit_of_not_isPresent {value : Node} (h : ¬ isPresent value = true) :
    value.IntsFit := by
  unfold isPresent at h
  split at h
  · exact nofun
  · exact nofun
  · exact absurd rfl h

theorem same_of_sameValue {a b : Node} (h : sameValue a b = true) : a.same b = true := by
  unfold sameValue at h
  split at h
  · exact Bool.or_eq_true_iff.mpr (.inl h)
  · simp only [Bool.and_eq_true] at h
    exact h.2

theorem intsFit_filter_isPresent_iff :
    (∀ value ∈ values.filter isPresent, value.IntsFit) ↔ ∀ value ∈ values, value.IntsFit := by
  constructor
  · intro h value hvalue
    by_cases hpresent : isPresent value = true
    · exact h value (List.mem_filter.mpr ⟨hvalue, hpresent⟩)
    · exact intsFit_of_not_isPresent hpresent
  · exact fun h value hvalue => h value (List.mem_of_mem_filter hvalue)

/-- Every value of a list has an equal among those that are told apart, and it is written just as
well. -/
theorem intsFit_withoutRepeats_iff (plain : ∀ value ∈ values, value.HasNotation) :
    (∀ value ∈ withoutRepeats values, value.IntsFit) ↔ ∀ value ∈ values, value.IntsFit :=
  forall_mem_firstOnes_iff fun x hx y hy hsame =>
    Node.intsFit_of_same (plain x hx) (plain y hy) (same_of_sameValue hsame)

/-- A list of JSON values has members unless an integer in one of them is too long. -/
theorem okIff_ofValues (plain : ∀ value ∈ values, value.HasNotation) :
    Except.OkIff (∀ value ∈ values, value.IntsFit) (.malformed .longNumber)
      (ofValues (.list values)) := by
  rw [ofValues_eq]
  refine ((Except.OkIff.mapM fun value hvalue => okIff_ofValue (plain value ?_)).map _).congr
    (intsFit_filter_isPresent_iff.trans (intsFit_withoutRepeats_iff plain))
  exact (firstOnes_sublist values).subset (List.mem_of_mem_filter hvalue)

end Enumerator
end OpenApi
