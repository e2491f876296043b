import Mathlib.Data.List.Nodup
import OpenApi.Proofs.JsonNumbers
import OpenApi.Proofs.KeptItems
import OpenApi.Proofs.WritableValues

/-
Members of enumerations and their values.

A member is made from a text or from a number, and its value tells which.  The literal of a text
stands between quotes, with the quotes in it escaped, so that different texts have different
literals; no literal of a number begins with a quote.  Names need not be different where values are,
but equal values mean equal members (`eq_of_value_eq`), so no two members of an enumeration have the
same value.
-/
namespace OpenApi

namespace Text

theorem replaceChar_concat (old : Char) (new cs : List Char) (c : Char) :
    replaceChar old new (cs ++ [c]) = replaceChar old new cs ++ if c = old then new else [c] := by
  rw [replaceChar, List.flatMap_append, List.flatMap_singleton, replaceChar]

/-- A character that is kept, with something put before it, can be told from all others.  The
induction is from the end, because what is put before it may be another character of the text. -/
theorem replaceChar_injective (old : Char) (front : List Char) :
    Function.Injective (replaceChar old (front ++ [old])) := by
  have hlast (c : Char) : (if c = old then front ++ [old] else [c]) =
      (if c = old then front else []) ++ [c] := by
    by_cases hc : c = old
    · rw [if_pos hc, if_pos hc, hc]
    · rw [if_neg hc, if_neg hc, List.nil_append]
  intro cs cs' h
  induction cs using List.reverseRecOn generalizing cs' with
  | nil =>
    rcases cs'.eq_nil_or_concat with rfl | ⟨init, last, rfl⟩
    · rfl
    · rw [List.concat_eq_append, replaceChar_concat, hlast, ← List.append_assoc] at h
      exact absurd h.symm (List.append_ne_nil_of_right_ne_nil _ (List.cons_ne_nil _ _))
  | append_singleton cs c ih =>
    rcases cs'.eq_nil_or_concat with rfl | ⟨init, last, rfl⟩
    · rw [replaceChar_concat, hlast, ← List.append_assoc] at h
      exact absurd h (List.append_ne_nil_of_right_ne_nil _ (List.cons_ne_nil _ _))
    · rw [List.concat_eq_append, replaceChar_concat, replaceChar_concat, hlast, hlast,
        ← List.append_assoc, ← List.append_assoc] at h
      obtain ⟨hfront, hc⟩ := List.append_inj' h rfl
      obtain rfl := List.singleton_inj.mp hc
      rw [List.concat_eq_append, ih (List.append_cancel_right hfront)]

end Text

/-! ### Literals of numbers -/

/-- A numeral begins with a sign or with a digit. -/
theorem Json.NumberParts.WellFormed.head?_text {p : Json.NumberParts} (h : p.WellFormed) :
    ∀ c ∈ p.text.head?, c = '-' ∨ c.isDigit = true := by
  intro c hc
  have hwhole := h.whole
  rw [Json.NumberParts.text, Double.signed] at hc
  by_cases hneg : p.negative = true
  · rw [if_pos hneg] at hc
    exact .inl (Option.some.inj hc).symm
  · rw [if_neg hneg] at hc
    generalize p.whole = whole at hwhole hc
    cases hwhole with
    | zero => exact .inr (Option.some.inj hc ▸ rfl)
    | digits _ digit => exact .inr (Option.some.inj hc ▸ digit _ List.mem_cons_self)

/-- No number begins with a quote. -/
theorem Number.head?_literal {n : Number} {text : String} (h : n.literal? = some text) :
    text.toList.head? ≠ some '\'' := by
  have hparts {p : Json.NumberParts} (wellFormed : p.WellFormed) : p.text.head? ≠ some '\'' := by
    intro heq
    rcases wellFormed.head?_text '\'' heq with hsign | hdigit
    · exact absurd hsign (by decide)
    · exact absurd hdigit (by decide)
  have hint {n : Int} (h : text? (.int n) = some text) : text.toList.head? ≠ some '\'' := by
    rw [text?] at h
    split at h
    · cases h
    · cases h
      rw [← Json.NumberParts.text_ofInt]
      exact hparts (Json.NumberParts.wellFormed_ofInt n)
  unfold literal? at h
  cases n with
  | int n => exact hint h
  | float x =>
    dsimp only at h
    split at h
    · exact hint h
    · cases h
      rw [Double.text, String.toList_ofList]
      cases x with
      | nan => decide
      | infinite negative => cases negative <;> decide
      | finite negative mantissa exponent canonical =>
        obtain ⟨p, wellFormed, htext, _⟩ :=
          Json.NumberParts.exists_write .plain negative canonical
        rw [← htext]
        exact hparts wellFormed

namespace Enumerator

/-! ### Values of members -/

theorem head?_quote (s : String) : (quote s).toList.head? = some '\'' := by
  rw [quote, String.toList_ofList]
  rfl

theorem quote_injective : Function.Injective quote := by
  intro s s' h
  have hlist := congrArg String.toList h
  rw [quote, quote, String.toList_ofList, String.toList_ofList, List.cons_append, List.cons_append,
    List.cons.injEq] at hlist
  have hchars := Text.replaceChar_injective '\'' ['\\'] (List.append_cancel_right hlist.2)
  exact String.toList_inj.mp hchars

/-- The member for a number with the given literal. -/
def numbered (literal : String) : Enumerator :=
  { name := "'_" ++ literal ++ "'", value := literal, type := "number" }

theorem exists_literal_of_ofNumber {n : Number} {e : Enumerator} (h : ofNumber n = .ok e) :
    ∃ literal, Number.literal? n = some literal ∧ e = numbered literal := by
  obtain ⟨literal, hliteral, he⟩ := Except.bind_eq_ok_iff.mp h
  unfold Failure.orTooLong at hliteral
  split at hliteral
  · rename_i found hfound
    cases hliteral
    exact ⟨literal, hfound, (Except.pure_eq_ok_iff.mp he).symm⟩
  · cases hliteral

/-- What is no number, truth value or text has the member of its JSON text. -/
theorem ofValue_eq_map {value : Node} (h : value.kind ∉ [Node.Kind.int, .float, .bool, .str]) :
    ofValue value = ((Json.render .sortedLine value).mapError Failure.ofUnwritable).map ofText := by
  unfold ofValue
  split
  · exact absurd (by simp [Node.kind]) h
  · exact absurd (by simp [Node.kind]) h
  · exact absurd (by simp [Node.kind]) h
  · exact absurd (by simp [Node.kind]) h
  · cases Json.render .sortedLine value <;> rfl

theorem exists_ofNumber_iff {n : Number} :
    (∃ member, ofNumber n = .ok member) ↔ ∃ text, n.literal? = some text := by
  unfold ofNumber
  cases n.literal? with
  | none => exact ⟨nofun, nofun⟩
  | some text => exact ⟨fun _ => ⟨text, rfl⟩, fun _ => ⟨_, rfl⟩⟩

/-- A value has a member just if it has a text. -/
theorem exists_ofValue_iff {v : Node} :
    (∃ member, ofValue v = .ok member) ↔ Json.HasText .sortedLine v := by
  have hwritten (h : v.kind ∉ [Node.Kind.int, .float, .bool, .str]) :
      (∃ member, ofValue v = .ok member) ↔ Json.HasText .sortedLine v := by
    rw [ofValue_eq_map h, Except.exists_map_iff, ← Json.exists_render_iff_hasText]
    cases Json.render .sortedLine v with
    | error cause => exact ⟨nofun, nofun⟩
    | ok text => exact ⟨fun _ => ⟨text, rfl⟩, fun _ => ⟨text, rfl⟩⟩
  cases v with
  | scalar s =>
    cases s with
    | bool b => exact ⟨fun _ => .scalar rfl, fun _ => ⟨_, rfl⟩⟩
    | str s => exact ⟨fun _ => .scalar rfl, fun _ => ⟨_, rfl⟩⟩
    | float x =>
      have hliteral := Number.exists_literal?_float x
      exact ⟨fun _ => .scalar rfl, fun _ => exists_ofNumber_iff.mpr hliteral⟩
    | int n =>
      exact exists_ofNumber_iff.trans
        (Number.exists_literal?_int_iff.trans Json.hasText_int_iff.symm)
    | moment m => cases m <;> exact hwritten (by simp [Node.kind])
    | null | bytes _ => exact hwritten (by simp [Node.kind])
  | list | map | set | pair | endless => exact hwritten (by simp [Node.kind])

/-- What a member is made from: a text, or a number with a literal. -/
theorem ofValue_cases {value : Node} {e : Enumerator} (h : ofValue value = .ok e) :
    (∃ s, e = ofText s) ∨ ∃ n literal, Number.literal? n = some literal ∧ e = numbered literal := by
  unfold ofValue at h
  split at h
  · exact .inr ⟨_, exists_literal_of_ofNumber h⟩
  · exact .inr ⟨_, exists_literal_of_ofNumber h⟩
  · cases h
    exact .inl ⟨_, rfl⟩
  · cases h
    exact .inl ⟨_, rfl⟩
  · split at h
    · cases h
      exact .inl ⟨_, rfl⟩
    · cases h

/-- Members with the same value are the same. -/
theorem eq_of_value_eq {value value' : Node} {e e' : Enumerator} (h : ofValue value = .ok e)
    (h' : ofValue value' = .ok e') (heq : e.value = e'.value) : e = e' := by
  rcases ofValue_cases h with ⟨s, rfl⟩ | ⟨n, literal, hliteral, rfl⟩
  · rcases ofValue_cases h' with ⟨s', rfl⟩ | ⟨n', literal', hliteral', rfl⟩
    · rw [quote_injective heq]
    · have hhead := head?_quote s
      rw [show quote s = literal' from heq] at hhead
      exact absurd hhead (Number.head?_literal hliteral')
  · rcases ofValue_cases h' with ⟨s', rfl⟩ | ⟨n', literal', _, rfl⟩
    · have hhead := head?_quote s'
      rw [← show literal = quote s' from heq] at hhead
      exact absurd hhead (Number.head?_literal hliteral)
    · obtain rfl : literal = literal' := heq
      rfl

/-! ### Members of lists of values -/

section
variable {values : List Node} {members : List Enumerator} {e : Enumerator}

theorem ofValues_eq (values : List Node) : ofValues (.list values) =
    (((withoutRepeats values).filter isPresent).mapM ofValue).map (uniqueByName name) := by
  rw [ofValues]
  cases ((withoutRepeats values).filter isPresent).mapM ofValue <;> rfl

theorem ofValues_singleton (value : Node) : ofValues (.list [value]) =
    if isPresent value then (ofValue value).map ([·]) else .ok [] := by
  have hone : withoutRepeats [value] = [value] := rfl
  rw [ofValues_eq, hone]
  cases hpresent : isPresent value with
  | true =>
    rw [List.filter_cons_of_pos hpresent, List.filter_nil, List.mapM_cons, if_pos rfl]
    cases ofValue value <;> rfl
  | false =>
    rw [List.filter_cons_of_neg (by rw [hpresent]; exact Bool.false_ne_true), List.filter_nil,
      if_neg Bool.false_ne_true]
    rfl

theorem hasText_of_not_isPresent {v : Node} (style : Json.Style) (h : isPresent v = false) :
    Json.HasText style v := by
  unfold isPresent at h
  split at h
  · exact .scalar rfl
  · exact .scalar rfl
  · cases h

/-- The members for one value are found just if the value has a text. -/
theorem exists_ofValues_singleton_iff {v : Node} :
    (∃ members, ofValues (.list [v]) = .ok members) ↔ Json.HasText .sortedLine v := by
  rw [ofValues_singleton]
  cases hpresent : isPresent v with
  | true => exact Except.exists_map_iff.trans exists_ofValue_iff
  | false => exact ⟨fun _ => hasText_of_not_isPresent _ hpresent, fun _ => ⟨[], rfl⟩⟩

/-- Members come from values, with names that are all different. -/
theorem exists_of_ofValues (h : ofValues (.list values) = .ok members) :
    ∃ made, ((withoutRepeats values).filter isPresent).mapM ofValue = .ok made ∧
      members = uniqueByName name made := by
  rw [ofValues_eq] at h
  obtain ⟨made, hmade, hmembers⟩ := Except.map_eq_ok_iff.mp h
  exact ⟨made, hmade, hmembers.symm⟩

theorem exists_value_of_mem (h : ofValues (.list values) = .ok members) (he : e ∈ members) :
    ∃ value ∈ values, ofValue value = .ok e := by
  obtain ⟨made, hmade, rfl⟩ := exists_of_ofValues h
  obtain ⟨value, hvalue, hof⟩ := Except.exists_mem_of_mapM hmade (mem_of_mem_uniqueByName he)
  exact ⟨value, (firstOnes_sublist values).subset (List.mem_of_mem_filter hvalue), hof⟩

/-- No two members have the same value. -/
theorem nodup_map_value (h : ofValues (.list values) = .ok members) :
    (members.map value).Nodup := by
  have hdistinct : members.Nodup := by
    obtain ⟨made, _, rfl⟩ := exists_of_ofValues h
    exact List.Nodup.of_map name (nodup_map_uniqueByName name made)
  refine List.Nodup.map_on (fun e he e' he' heq => ?_) hdistinct
  obtain ⟨_, _, hof⟩ := exists_value_of_mem h he
  obtain ⟨_, _, hof'⟩ := exists_value_of_mem h he'
  exact eq_of_value_eq hof hof' heq

theorem index_eq_of_value_eq (h : ofValues (.list values) = .ok members) {k k' : Nat}
    {e' : Enumerator} (hk : members[k]? = some e) (hk' : members[k']? = some e')
    (heq : e.value = e'.value) : k = k' := by
  obtain ⟨hlt, _⟩ := List.getElem?_eq_some_iff.mp hk
  refine (List.getElem?_inj (by rwa [List.length_map]) (nodup_map_value h)).mp ?_
  rw [List.getElem?_map, List.getElem?_map, hk, hk', Option.map_some, Option.map_some, heq]

end

end Enumerator
end OpenApi
