import OpenApi.Proofs.DescribedMembers
import OpenApi.Proofs.LongIntegers
import OpenApi.Proofs.VendorNames

/-
What holds of every list of members.

A list of values is turned into members with different names, and so it is once more when a schema
has renamed them.  Neither step brings in a literal of its own, so the literals stay different and
in order, and no step leaves a member without a name: a name is made from a text that is not empty,
and what a schema puts in its place is not empty either.  An enumeration has no members just if
nothing in its list stands for anything (`extend_eq_nil_iff`).

`wellMade_extend` puts this together, with the one fault that either way to get members may have.
-/
namespace OpenApi

/-! ### Names -/

namespace Name

theorem squeeze_ne_nil (keep : Char → Bool) (mark : Char) {cs : List Char} (h : cs ≠ []) :
    squeeze keep mark cs ≠ [] := by
  induction cs with
  | nil => exact absurd rfl h
  | cons c rest ih =>
    rw [squeeze]
    split
    · exact List.cons_ne_nil _ _
    · split
      · rename_i hnext
        refine ih fun hnil => ?_
        rw [hnil] at hnext
        cases hnext
      · exact List.cons_ne_nil _ _

theorem separateCapitals_ne_nil {cs : List Char} (h : cs ≠ []) : separateCapitals cs ≠ [] := by
  cases cs with
  | nil => exact absurd rfl h
  | cons c rest =>
    rw [separateCapitals]
    split <;> exact List.cons_ne_nil _ _

theorem ofMember_ne_empty {value : String} (h : value ≠ "") : ofMember value ≠ "" := by
  have hchars : memberChars value.toList ≠ [] := by
    rw [memberChars, Ne, List.map_eq_nil_iff]
    refine separateCapitals_ne_nil ?_
    split
    · exact List.cons_ne_nil _ _
    · exact squeeze_ne_nil _ _ fun hnil => h (String.toList_eq_nil_iff.mp hnil)
  rw [ofMember, Ne, ← String.toList_eq_nil_iff, String.toList_ofList]
  exact hchars

end Name

namespace Json

variable {style : Style} {depth : Nat}

theorem enclose_ne_empty {opening : String} (h : opening ≠ "") (closing : String)
    (pieces : List String) : enclose style depth opening closing pieces ≠ "" := by
  have hfront : ∃ back, enclose style depth opening closing pieces = opening ++ back := by
    unfold enclose
    split
    · exact ⟨_, rfl⟩
    · split
      · exact ⟨_, String.append_assoc⟩
      · rw [String.append_assoc, String.append_assoc, String.append_assoc]
        exact ⟨_, rfl⟩
  obtain ⟨back, hback⟩ := hfront
  rw [hback, Ne, String.append_eq_empty_iff]
  exact fun hempty => h hempty.1

/-- What is no scalar is written in brackets. -/
theorem ne_empty_of_write {node : Node} {text : String} (hscalar : ∀ s, node ≠ .scalar s)
    (h : write style depth node = .ok text) : text ≠ "" := by
  cases node with
  | scalar s => exact absurd rfl (hscalar s)
  | list items =>
    obtain ⟨pieces, _, rfl⟩ := Except.map_eq_ok_iff.mp h
    exact enclose_ne_empty (by decide) _ _
  | map entries =>
    rw [write] at h
    split at h
    · cases h
    · obtain ⟨pieces, _, rfl⟩ := Except.map_eq_ok_iff.mp h
      exact enclose_ne_empty (by decide) _ _
  | set items => cases h
  | pair x y =>
    rw [write] at h
    split at h
    · cases h
    · obtain ⟨second, _, rfl⟩ := Except.map_eq_ok_iff.mp h
      exact enclose_ne_empty (by decide) _ _
  | endless => cases h

end Json

namespace Enumerator

/-! ### Values that stand for something -/

theorem not_isPresent_iff {value : Node} :
    ¬ isPresent value = true ↔ value = .null ∨ value = .str "" := by
  constructor
  · intro h
    unfold isPresent at h
    split at h
    · exact .inl rfl
    · rename_i s
      rw [Bool.not_eq_true', Bool.not_eq_false, String.isEmpty_iff] at h
      exact .inr (congrArg Node.str h)
    · exact absurd rfl h
  · rintro (rfl | rfl) <;> decide

theorem not_isPresent_of_sameValue {a b : Node} (h : sameValue a b = true)
    (habsent : ¬ isPresent a = true) : ¬ isPresent b = true := by
  have hsame := same_of_sameValue h
  rw [not_isPresent_iff] at habsent ⊢
  rcases habsent with rfl | rfl
  · cases b with
    | scalar s =>
      cases s with
      | null => exact .inl rfl
      | _ => cases hsame
    | _ => cases hsame
  · cases b with
    | scalar s =>
      cases s with
      | str s =>
        have heq : "" = s := beq_iff_eq.mp hsame
        exact .inr (by rw [heq])
      | _ => cases hsame
    | _ => cases hsame

/-- The name of a member is not empty if its value stands for something. -/
theorem name_ne_empty {value : Node} {e : Enumerator} (hpresent : isPresent value = true)
    (h : ofValue value = .ok e) : e.name ≠ "" := by
  have hnumber {n : Number} (h : ofNumber n = .ok e) : e.name ≠ "" := by
    obtain ⟨literal, _, rfl⟩ := exists_literal_of_ofNumber h
    rw [numbered, Ne, String.append_eq_empty_iff, String.append_eq_empty_iff]
    exact fun hempty => absurd hempty.1.1 (by decide)
  have hwritten (hscalar : ∀ s, value ≠ .scalar s) : e.name ≠ "" := by
    unfold ofValue at h
    split at h
    iterate 4 exact absurd rfl (hscalar _)
    split at h
    · rename_i text htext
      cases h
      unfold Json.render at htext
      split at htext
      · cases htext
      · exact Name.ofMember_ne_empty (Json.ne_empty_of_write hscalar htext)
    · cases h
  cases value with
  | scalar s =>
    cases s with
    | null => exact absurd hpresent (by decide)
    | bool b =>
      cases h
      exact Name.ofMember_ne_empty (by split <;> decide)
    | int n => exact hnumber h
    | float x => exact hnumber h
    | str s =>
      cases h
      refine Name.ofMember_ne_empty fun hempty => ?_
      exact absurd hpresent (not_isPresent_iff.mpr (.inr (congrArg Node.str hempty)))
    | moment m => cases h
    | bytes b => cases h
  | _ => exact hwritten fun _ heq => (nomatch heq)

/-! ### Members of lists of values -/

section
variable {values : List Node} {schema : Node} {members : List Enumerator} {e : Enumerator}

theorem name_ne_empty_of_mem (h : ofValues (.list values) = .ok members) (he : e ∈ members) :
    e.name ≠ "" := by
  obtain ⟨made, hmade, rfl⟩ := exists_of_ofValues h
  obtain ⟨value, hvalue, hof⟩ := Except.exists_mem_of_mapM hmade (mem_of_mem_uniqueByName he)
  exact name_ne_empty (List.mem_filter.mp hvalue).2 hof

/-- An enumeration has no members just if no value of it stands for anything. -/
theorem eq_nil_iff (h : ofValues (.list values) = .ok members) :
    members = [] ↔ ∀ value ∈ values, value = .null ∨ value = .str "" := by
  obtain ⟨made, hmade, rfl⟩ := exists_of_ofValues h
  have hlength := (Except.mapM_eq_ok_iff.mp hmade).length_eq
  calc uniqueByName name made = [] ↔ made = [] := by rw [uniqueByName_eq, firstOnes_eq_nil_iff]
    _ ↔ (withoutRepeats values).filter isPresent = [] := by
      rw [← List.length_eq_zero_iff, ← hlength, List.length_eq_zero_iff]
    _ ↔ ∀ value ∈ withoutRepeats values, ¬ isPresent value = true := List.filter_eq_nil_iff
    _ ↔ ∀ value ∈ values, ¬ isPresent value = true :=
      forall_mem_firstOnes_iff fun _ _ _ _ hsame => not_isPresent_of_sameValue hsame
    _ ↔ ∀ value ∈ values, value = .null ∨ value = .str "" :=
      forall₂_congr fun _ _ => not_isPresent_iff

/-! ### Members with the names of a schema -/

theorem map_value_mapIdx_labelAt (schema : Node) (members : List Enumerator) :
    (members.mapIdx (labelAt schema)).map value = members.map value := by
  refine List.ext_getElem? fun k => ?_
  rw [List.getElem?_map, List.getElem?_mapIdx, List.getElem?_map]
  cases members[k]? <;> rfl

theorem map_value_extend_sublist (members : List Enumerator) (schema : Node) :
    ((extend members schema).map value).Sublist (members.map value) := by
  rw [← map_value_mapIdx_labelAt schema members]
  exact (firstOnes_sublist _).map value

theorem extend_eq_nil_iff (members : List Enumerator) (schema : Node) :
    extend members schema = [] ↔ members = [] := by
  rw [extend_eq, uniqueByName_eq, firstOnes_eq_nil_iff, List.mapIdx_eq_nil_iff]

theorem ne_empty_of_textAt? {texts : List String} {index : Nat} {text : String}
    (h : textAt? texts index = some text) : text ≠ "" := by
  obtain ⟨_, htext⟩ := Option.filter_eq_some_iff.mp h
  rintro rfl
  exact absurd htext (by decide)

theorem name_labelAt_ne_empty (schema : Node) (index : Nat) (h : e.name ≠ "") :
    (labelAt schema index e).name ≠ "" := by
  rw [labelAt]
  dsimp only
  cases htext : textAt? (texts (schema.get "x-enum-varnames")) index with
  | none => exact h
  | some text => exact ne_empty_of_textAt? htext

/-- What is promised of the members of a list of values once a schema has renamed them. -/
structure WellMade (values : List Node) (members labelled : List Enumerator) : Prop where
  names_nodup : (labelled.map name).Nodup
  names_ne_empty : ∀ e ∈ labelled, e.name ≠ ""
  values_nodup : (labelled.map value).Nodup
  values_sublist : (labelled.map value).Sublist (members.map value)
  eq_nil_iff : labelled = [] ↔ ∀ value ∈ values, value = .null ∨ value = .str ""

theorem WellMade.of_ofValues (schema : Node) (h : ofValues (.list values) = .ok members) :
    WellMade values members (extend members schema) where
  names_nodup := nodup_map_uniqueByName name _
  names_ne_empty e he := by
    obtain ⟨k, hk, rfl⟩ := List.exists_of_mem_mapIdx (mem_of_mem_uniqueByName he)
    exact name_labelAt_ne_empty schema k (name_ne_empty_of_mem h (List.getElem_mem hk))
  values_nodup := (map_value_extend_sublist members schema).nodup (nodup_map_value h)
  values_sublist := map_value_extend_sublist members schema
  eq_nil_iff := (extend_eq_nil_iff members schema).trans (Enumerator.eq_nil_iff h)

end

/-- Unless an integer is too long to be written, a list of values has members, and whatever a schema
calls them, their names and their literals are as they should be; unless a number in it is too long
to be read, so does a description, and the names of its members are different. -/
theorem wellMade_extend {values : List Node} (plain : ∀ value ∈ values, value.HasNotation)
    (schema description : Node) :
    Except.OkIff (∀ value ∈ values, value.IntsFit) (.malformed .longNumber)
      (ofValues (.list values)) ∧
    (∀ members, ofValues (.list values) = .ok members →
      WellMade values members (extend members schema)) ∧
    Except.OkIff (∀ p ∈ listedPairs description, p.2.length ≤ Number.longest)
      (.malformed .noDecimal) (ofDescription description) ∧
    ∀ members, ofDescription description = .ok members → (members.map name).Nodup :=
  ⟨okIff_ofValues plain, fun _ => .of_ofValues schema, okIff_ofDescription description,
    fun _ => nodup_names_of_ofDescription⟩

/-- A number, a truth value, a text and a list, each with a member, and null. -/
def mixedValues : List Node := [.int 1, .bool true, .str "a-b", .list [.int 1], .null]

/-- The first two members get the names that the schema has, the others keep theirs. -/
theorem wellMade_mixedValues :
    (∀ value ∈ mixedValues, value.HasNotation) ∧
    (∃ members, ofValues (.list mixedValues) = .ok members ∧
      WellMade mixedValues members (extend members prioritySchema) ∧
      (extend members prioritySchema).map name = ["Low", "High", "A_B", "_1_"]) ∧
    ∃ members, ofDescription (.str "Active=1,Inactive=2") = .ok members ∧
      (members.map name).Nodup ∧ members.map name = ["ACTIVE", "INACTIVE"] := by
  have hplain : ∀ value ∈ mixedValues, value.HasNotation := by
    simp only [mixedValues, List.forall_mem_cons]
    refine ⟨.int 1, .bool true, .str "a-b", .list ?_, .null, nofun⟩
    exact fun x hx => List.mem_singleton.mp hx ▸ .int 1
  obtain ⟨_, hmembers, _, hdescribed⟩ :=
    wellMade_extend hplain prioritySchema (.str "Active=1,Inactive=2")
  have hnames : (ofValues (.list mixedValues)).toOption.map
      (fun members => (extend members prioritySchema).map name) =
        some ["Low", "High", "A_B", "_1_"] := by decide +kernel
  have hpairs : (ofDescription (.str "Active=1,Inactive=2")).toOption.map (List.map name) =
      some ["ACTIVE", "INACTIVE"] := by decide +kernel
  obtain ⟨members, hof, hnames⟩ := Except.exists_of_toOption_map hnames
  obtain ⟨described, hof', hpairs⟩ := Except.exists_of_toOption_map hpairs
  exact ⟨hplain, ⟨members, hof, hmembers members hof, hnames⟩,
    described, hof', hdescribed described hof', hpairs⟩

/-- One member, whose number has one digit more than can be read. -/
def longDescription : String :=
  String.ofList ('A' :: '=' :: List.replicate (Number.longest + 1) '1')

theorem pair?_longDescription : pair? longDescription.toList =
    some ((['A'], List.replicate (Number.longest + 1) '1'), []) := by
  have hword : ∀ c ∈ ['A'], Text.isWord c = true :=
    fun c hc => List.mem_singleton.mp hc ▸ rfl
  have hdigits : ∀ c ∈ List.replicate (Number.longest + 1) '1', c.isDigit = true :=
    fun c hc => List.eq_of_mem_replicate hc ▸ rfl
  have hlist : 'A' :: '=' :: List.replicate (Number.longest + 1) '1' =
      ['A'] ++ '=' :: (List.replicate (Number.longest + 1) '1' ++ []) := by
    rw [List.append_nil]
    rfl
  rw [longDescription, String.toList_ofList, hlist]
  exact pair?_append hword hdigits (List.cons_ne_nil _ _) (List.cons_ne_nil _ _) nofun

/-- A description may list a number that is too long to be read. -/
theorem not_wellMade_of_longDescription :
    ¬ ((∀ values : List Node, (∀ value ∈ values, value.HasNotation) → ∀ schema : Node,
        ∃ members, ofValues (.list values) = .ok members ∧
          WellMade values members (extend members schema)) ∧
      ∀ description : String, ∃ members, ofDescription (.str description) = .ok members ∧
        (members.map name).Nodup) := by
  rintro ⟨_, h⟩
  obtain ⟨members, hof, _⟩ := h longDescription
  have hshort := (okIff_ofDescription _).exists_iff.mp ⟨members, hof⟩
  rw [listedPairs_of_pair? pair?_longDescription] at hshort
  have hlength := hshort _ List.mem_cons_self
  rw [List.length_replicate] at hlength
  exact Nat.not_succ_le_self _ hlength

end Enumerator
end OpenApi
