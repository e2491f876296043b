import OpenApi.Proofs.DistinctMembers

/-
Members of a list of values, and members of its values one by one.

A list of values is looked through for repeats before its members are made, and its members are
looked through for names that are there already.  The second look alone would do, as long as a
repeat has the name of what it repeats.  It has if it is a scalar.  Lists and maps are equal as soon
as their parts are, and numbers are equal whatever their kind, so `[1]` and `[true]` are equal
although their texts differ, and the second one is lost (`not_ofValues_eq_composed`).

`ofValues_eq_composed_iff` says that such losses are the only difference.
-/
namespace OpenApi.Enumerator

/-- The members of the values one by one, without those whose name is there already. -/
def composed (values : List Node) : Except Failure (List Enumerator) :=
  (values.mapM fun value => ofValues (.list [value])).map fun members =>
    uniqueByName name members.flatten

/-- A value that is left out as a repeat, though no member before it has its name. -/
structure Lost (front : List Node) (value : Node) : Prop where
  present : isPresent value = true
  repeated : ∃ first ∈ withoutRepeats front, sameValue first value = true
  new : ∃ e, ofValue value = .ok e ∧
    ∀ other ∈ front, isPresent other = true → ∀ e', ofValue other = .ok e' → e'.name ≠ e.name

/-! ### Scalars -/

theorem kind_eq_of_sameValue {a b : Node} (h : sameValue a b = true) : a.kind = b.kind := by
  unfold sameValue at h
  split at h
  · rfl
  · simp only [Bool.and_eq_true] at h
    exact beq_iff_eq.mp h.1.1.1

/-- What equals a scalar has its member. -/
theorem ofValue_of_sameValue {value : Node} {s : Scalar} {e : Enumerator}
    (hof : ofValue (.scalar s) = .ok e) (h : sameValue value (.scalar s) = true) :
    ofValue value = .ok e := by
  have hsame := same_of_sameValue h
  have hkind := kind_eq_of_sameValue h
  cases value with
  | scalar t =>
    cases s with
    | moment m => cases hof
    | bytes b => cases hof
    | null =>
      cases t with
      | null => exact hof
      | _ => cases hsame
    | bool b =>
      cases t with
      | bool c =>
        have heq : c = b := by
          revert hsame
          cases b <;> cases c <;> decide
        rw [heq]
        exact hof
      | moment m => cases hsame
      | _ => cases hkind
    | int n =>
      cases t with
      | int m =>
        have heq : m = n := beq_iff_eq.mp hsame
        rw [heq]
        exact hof
      | moment m => cases hsame
      | _ => cases hkind
    | float y =>
      cases t with
      | float x =>
        have hliteral := Number.literal?_eq_of_equals (show x.equals y = true from h)
        have heq : ofNumber (.float x) = ofNumber (.float y) := by rw [ofNumber, ofNumber, hliteral]
        exact heq.trans hof
      | moment m => cases hsame
      | _ => cases hkind
    | str s =>
      cases t with
      | str s' =>
        have heq : s' = s := beq_iff_eq.mp hsame
        rw [heq]
        exact hof
      | _ => cases hsame
  | _ => cases hsame

/-- No scalar is lost. -/
theorem Lost.ne_scalar {front : List Node} {value : Node} (lost : Lost front value) (s : Scalar) :
    value ≠ .scalar s := by
  rintro rfl
  obtain ⟨first, hfirst, hsame⟩ := lost.repeated
  obtain ⟨e, hof, hnew⟩ := lost.new
  have hpresent : isPresent first = true := by
    by_contra habsent
    exact not_isPresent_of_sameValue hsame habsent lost.present
  exact hnew first ((firstOnes_sublist front).subset hfirst) hpresent e
    (ofValue_of_sameValue hof hsame) rfl

/-! ### One more value -/

theorem composed_eq (values : List Node) :
    composed values = ((values.filter isPresent).mapM ofValue).map (uniqueByName name) := by
  have hflat : (values.mapM fun value => ofValues (.list [value])).map List.flatten =
      (values.filter isPresent).mapM ofValue := by
    induction values with
    | nil => rfl
    | cons value rest ih =>
      rw [List.mapM_cons, ofValues_singleton]
      by_cases hpresent : isPresent value = true
      · rw [if_pos hpresent, List.filter_cons_of_pos hpresent, List.mapM_cons, ← ih]
        cases ofValue value with
        | error cause => rfl
        | ok e => cases rest.mapM fun value => ofValues (.list [value]) <;> rfl
      · rw [if_neg hpresent, List.filter_cons_of_neg hpresent, ← ih]
        cases rest.mapM fun value => ofValues (.list [value]) <;> rfl
  rw [← hflat, composed]
  cases values.mapM fun value => ofValues (.list [value]) <;> rfl

theorem map_filter_concat (made : Node → Enumerator) (front : List Node) (value : Node) :
    ((front ++ [value]).filter isPresent).map made =
      (front.filter isPresent).map made ++ if isPresent value = true then [made value] else [] := by
  rw [List.filter_append, List.map_append]
  by_cases hpresent : isPresent value = true
  · rw [List.filter_cons_of_pos hpresent, if_pos hpresent]
    rfl
  · rw [List.filter_cons_of_neg hpresent, if_neg hpresent]
    rfl

section
variable {front values : List Node} {value : Node} {made : Node → Enumerator}

theorem ofValues_eq_ok (hmade : ∀ value ∈ values, ofValue value = .ok (made value)) :
    ofValues (.list values) =
      .ok (uniqueByName name (((withoutRepeats values).filter isPresent).map made)) := by
  rw [ofValues_eq, @Except.mapM_eq_ok_map _ _ _ _ made]
  · rfl
  · exact fun value hvalue => hmade value
      ((firstOnes_sublist values).subset (List.mem_of_mem_filter hvalue))

theorem composed_eq_ok (hmade : ∀ value ∈ values, ofValue value = .ok (made value)) :
    composed values = .ok (uniqueByName name ((values.filter isPresent).map made)) := by
  rw [composed_eq, @Except.mapM_eq_ok_map _ _ _ _ made]
  · rfl
  · exact fun value hvalue => hmade value (List.mem_of_mem_filter hvalue)

theorem lost_iff (hmade : ∀ other ∈ front ++ [value], ofValue other = .ok (made other)) :
    Lost front value ↔ isPresent value = true ∧
      (∃ first ∈ withoutRepeats front, sameValue first value = true) ∧
        (made value).name ∉ ((front.filter isPresent).map made).map name := by
  have hvalue : ofValue value = .ok (made value) :=
    hmade value (List.mem_append_right _ (List.mem_singleton_self value))
  have hfront {other : Node} (hother : other ∈ front) : ofValue other = .ok (made other) :=
    hmade other (List.mem_append_left _ hother)
  constructor
  · rintro ⟨hpresent, hrepeated, e, hof, hnew⟩
    obtain rfl : made value = e := Except.ok.inj (hvalue.symm.trans hof)
    refine ⟨hpresent, hrepeated, fun hmem => ?_⟩
    obtain ⟨_, he, hname⟩ := List.mem_map.mp hmem
    obtain ⟨other, hother, rfl⟩ := List.mem_map.mp he
    obtain ⟨hmem, hthere⟩ := List.mem_filter.mp hother
    exact hnew other hmem hthere _ (hfront hmem) hname
  · rintro ⟨hpresent, hrepeated, hnew⟩
    refine ⟨hpresent, hrepeated, made value, hvalue, fun other hmem hthere e hof hname => hnew ?_⟩
    obtain rfl : made other = e := Except.ok.inj ((hfront hmem).symm.trans hof)
    exact List.mem_map.mpr
      ⟨_, List.mem_map_of_mem (List.mem_filter.mpr ⟨hmem, hthere⟩), hname⟩

/-- Where there was no difference, one more value makes one exactly if it is lost. -/
theorem ofValues_concat_eq_iff
    (hmade : ∀ other ∈ front ++ [value], ofValue other = .ok (made other))
    (h : ofValues (.list front) = composed front) :
    ofValues (.list (front ++ [value])) = composed (front ++ [value]) ↔ ¬ Lost front value := by
  have hfront : ∀ other ∈ front, ofValue other = .ok (made other) :=
    fun other hother => hmade other (List.mem_append_left _ hother)
  rw [ofValues_eq_ok hfront, composed_eq_ok hfront, Except.ok.injEq] at h
  rw [ofValues_eq_ok hmade, composed_eq_ok hmade, Except.ok.injEq, lost_iff hmade,
    map_filter_concat, withoutRepeats_eq]
  by_cases hrepeat : ∃ first ∈ firstOnes sameValue front, sameValue first value = true
  -- A repeat is left out on one side only, so it must have a name that is there already.
  · rw [firstOnes_concat_of_like hrepeat, ← withoutRepeats_eq, h]
    by_cases hpresent : isPresent value = true
    · rw [if_pos hpresent]
      by_cases hthere : (made value).name ∈ ((front.filter isPresent).map made).map name
      · rw [uniqueByName_concat_of_mem hthere]
        exact ⟨fun _ lost => lost.2.2 hthere, fun _ => rfl⟩
      · rw [uniqueByName_concat_of_not_mem hthere, List.self_eq_append_right]
        exact ⟨fun hnil => absurd hnil (List.cons_ne_nil _ _),
          fun kept => absurd ⟨hpresent, hrepeat, hthere⟩ kept⟩
    · rw [if_neg hpresent, List.append_nil]
      exact ⟨fun _ lost => hpresent lost.1, fun _ => rfl⟩
  · have hnew : ∀ first ∈ firstOnes sameValue front, sameValue first value = false :=
      fun first hfirst => Bool.eq_false_iff.mpr fun hsame => hrepeat ⟨first, hfirst, hsame⟩
    rw [firstOnes_concat_of_unlike hnew, map_filter_concat, ← withoutRepeats_eq]
    exact ⟨fun _ lost => hrepeat lost.2.1, fun _ => firstOnes_append_congr h _⟩

/-- Up to any point of a list there is no difference exactly if no value is lost. -/
theorem forall_ofValues_eq_iff (hmade : ∀ value ∈ values, ofValue value = .ok (made value)) :
    (∀ front, front <+: values → ofValues (.list front) = composed front) ↔
      ∀ front value, front ++ [value] <+: values → ¬ Lost front value := by
  have hat {front : List Node} {value : Node} (hfront : front ++ [value] <+: values) :
      ∀ other ∈ front ++ [value], ofValue other = .ok (made other) :=
    fun other hother => hmade other (hfront.subset hother)
  constructor
  · intro h front value hfront
    exact (ofValues_concat_eq_iff (hat hfront) (h front ((List.prefix_append _ _).trans hfront))).mp
      (h _ hfront)
  · intro h front hfront
    induction front using List.reverseRecOn with
    | nil => rfl
    | append_singleton front value ih =>
      exact (ofValues_concat_eq_iff (hat hfront) (ih ((List.prefix_append _ _).trans hfront))).mpr
        (h front value hfront)

theorem okIff_composed (plain : ∀ value ∈ values, value.HasNotation) :
    Except.OkIff (∀ value ∈ values, value.IntsFit) (.malformed .longNumber) (composed values) := by
  rw [composed_eq]
  exact ((Except.OkIff.mapM fun value hvalue =>
    okIff_ofValue (plain value (List.mem_of_mem_filter hvalue))).map _).congr
      intsFit_filter_isPresent_iff

/-- Members of a list and members of its values one by one are refused alike.  Where they are not,
they are the same up to any point of the list exactly if no value is lost, and only a list or a map
may be lost. -/
theorem ofValues_eq_composed_iff (plain : ∀ value ∈ values, value.HasNotation) :
    Except.OkIff (∀ value ∈ values, value.IntsFit) (.malformed .longNumber)
      (ofValues (.list values)) ∧
    Except.OkIff (∀ value ∈ values, value.IntsFit) (.malformed .longNumber) (composed values) ∧
    ((∀ value ∈ values, value.IntsFit) →
      ((∀ front, front <+: values → ofValues (.list front) = composed front) ↔
        ∀ front value, front ++ [value] <+: values → ¬ Lost front value)) ∧
    ∀ front value, Lost front value → ∀ s, value ≠ .scalar s := by
  refine ⟨okIff_ofValues plain, okIff_composed plain, fun fits => ?_, fun _ _ => Lost.ne_scalar⟩
  obtain ⟨made, hmade⟩ := Except.exists_results fun value hvalue =>
    (okIff_ofValue (plain value hvalue)).exists_iff.mpr (fits value hvalue)
  exact forall_ofValues_eq_iff hmade

end

/-- A number twice, a truth value that equals it, and two texts with one name. -/
def scalarValues : List Node := [.int 1, .bool true, .int 1, .str "a-b", .str "a b"]

theorem ofValues_eq_composed_scalarValues :
    (∀ value ∈ scalarValues, value.HasNotation) ∧ (∀ value ∈ scalarValues, value.IntsFit) ∧
    ofValues (.list scalarValues) = composed scalarValues ∧
    ∃ members, composed scalarValues = .ok members ∧
      members.map name = ["'_1'", "TRUE", "A_B"] := by
  have hplain : ∀ value ∈ scalarValues, value.HasNotation := by
    simp only [scalarValues, List.forall_mem_cons]
    exact ⟨.int 1, .bool true, .int 1, .str "a-b", .str "a b", nofun⟩
  have hscalar : ∀ value ∈ scalarValues, ∃ s, value = .scalar s := by
    simp only [scalarValues, List.forall_mem_cons]
    exact ⟨⟨_, rfl⟩, ⟨_, rfl⟩, ⟨_, rfl⟩, ⟨_, rfl⟩, ⟨_, rfl⟩, nofun⟩
  have hnames : (composed scalarValues).toOption.map (List.map name) =
      some ["'_1'", "TRUE", "A_B"] := by decide +kernel
  obtain ⟨members, hcomposed, hnames⟩ := Except.exists_of_toOption_map hnames
  obtain ⟨_, hokIff, hiff, hlost⟩ := ofValues_eq_composed_iff hplain
  have fits := hokIff.exists_iff.mp ⟨members, hcomposed⟩
  refine ⟨hplain, fits, (hiff fits).mpr (fun front value hfront lost => ?_) _ List.prefix_rfl,
    members, hcomposed, hnames⟩
  obtain ⟨s, hs⟩ := hscalar value (hfront.subset (List.mem_append_right _ List.mem_cons_self))
  exact hlost front value lost s hs

/-- Two equal lists with different texts. -/
theorem not_ofValues_eq_composed : ¬ ∀ values : List Node,
    (∀ value ∈ values, value.HasNotation) → ofValues (.list values) = composed values := by
  intro h
  have hplain : ∀ value ∈ [Node.list [.int 1], .list [.bool true]], value.HasNotation := by
    simp only [List.forall_mem_cons]
    refine ⟨.list fun x hx => ?_, .list fun x hx => ?_, nofun⟩
    · exact List.mem_singleton.mp hx ▸ .int 1
    · exact List.mem_singleton.mp hx ▸ .bool true
  have hnames : (ofValues (.list [.list [.int 1], .list [.bool true]])).toOption.map
      (List.map name) = some ["_1_"] := by decide +kernel
  have hnames' : (composed [.list [.int 1], .list [.bool true]]).toOption.map
      (List.map name) = some ["_1_", "_TRUE_"] := by decide +kernel
  rw [h _ hplain, hnames'] at hnames
  exact absurd hnames (by decide)

end OpenApi.Enumerator
