import OpenApi.Proofs.Enumerators
import OpenApi.Proofs.Except

/-
Names and descriptions that a schema gives to the values of an enumeration.

Two keywords hold texts for the values, by position, and a value whose entry is missing or empty
keeps its own name.  But neither side is taken as it stands.  Values that are null, empty or
repeated have no member, and entries that are no texts are left out of their list.  The texts that
are left go to the members that are left, from the first one on, so whatever is left out before a
value moves the texts of the values behind it, towards the front or towards the end.

`named_and_described_iff` says when a value gets what is written for it nevertheless: exactly when
the text at the place of its member among the members comes to the same as the entry at the place of
the value among the values.  That is so where nothing is left out before the value, on either side
(`textAt?_texts`).
-/
namespace OpenApi.Enumerator

/-! ### Entries and texts -/

/-- The text that a keyword has at an index, unless it is empty. -/
def entryAt? (node : Node) (index : Nat) : Option String :=
  (((node.items?.getD [])[index]?).bind Node.str?).filter (!·.isEmpty)

theorem texts_eq (node : Node) : texts node = (node.items?.getD []).filterMap Node.str? := by
  cases node <;> rfl

/-- Where nothing is left out of a list of texts, the text at an index is the entry. -/
theorem textAt?_texts {node : Node} {index : Nat}
    (h : ∀ entry ∈ (node.items?.getD []).take (index + 1), entry.kind = .str) :
    textAt? (texts node) index = entryAt? node index := by
  have hat (items : List Node) (index : Nat)
      (h : ∀ entry ∈ items.take (index + 1), entry.kind = .str) :
      (items.filterMap Node.str?)[index]? = (items[index]?).bind Node.str? := by
    induction items generalizing index with
    | nil => rfl
    | cons first rest ih =>
      rw [List.take_succ_cons, List.forall_mem_cons] at h
      obtain ⟨text, rfl⟩ := Node.exists_text_of_kind h.1
      rw [List.filterMap_cons_some (show Node.str? (.str text) = some text from rfl)]
      cases index with
      | zero => rfl
      | succ index => exact ih index h.2
  rw [textAt?, texts_eq, hat _ _ h, entryAt?]

/-! ### The members by position -/

/-- A member with the name and the description that the texts have at an index. -/
def labelAt (schema : Node) (index : Nat) (member : Enumerator) : Enumerator :=
  { member with
    name := (textAt? (texts (schema.get "x-enum-varnames")) index).getD member.name
    description := (textAt? (texts (schema.get "x-enum-descriptions")) index).or
      member.description }

theorem extend_eq (members : List Enumerator) (schema : Node) :
    extend members schema = uniqueByName name (members.mapIdx (labelAt schema)) := rfl

/-- The only member with a value. -/
structure IsMemberFor (members : List Enumerator) (value : String) (member : Enumerator) :
    Prop where
  mem : member ∈ members
  value_eq : member.value = value
  only : ∀ other ∈ members, other.value = value → other = member

section
variable {values : List Node} {schema value : Node} {members : List Enumerator} {e : Enumerator}

/-- The member that carries a value after names and descriptions have been given: the one that
carried it before, with the texts at its place. -/
theorem isMemberFor_extend_iff (h : ofValues (.list values) = .ok members)
    (hdistinct : ((members.mapIdx (labelAt schema)).map name).Nodup)
    (he : ofValue value = .ok e) {m : Enumerator} :
    IsMemberFor (extend members schema) e.value m ↔
      ∃ k, members[k]? = some e ∧ m = labelAt schema k e := by
  rw [extend_eq, uniqueByName_eq_self hdistinct]
  have hfrom {m : Enumerator} (hm : m ∈ members.mapIdx (labelAt schema))
      (hvalue : m.value = e.value) : ∃ k, members[k]? = some e ∧ m = labelAt schema k e := by
    obtain ⟨k, hk, rfl⟩ := List.exists_of_mem_mapIdx hm
    obtain ⟨_, _, hof⟩ := exists_value_of_mem h (List.getElem_mem hk)
    have hsame : members[k] = e := eq_of_value_eq hof he hvalue
    exact ⟨k, hsame ▸ List.getElem?_eq_getElem hk, by rw [hsame]⟩
  constructor
  · exact fun hm => hfrom hm.mem hm.value_eq
  · rintro ⟨k, hk, rfl⟩
    have hlabelled : (members.mapIdx (labelAt schema))[k]? = some (labelAt schema k e) := by
      rw [List.getElem?_mapIdx, hk]
      rfl
    refine ⟨List.mem_of_getElem? hlabelled, rfl, fun other hother hvalue => ?_⟩
    obtain ⟨k', hk', rfl⟩ := hfrom hother hvalue
    rw [index_eq_of_value_eq h hk hk' rfl]

/-- A value that nothing before it repeats has its member behind those of the values before it. -/
theorem getElem?_of_unrepeated (h : ofValues (.list values) = .ok members) {i : Nat}
    (hi : values[i]? = some value) (hpresent : isPresent value = true)
    (he : ofValue value = .ok e)
    (hfirst : ∀ other ∈ values.take i, isPresent other = true → ∀ e', ofValue other = .ok e' →
      e'.name ≠ e.name)
    (hunrepeated : ∀ other ∈ values.take i, sameValue other value = false) :
    ∃ before, ofValues (.list (values.take i)) = .ok before ∧
      members[before.length]? = some e := by
  obtain ⟨hlt, hget⟩ := List.getElem?_eq_some_iff.mp hi
  have hsplit : values = values.take i ++ value :: values.drop (i + 1) := by
    rw [← hget, List.cons_getElem_drop_succ, List.take_append_drop]
  obtain ⟨made, hmade, rfl⟩ := exists_of_ofValues h
  obtain ⟨more, hmore⟩ := @exists_firstOnes_eq _ sameValue (values.take i) value
    (fun y hy => hunrepeated y ((firstOnes_sublist _).subset hy)) (values.drop (i + 1))
  rw [hsplit, withoutRepeats_eq, hmore, List.filter_append, List.filter_cons_of_pos hpresent,
    List.mapM_append] at hmade
  obtain ⟨front, hfront, hmade⟩ := Except.bind_eq_ok_iff.mp hmade
  obtain ⟨back, hback, hmade⟩ := Except.bind_eq_ok_iff.mp hmade
  obtain rfl := Except.pure_eq_ok_iff.mp hmade
  rw [List.mapM_cons, he] at hback
  obtain ⟨rest, _, hback⟩ := Except.map_eq_ok_iff.mp hback
  subst hback
  -- The values are told apart before their members are made, and the members once more by name.
  have hnew (other : Enumerator) (hother : other ∈ uniqueByName name front) :
      (other.name == e.name) = false := by
    obtain ⟨w, hw, hof⟩ := Except.exists_mem_of_mapM hfront (mem_of_mem_uniqueByName hother)
    obtain ⟨hw, hthere⟩ := List.mem_filter.mp hw
    exact beq_eq_false_iff_ne.mpr
      (hfirst w ((firstOnes_sublist _).subset hw) hthere other hof)
  obtain ⟨others, hothers⟩ := exists_firstOnes_eq hnew rest
  refine ⟨uniqueByName name front, ?_, ?_⟩
  · exact Except.bind_eq_ok_iff.mpr ⟨front, hfront, rfl⟩
  · rw [uniqueByName_eq, hothers, uniqueByName_eq, List.getElem?_append_right (Nat.le_refl _),
      Nat.sub_self]
    rfl

theorem description_of_ofValue (he : ofValue value = .ok e) : e.description = none := by
  rcases ofValue_cases he with ⟨s, rfl⟩ | ⟨n, digits, _, rfl⟩
  · rfl
  · rfl

/-- What is written for a value, the first with its name, lands on its member if the names do not
clash: exactly when the text at the place of the member comes to the same as the entry at the place
of the value.  Unless an earlier value repeats it, that is the place behind the members of the
values before it. -/
theorem named_and_described_iff (h : ofValues (.list values) = .ok members)
    (hdistinct : ((members.mapIdx (labelAt schema)).map name).Nodup) {i : Nat}
    (hi : values[i]? = some value) (hpresent : isPresent value = true)
    (he : ofValue value = .ok e)
    (hfirst : ∀ other ∈ values.take i, isPresent other = true → ∀ e', ofValue other = .ok e' →
      e'.name ≠ e.name) :
    ((∃ m, IsMemberFor (extend members schema) e.value m ∧
        m.name = (entryAt? (schema.get "x-enum-varnames") i).getD e.name) ↔
      ∃ k, members[k]? = some e ∧
        (textAt? (texts (schema.get "x-enum-varnames")) k).getD e.name =
          (entryAt? (schema.get "x-enum-varnames") i).getD e.name) ∧
    ((∃ m, IsMemberFor (extend members schema) e.value m ∧
        m.description = entryAt? (schema.get "x-enum-descriptions") i) ↔
      ∃ k, members[k]? = some e ∧
        textAt? (texts (schema.get "x-enum-descriptions")) k =
          entryAt? (schema.get "x-enum-descriptions") i) ∧
    ((∀ other ∈ values.take i, sameValue other value = false) →
      ∃ before, ofValues (.list (values.take i)) = .ok before ∧
        members[before.length]? = some e) := by
  have hmember (m : Enumerator) : IsMemberFor (extend members schema) e.value m ↔
      ∃ k, members[k]? = some e ∧ m = labelAt schema k e := isMemberFor_extend_iff h hdistinct he
  have hdescription (k : Nat) : (labelAt schema k e).description =
      textAt? (texts (schema.get "x-enum-descriptions")) k := by
    rw [labelAt, description_of_ofValue he]
    exact Option.or_none
  refine ⟨?_, ?_, getElem?_of_unrepeated h hi hpresent he hfirst⟩
  · constructor
    · rintro ⟨m, hm, hname⟩
      obtain ⟨k, hk, rfl⟩ := (hmember m).mp hm
      exact ⟨k, hk, hname⟩
    · rintro ⟨k, hk, hname⟩
      exact ⟨_, (hmember _).mpr ⟨k, hk, rfl⟩, hname⟩
  · constructor
    · rintro ⟨m, hm, hdesc⟩
      obtain ⟨k, hk, rfl⟩ := (hmember m).mp hm
      exact ⟨k, hk, (hdescription k).symm.trans hdesc⟩
    · rintro ⟨k, hk, hdesc⟩
      exact ⟨_, (hmember _).mpr ⟨k, hk, rfl⟩, (hdescription k).trans hdesc⟩

/-- Where nothing is left out before a value, on either side, it gets what is written for it. -/
theorem isMemberFor_of_aligned (h : ofValues (.list values) = .ok members)
    (hdistinct : ((members.mapIdx (labelAt schema)).map name).Nodup) {i : Nat}
    (he : ofValue value = .ok e) (haligned : members[i]? = some e)
    (hnames : ∀ entry ∈ ((schema.get "x-enum-varnames").items?.getD []).take (i + 1),
      entry.kind = .str)
    (hdescriptions : ∀ entry ∈ ((schema.get "x-enum-descriptions").items?.getD []).take (i + 1),
      entry.kind = .str) :
    IsMemberFor (extend members schema) e.value
      { e with
        name := (entryAt? (schema.get "x-enum-varnames") i).getD e.name
        description := entryAt? (schema.get "x-enum-descriptions") i } := by
  refine (isMemberFor_extend_iff h hdistinct he).mpr ⟨i, haligned, ?_⟩
  rw [labelAt, textAt?_texts hnames, textAt?_texts hdescriptions, description_of_ofValue he,
    Option.or_none]

end

/-! ### Priorities with names -/

theorem ofValues_priorities :
    ofValues (.list [.int 1, .int 2]) = .ok [numbered "1", numbered "2"] := by
  have hmembers : (ofValues (.list [.int 1, .int 2])).toOption.map id =
      some [numbered "1", numbered "2"] := by decide +kernel
  obtain ⟨members, hof, rfl⟩ := Except.exists_of_toOption_map hmembers
  exact hof

theorem ofValue_priority : ofValue (.int 1) = .ok (numbered "1") ∧
    ofValue (.int 2) = .ok (numbered "2") := by
  have hmembers : (ofValue (.int 1)).toOption.map id = some (numbered "1") ∧
      (ofValue (.int 2)).toOption.map id = some (numbered "2") := by decide +kernel
  obtain ⟨_, hone, rfl⟩ := Except.exists_of_toOption_map hmembers.1
  obtain ⟨_, htwo, rfl⟩ := Except.exists_of_toOption_map hmembers.2
  exact ⟨hone, htwo⟩

/-- Two priorities have names, and the first one has a description. -/
def prioritySchema : Node := .map
  [(.str "x-enum-varnames", .list [.str "Low", .str "High"]),
    (.str "x-enum-descriptions", .list [.str "Low priority"])]

theorem named_and_described_high :
    ofValues (.list [.int 1, .int 2]) = .ok [numbered "1", numbered "2"] ∧
    (([numbered "1", numbered "2"].mapIdx (labelAt prioritySchema)).map name).Nodup ∧
    isPresent (.int 2) = true ∧ ofValue (.int 2) = .ok (numbered "2") ∧
    (∀ other ∈ [Node.int 1], isPresent other = true → ∀ e', ofValue other = .ok e' →
      e'.name ≠ (numbered "2").name) ∧
    (∃ m, IsMemberFor (extend [numbered "1", numbered "2"] prioritySchema) "2" m ∧
      m.name = "High") ∧
    ∃ m, IsMemberFor (extend [numbered "1", numbered "2"] prioritySchema) "2" m ∧
      m.description = none := by
  have hdistinct : (([numbered "1", numbered "2"].mapIdx (labelAt prioritySchema)).map
      name).Nodup := by decide +kernel
  have hfirst : ∀ other ∈ [Node.int 1], isPresent other = true → ∀ e', ofValue other = .ok e' →
      e'.name ≠ (numbered "2").name := by
    intro other hother _ e' he'
    rw [List.mem_singleton.mp hother, ofValue_priority.1] at he'
    cases he'
    decide +kernel
  obtain ⟨hname, hdescription, _⟩ := @named_and_described_iff _ prioritySchema _ _ _
    ofValues_priorities hdistinct 1 rfl rfl ofValue_priority.2 hfirst
  exact ⟨ofValues_priorities, hdistinct, rfl, ofValue_priority.2, hfirst,
    hname.mpr ⟨1, rfl, by decide +kernel⟩, hdescription.mpr ⟨1, rfl, by decide +kernel⟩⟩

/-- The first priority is to keep its own name. -/
def unnamedSchema : Node := .map [(.str "x-enum-varnames", .list [.null, .str "High"])]

/-- An entry that is no text does not keep its place, so the name behind it lands on the value
before the one that it is written for. -/
theorem not_named_of_no_text : ¬ ∀ (values : List Node) (schema value : Node)
    (members : List Enumerator) (e : Enumerator) (i : Nat),
    ofValues (.list values) = .ok members →
      ((members.mapIdx (labelAt schema)).map name).Nodup →
        values[i]? = some value → isPresent value = true → ofValue value = .ok e →
          (∀ other ∈ values.take i, isPresent other = true → ∀ e', ofValue other = .ok e' →
            e'.name ≠ e.name) →
            ∃ m, IsMemberFor (extend members schema) e.value m ∧
              m.name = (entryAt? (schema.get "x-enum-varnames") i).getD e.name := by
  intro h
  obtain ⟨m, hm, hname⟩ := h [.int 1, .int 2] unnamedSchema (.int 1)
    [numbered "1", numbered "2"] (numbered "1") 0 ofValues_priorities (by decide +kernel) rfl rfl
    ofValue_priority.1 nofun
  have hnames : ∀ m ∈ extend [numbered "1", numbered "2"] unnamedSchema,
      m.value = "1" → m.name = "High" := by decide +kernel
  have hexpected : (entryAt? (unnamedSchema.get "x-enum-varnames") 0).getD (numbered "1").name =
      "'_1'" := by decide +kernel
  rw [hexpected, hnames m hm.mem hm.value_eq] at hname
  exact absurd hname (by decide)

end OpenApi.Enumerator
