import OpenApi.Proofs.Addresses

/-
What a reference that resolves can look like.

A reference resolves only if each of its segments names a part of the value that has been reached: a
key that a map has, or the index of an item of a list.  Two things are let through besides.  An
empty segment is passed over, also where a key without characters could be meant, and an index may
be written in other ways than with the ten digits alone.  What such an index stands for is left open
here; that it leads to an item, if anywhere, is not.

`resolve_follows_or_misleads` puts the references on two sides, and says of those that do not
resolve which segment is to blame.
-/
namespace OpenApi.Reference

/-- Whether a segment is a numeral of the ten digits, without a sign or white space or anything
else. -/
def IsPlain (segment : String) : Prop :=
  segment.toList ≠ [] ∧ ∀ c ∈ segment.toList, c.isDigit = true

/-- Whether a segment is read as a number although it is no plain numeral. -/
def IsLoose (segment : String) : Prop :=
  (Numeral.signed? segment.toList).isSome = true ∧ ¬ IsPlain segment

/-- Whether a segment names a part of a value. -/
inductive NamesPart : Node → String → Node → Prop where
  | key {entries : Entries} {key : String} {part : Node}
      (found : Entries.get? key entries = some part) : NamesPart (.map entries) key part
  | index {items : List Node} {segment : String} {part : Node} (plain : IsPlain segment)
      (found : items[Numeral.value segment.toList]? = some part) :
      NamesPart (.list items) segment part

/-- Whether a segment names a part once its escapes are undone. -/
def Spells (node : Node) (raw : List Char) (part : Node) : Prop :=
  NamesPart node (String.ofList (decode raw)) part

/-- Whether a segment, as it is written, leads from one value to another. -/
inductive Follows : Node → List Char → Node → Prop where
  | empty {node : Node} : Follows node [] node
  | named {node part : Node} {raw : List Char} (written : raw ≠ [])
      (spells : Spells node raw part) : Follows node raw part
  | loose {items : List Node} {item : Node} {raw : List Char} (written : raw ≠ [])
      (loose : IsLoose (String.ofList (decode raw))) (member : item ∈ items) :
      Follows (.list items) raw item

/-- Whether a segment names nothing in a value, and what is wrong with it. -/
inductive Misses : Node → String → PointerFault → Prop where
  | key {entries : Entries} {key : String} (absent : Entries.get? key entries = none) :
      Misses (.map entries) key (.missingKey key)
  /-- Even a plain numeral is not read if it is too long. -/
  | index {items : List Node} {segment : String}
      (absent : Number.longest < segment.toList.length ∨
        ∀ part, ¬ NamesPart (.list items) segment part) :
      Misses (.list items) segment (.badIndex segment)
  | leaf {node : Node} {segment : String} (noMap : ∀ entries, node ≠ .map entries)
      (noList : ∀ items, node ≠ .list items) : Misses node segment (.leaf node.kind)

/-- Whether the segments that are written lead along a way at first and then name nothing. -/
inductive Strays : Node → List (List Char) → PointerFault → Prop where
  | here {node : Node} {raw : List Char} {rest : List (List Char)} {fault : PointerFault}
      (written : raw ≠ []) (misses : Misses node (String.ofList (decode raw)) fault) :
      Strays node (raw :: rest) fault
  | on {node next : Node} {raw : List Char} {rest : List (List Char)} {fault : PointerFault}
      (first : Follows node raw next) (further : Strays next rest fault) :
      Strays node (raw :: rest) fault

/-- Whether a reference makes no sense in a document, and where it stops to. -/
inductive Misleads (document : Node) (ref : String) : PointerFault → Prop where
  | external (outside : ∀ rest, ref.toList ≠ '#' :: '/' :: rest) : Misleads document ref .external
  | astray {rest : List Char} {fault : PointerFault} (inside : ref.toList = '#' :: '/' :: rest)
      (strays : Strays document (Text.split '/' rest) fault) : Misleads document ref fault

/-! ### One segment -/

theorem NamesPart.get?_eq {entries : Entries} {key : String} {part : Node}
    (h : NamesPart (.map entries) key part) : Entries.get? key entries = some part := by
  cases h with
  | key found => exact found

theorem NamesPart.isPlain {items : List Node} {segment : String} {part : Node}
    (h : NamesPart (.list items) segment part) : IsPlain segment := by
  cases h with
  | index plain _ => exact plain

/-- A plain numeral that is read stands for the item at its value. -/
theorem item?_of_isPlain {segment : String} (plain : IsPlain segment) (items : List Node) :
    (Numeral.signed? segment.toList).bind (item? items) =
      if Number.longest < segment.toList.length then none
      else items[Numeral.value segment.toList]? := by
  rw [Numeral.signed?_of_isDigit plain.1 plain.2]
  by_cases hlong : Number.longest < segment.toList.length
  · rw [if_pos hlong, if_pos hlong, Option.bind_none]
  · rw [if_neg hlong, if_neg hlong, Option.bind_some, item?, if_neg (by omega), Int.toNat_natCast]

/-- What a segment may do in a list. -/
theorem step_list_cases (items : List Node) {raw : List Char} (written : raw ≠ []) :
    (∃ item, Follows (.list items) raw item ∧
        step (.list items) (String.ofList (decode raw)) = .ok item) ∨
      ∃ fault, Misses (.list items) (String.ofList (decode raw)) fault ∧
        step (.list items) (String.ofList (decode raw)) = .error fault := by
  rw [step]
  cases hitem : (Numeral.signed? (String.ofList (decode raw)).toList).bind (item? items) with
  | some item =>
    refine .inl ⟨item, ?_, rfl⟩
    by_cases plain : IsPlain (String.ofList (decode raw))
    · rw [item?_of_isPlain plain, Option.ite_none_left_eq_some] at hitem
      exact .named written (.index plain hitem.2)
    · obtain ⟨index, hindex, hitem⟩ := Option.bind_eq_some_iff.mp hitem
      exact .loose written ⟨Option.isSome_of_eq_some hindex, plain⟩ (mem_of_item? hitem)
  | none =>
    refine .inr ⟨_, .index ?_, rfl⟩
    rw [or_iff_not_imp_left]
    rintro hshort part (_ | ⟨plain, found⟩)
    rw [item?_of_isPlain plain, if_neg hshort, found] at hitem
    cases hitem

/-- A segment that is not empty is followed, or it names nothing. -/
theorem step_follows_or_misses (node : Node) {raw : List Char} (written : raw ≠ []) :
    (∃ next, Follows node raw next ∧ step node (String.ofList (decode raw)) = .ok next) ∨
      ∃ fault, Misses node (String.ofList (decode raw)) fault ∧
        step node (String.ofList (decode raw)) = .error fault := by
  cases node with
  | list items => exact step_list_cases items written
  | map entries =>
    rw [step]
    cases hfound : Entries.get? (String.ofList (decode raw)) entries with
    | some next => exact .inl ⟨next, .named written (.key hfound), rfl⟩
    | none => exact .inr ⟨_, .key hfound, rfl⟩
  | _ => exact .inr ⟨_, .leaf (by rintro _ ⟨⟩) (by rintro _ ⟨⟩), rfl⟩

/-! ### All segments -/

/-- What the segments that are not empty are decoded to. -/
def decoded (raws : List (List Char)) : List String :=
  (raws.filter (!·.isEmpty)).map fun cs => String.ofList (decode cs)

/-- Walking either follows all segments that are written, or it strays. -/
theorem walk_follows_or_strays (node : Node) (raws : List (List Char)) :
    (∃ target, Along Follows node raws target ∧ walk node (decoded raws) = .ok target) ∨
      ∃ fault, Strays node raws fault ∧ walk node (decoded raws) = .error fault := by
  induction raws generalizing node with
  | nil => exact .inl ⟨node, .here, rfl⟩
  | cons raw rest ih =>
    have further {next : Node} (first : Follows node raw next)
        (hwalk : walk node (decoded (raw :: rest)) = walk next (decoded rest)) :
        (∃ target, Along Follows node (raw :: rest) target ∧
            walk node (decoded (raw :: rest)) = .ok target) ∨
          ∃ fault, Strays node (raw :: rest) fault ∧
            walk node (decoded (raw :: rest)) = .error fault := by
      rw [hwalk]
      rcases ih next with ⟨target, along, htarget⟩ | ⟨fault, strays, hfault⟩
      · exact .inl ⟨target, .on first along, htarget⟩
      · exact .inr ⟨fault, .on first strays, hfault⟩
    by_cases written : raw = []
    · subst written
      exact further .empty rfl
    · have hdecoded : decoded (raw :: rest) = String.ofList (decode raw) :: decoded rest := by
        rw [decoded, List.filter_cons_of_pos (by simpa using written), List.map_cons]
        rfl
      rcases step_follows_or_misses node written with ⟨next, first, hstep⟩ | ⟨fault, misses, hstep⟩
      · exact further first (by rw [hdecoded, walk_cons_of_ok hstep])
      · exact .inr ⟨fault, .here written misses, by rw [hdecoded, walk_cons_of_error hstep]⟩

/-- A reference resolves by its segments, each followed in turn, or fails because it does not make
sense. -/
theorem resolve_follows_or_misleads (document : Node) (ref : String) :
    (∃ rest target, ref.toList = '#' :: '/' :: rest ∧
        Along Follows document (Text.split '/' rest) target ∧
        resolve document (.str ref) = .ok target) ∨
      ∃ fault, Misleads document ref fault ∧
        resolve document (.str ref) = .error (.unresolvable ref fault) := by
  by_cases hinside : ∃ rest, ref.toList = '#' :: '/' :: rest
  · obtain ⟨rest, hrest⟩ := hinside
    have hsegments : segments? ref = some (decoded (Text.split '/' rest)) :=
      segments?_of_toList hrest
    rw [resolve, hsegments]
    dsimp only
    rcases walk_follows_or_strays document (Text.split '/' rest) with
      ⟨target, along, hwalk⟩ | ⟨fault, strays, hwalk⟩
    · rw [hwalk]
      exact .inl ⟨rest, target, hrest, along, rfl⟩
    · rw [hwalk]
      exact .inr ⟨fault, .astray hrest strays, rfl⟩
  · have hnone : segments? ref = none :=
      Option.eq_none_iff_forall_ne_some.mpr fun _ hsome => hinside (exists_of_segments? hsome)
    rw [resolve, hnone]
    exact .inr ⟨.external, .external fun rest heq => hinside ⟨rest, heq⟩, rfl⟩

def pettingZoo : Node := .map [(.str "definitions", .map [(.str "Pet", .str "pet")]),
  (.str "servers", .list [.str "first", .str "last"])]

/-- An empty segment is let through where no key is empty, and a sign before an index. -/
theorem not_along_spells :
    (resolve pettingZoo (.str "#/definitions//Pet") = .ok (.str "pet") ∧
      ∀ target, ¬ Along Spells pettingZoo (Text.split '/' "definitions//Pet".toList) target) ∧
    resolve pettingZoo (.str "#/servers/-1") = .ok (.str "last") ∧
      ∀ target, ¬ Along Spells pettingZoo (Text.split '/' "servers/-1".toList) target := by
  have hemptyRef : segments? "#/definitions//Pet" = some ["definitions", "Pet"] := by
    decide +kernel
  have hsignRef : segments? "#/servers/-1" = some ["servers", "-1"] := by decide +kernel
  refine ⟨⟨?_, ?_⟩, ?_, ?_⟩
  · rw [resolve, hemptyRef]
    rfl
  · have hsplit : Text.split '/' "definitions//Pet".toList =
        ["definitions".toList, [], "Pet".toList] := by decide
    have hkey : String.ofList (decode "definitions".toList) = "definitions" := by decide +kernel
    have hempty : String.ofList (decode []) = "" := by decide +kernel
    rw [hsplit]
    rintro target (_ | ⟨first, _ | ⟨second, _⟩⟩)
    rw [Spells, hkey] at first
    have hnext : some (Node.map [(.str "Pet", .str "pet")]) = some _ := first.get?_eq
    cases hnext
    rw [Spells, hempty] at second
    have hnone : none = some _ := second.get?_eq
    cases hnone
  · rw [resolve, hsignRef]
    rfl
  · have hsplit : Text.split '/' "servers/-1".toList = ["servers".toList, "-1".toList] := by decide
    have hkey : String.ofList (decode "servers".toList) = "servers" := by decide +kernel
    have hsign : '-' ∈ (String.ofList (decode "-1".toList)).toList := by decide +kernel
    rw [hsplit]
    rintro target (_ | ⟨first, _ | ⟨second, _⟩⟩)
    rw [Spells, hkey] at first
    have hnext : some (Node.list [.str "first", .str "last"]) = some _ := first.get?_eq
    cases hnext
    exact absurd (second.isPlain.2 '-' hsign) (by decide)

end OpenApi.Reference
