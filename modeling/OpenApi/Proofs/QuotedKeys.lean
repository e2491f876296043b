import OpenApi.Proofs.Entries
import OpenApi.Proofs.Inherited
import OpenApi.Proofs.JsonValues

/-
Keys that are natural numbers.

In YAML a key may be a numeral without quotes, as status codes often are, and is read as a number
then.  `quoteKeys` is the same value with all of these keys quoted, so that they are texts, as they
are in JSON.

Quoting changes a value as far as the kinds of its keys are looked at.  That is so where a value is
written out as a text, where two values are compared, and where an entry is looked up under a
number; `Entries.Quotable` asks that the values which are read in these ways have no such keys.
Everything else that is read of a value stays, with its keys quoted.
-/
namespace OpenApi

/-- Whether a text consists of digits, as that of a natural number does. -/
def isNumeral (key : String) : Bool := key.toList.all Char.isDigit

namespace Scalar

def isNatural : Scalar → Bool
  | .int n => decide (0 ≤ n)
  | _ => false

/-- A key between quotes: a natural number is the text of its digits then. -/
def quoted : Scalar → Scalar
  | .int n => if 0 ≤ n then .str (Number.intText n) else .int n
  | key => key

/-- Whether a key is no natural number of too many digits to be written. -/
def isShort : Scalar → Bool
  | .int n => decide (n < 0) || !Number.isLong n
  | _ => true

end Scalar

namespace Node

mutual

/-- A value with all natural numbers among its keys quoted. -/
def quoteKeys : Node → Node
  | .list items => .list (quoteItems items)
  | .map entries => .map (quoteEntries entries)
  | .pair x y => .pair x.quoteKeys y.quoteKeys
  | node => node

def quoteItems : List Node → List Node
  | [] => []
  | x :: xs => x.quoteKeys :: quoteItems xs

def quoteEntries : Entries → Entries
  | [] => []
  | (k, v) :: rest => (k.quoted, v.quoteKeys) :: quoteEntries rest

end

/-- An entry with its key quoted, and all keys in its value. -/
def quoteEntry (entry : Scalar × Node) : Scalar × Node := (entry.1.quoted, entry.2.quoteKeys)

mutual

/-- The entries of all maps in a value, at any depth. -/
def maps : Node → List Entries
  | .list items => mapsOfItems items
  | .map entries => entries :: mapsOfEntries entries
  | .pair x y => x.maps ++ y.maps
  | _ => []

def mapsOfItems : List Node → List Entries
  | [] => []
  | x :: xs => x.maps ++ mapsOfItems xs

def mapsOfEntries : Entries → List Entries
  | [] => []
  | (_, v) :: rest => v.maps ++ mapsOfEntries rest

end

/-- Whether no key in a value is a natural number. -/
def isUnnumbered (node : Node) : Bool :=
  node.maps.all fun entries => entries.all fun e => !e.1.isNatural

end Node

/-! ### What can be quoted -/

namespace Entries

/-- Whether no map has a natural number and the text of its digits for two of its keys. -/
def keysApart (entries : Entries) : Bool :=
  entries.all fun e => !e.1.isNatural || entries.all fun other => other.1 != e.1.quoted

/-- Whether the values that a schema lists have no numbers for keys; types are written out, and
members of an enumeration compared. -/
def listsTexts (entries : Entries) : Bool :=
  ["enum", "type"].all fun key =>
    match get? key entries with
    | some (.list items) => (Node.list items).isUnnumbered
    | _ => true

/-- Whether a parameter is named by a value that has no numbers for keys. -/
def namesText (entries : Entries) : Bool :=
  match get? "in" entries with
  | some (.str _) => ((Node.map entries).get "name").isUnnumbered
  | _ => true

/-- A map whose keys can be quoted. -/
structure Quotable (entries : Entries) : Prop where
  apart : entries.keysApart = true
  short : (entries.all fun e => e.1.isShort) = true
  listed : entries.listsTexts = true
  named : entries.namesText = true

instance (entries : Entries) : Decidable entries.Quotable :=
  decidable_of_iff
    (entries.keysApart = true ∧ (entries.all fun e => e.1.isShort) = true ∧
      entries.listsTexts = true ∧ entries.namesText = true)
    ⟨fun ⟨apart, short, listed, named⟩ => ⟨apart, short, listed, named⟩,
      fun ⟨apart, short, listed, named⟩ => ⟨apart, short, listed, named⟩⟩

end Entries

/-- Whether the keys of all maps in a value can be quoted. -/
def Node.Quotable (node : Node) : Prop := ∀ entries ∈ node.maps, Entries.Quotable entries

instance (node : Node) : Decidable node.Quotable :=
  inferInstanceAs (Decidable (∀ entries ∈ node.maps, Entries.Quotable entries))

/-! ### Keys -/

namespace Scalar

variable {k : Scalar} {key : String}

theorem toList_intText {n : Int} (h : 0 ≤ n) :
    (Number.intText n).toList = Nat.toDigits 10 n.natAbs := by
  rw [Number.intText, String.toList_ofList, decide_eq_false (Int.not_lt.mpr h)]
  rfl

theorem isNumeral_intText {n : Int} (h : 0 ≤ n) : isNumeral (Number.intText n) = true := by
  rw [isNumeral, toList_intText h, List.all_eq_true]
  exact fun c hc => Nat.isDigit_of_mem_toDigits (by decide) (by decide) hc

theorem quoted_of_isNatural (h : k.isNatural = true) :
    ∃ n, k = .int n ∧ 0 ≤ n ∧ k.quoted = .str (Number.intText n) := by
  cases k with
  | int n =>
    have hn : 0 ≤ n := of_decide_eq_true h
    exact ⟨n, rfl, hn, if_pos hn⟩
  | _ => cases h

theorem quoted_of_not_isNatural (h : k.isNatural = false) : k.quoted = k := by
  cases k with
  | int n => exact if_neg (of_decide_eq_false h)
  | _ => rfl

/-- Quoting makes no key that is not a numeral. -/
theorem quoted_eq_str_iff (hkey : isNumeral key = false) : k.quoted = .str key ↔ k = .str key := by
  cases hnatural : k.isNatural with
  | false => rw [quoted_of_not_isNatural hnatural]
  | true =>
    obtain ⟨n, rfl, hn, hquoted⟩ := quoted_of_isNatural hnatural
    rw [hquoted]
    constructor
    · rintro ⟨⟩
      rw [isNumeral_intText hn] at hkey
      cases hkey
    · rintro ⟨⟩

theorem not_isLong_of_isShort {n : Int} (h : (Scalar.int n).isShort = true) (hn : 0 ≤ n) :
    Number.isLong n = false := by
  rw [isShort, decide_eq_false (Int.not_lt.mpr hn)] at h
  simpa using h

theorem text?_quoted (h : k.isShort = true) : k.quoted.text? = k.text? := by
  cases hnatural : k.isNatural with
  | false => rw [quoted_of_not_isNatural hnatural]
  | true =>
    obtain ⟨n, rfl, hn, hquoted⟩ := quoted_of_isNatural hnatural
    rw [hquoted, text?, text?, display?, Number.text?_int (not_isLong_of_isShort h hn)]
    · intro s hs
      cases hs
    · intro moment hmoment
      cases hmoment

theorem written_quoted (h : k.isShort = true) : k.quoted.written = k.written := by
  rw [written, text?_quoted h, written]

end Scalar

/-! ### Reading a value whose keys are quoted -/

namespace Node

variable {node : Node} {items : List Node} {entries : Entries} {key : String}

theorem quoteItems_eq (items : List Node) : quoteItems items = items.map quoteKeys := by
  induction items with
  | nil => rw [quoteItems, List.map_nil]
  | cons x xs ih => rw [quoteItems, ih, List.map_cons]

theorem quoteEntries_eq (entries : Entries) :
    quoteEntries entries = entries.map quoteEntry := by
  induction entries with
  | nil => rw [quoteEntries, List.map_nil]
  | cons e rest ih => rw [quoteEntries, ih, List.map_cons, quoteEntry]

theorem quoteKeys_list (items : List Node) :
    quoteKeys (.list items) = .list (items.map quoteKeys) := by
  rw [quoteKeys, quoteItems_eq]

theorem quoteKeys_map (entries : Entries) :
    quoteKeys (.map entries) = .map (entries.map quoteEntry) := by
  rw [quoteKeys, quoteEntries_eq]

theorem quoteKeys_scalar (s : Scalar) : quoteKeys (.scalar s) = .scalar s := rfl

theorem get?_quoteEntries (h : isNumeral key = false) (entries : Entries) :
    Entries.get? key (entries.map quoteEntry) = (Entries.get? key entries).map quoteKeys := by
  induction entries with
  | nil => rfl
  | cons e rest ih =>
    obtain ⟨k, value⟩ := e
    rw [List.map_cons, quoteEntry, Entries.get?, Entries.get?]
    by_cases hk : k = .str key
    · rw [if_pos ((Scalar.quoted_eq_str_iff h).mpr hk), if_pos hk, Option.map_some]
    · rw [if_neg ((Scalar.quoted_eq_str_iff h).not.mpr hk), if_neg hk, ih]

theorem get?_quoteKeys (h : isNumeral key = false) (node : Node) :
    node.quoteKeys.get? key = (node.get? key).map quoteKeys := by
  cases node with
  | map entries =>
    rw [quoteKeys_map]
    exact get?_quoteEntries h entries
  | _ => rfl

theorem get_quoteKeys (h : isNumeral key = false) (node : Node) :
    node.quoteKeys.get key = (node.get key).quoteKeys := by
  rw [Node.get, get?_quoteKeys h, Node.get]
  cases node.get? key <;> rfl

theorem has_quoteKeys (h : isNumeral key = false) (node : Node) :
    node.quoteKeys.has key = node.has key := by
  rw [Node.has, get?_quoteKeys h, Option.isSome_map, Node.has]

@[simp]
theorem kind_quoteKeys (node : Node) : node.quoteKeys.kind = node.kind := by
  cases node <;> rfl

@[simp]
theorem isMap_quoteKeys (node : Node) : node.quoteKeys.isMap = node.isMap := by
  cases node <;> rfl

@[simp]
theorem isTrue_quoteKeys (node : Node) : node.quoteKeys.isTrue = node.isTrue := by
  cases node <;> rfl

@[simp]
theorem isText_quoteKeys (s : String) (node : Node) :
    node.quoteKeys.isText s = node.isText s := by
  cases node <;> rfl

@[simp]
theorem str?_quoteKeys (node : Node) : node.quoteKeys.str? = node.str? := by
  cases node <;> rfl

@[simp]
theorem text?_quoteKeys (node : Node) : node.quoteKeys.text? = node.text? := by
  cases node <;> rfl

@[simp]
theorem isTruthy_quoteKeys (node : Node) : node.quoteKeys.isTruthy = node.isTruthy := by
  cases node with
  | list items => rw [quoteKeys_list, isTruthy, isTruthy, List.isEmpty_map]
  | map entries => rw [quoteKeys_map, isTruthy, isTruthy, List.isEmpty_map]
  | _ => rfl

theorem items?_quoteKeys (node : Node) :
    node.quoteKeys.items? = node.items?.map (List.map quoteKeys) := by
  cases node with
  | list items =>
    rw [quoteKeys_list]
    rfl
  | _ => rfl

theorem getD_items?_quoteKeys (node : Node) :
    node.quoteKeys.items?.getD [] = (node.items?.getD []).map quoteKeys := by
  rw [items?_quoteKeys]
  cases node.items? <;> rfl

theorem entries?_quoteKeys (node : Node) :
    node.quoteKeys.entries? = node.entries?.map (List.map quoteEntry) := by
  cases node with
  | map entries =>
    rw [quoteKeys_map]
    rfl
  | _ => rfl

theorem getD_entries?_quoteKeys (node : Node) :
    node.quoteKeys.entries?.getD [] = (node.entries?.getD []).map quoteEntry := by
  rw [entries?_quoteKeys]
  cases node.entries? <;> rfl

theorem listHas_quoteKeys (s : String) (items : List Node) :
    listHas s (items.map quoteKeys) = listHas s items := by
  rw [listHas, List.any_map, listHas]
  exact congrArg (List.any items) (funext fun node => isText_quoteKeys s node)

@[simp]
theorem isEndless_quoteKeys (node : Node) : node.quoteKeys.isEndless = node.isEndless := by
  induction node using Node.induction with
  | list items ih =>
    rw [quoteKeys_list, isEndless, isEndless]
    induction items with
    | nil => rfl
    | cons x xs ihxs =>
      rw [List.forall_mem_cons] at ih
      rw [List.map_cons, someEndless, someEndless, ih.1, ihxs ih.2]
  | map entries ih =>
    rw [quoteKeys_map, isEndless, isEndless]
    induction entries with
    | nil => rfl
    | cons e rest ihrest =>
      rw [List.forall_mem_cons] at ih
      rw [List.map_cons, quoteEntry, someEntryEndless, someEntryEndless, ih.1, ihrest ih.2]
  | pair x y ihx ihy => rw [quoteKeys, isEndless, isEndless, ihx, ihy]
  | _ => rfl

/-! ### The maps in a value -/

theorem mapsOfItems_eq (items : List Node) : mapsOfItems items = items.flatMap maps := by
  induction items with
  | nil => rw [mapsOfItems, List.flatMap_nil]
  | cons x xs ih => rw [mapsOfItems, ih, List.flatMap_cons]

theorem mapsOfEntries_eq (entries : Entries) :
    mapsOfEntries entries = entries.flatMap fun e => e.2.maps := by
  induction entries with
  | nil => rw [mapsOfEntries, List.flatMap_nil]
  | cons e rest ih => rw [mapsOfEntries, ih, List.flatMap_cons]

theorem forall_maps_list_iff {P : Entries → Prop} :
    (∀ m ∈ (Node.list items).maps, P m) ↔ ∀ x ∈ items, ∀ m ∈ x.maps, P m := by
  simp only [maps, mapsOfItems_eq, List.mem_flatMap]
  exact ⟨fun h x hx m hm => h m ⟨x, hx, hm⟩, fun h m ⟨x, hx, hm⟩ => h x hx m hm⟩

theorem forall_maps_map_iff {P : Entries → Prop} :
    (∀ m ∈ (Node.map entries).maps, P m) ↔ P entries ∧ ∀ e ∈ entries, ∀ m ∈ e.2.maps, P m := by
  simp only [maps, List.forall_mem_cons, mapsOfEntries_eq, List.mem_flatMap]
  exact and_congr_right fun _ =>
    ⟨fun h e he m hm => h m ⟨e, he, hm⟩, fun h m ⟨e, he, hm⟩ => h e he m hm⟩

theorem OccursIn.maps_subset {part whole : Node} (h : part.OccursIn whole) :
    part.maps ⊆ whole.maps := by
  induction h with
  | whole => exact List.Subset.refl _
  | item mem _ ih =>
    rw [maps, mapsOfItems_eq]
    exact fun m hm => List.mem_flatMap.mpr ⟨_, mem, ih hm⟩
  | entry mem _ ih =>
    rw [maps, mapsOfEntries_eq]
    exact fun m hm => List.mem_cons_of_mem _ (List.mem_flatMap.mpr ⟨_, mem, ih hm⟩)

theorem isUnnumbered_iff : node.isUnnumbered = true ↔
    ∀ m ∈ node.maps, ∀ e ∈ m, e.1.isNatural = false := by
  simp [isUnnumbered]

/-- Where no key is a number, there is nothing to quote. -/
theorem quoteKeys_of_isUnnumbered (h : node.isUnnumbered = true) : node.quoteKeys = node := by
  rw [isUnnumbered_iff] at h
  induction node using Node.induction with
  | list items ih =>
    rw [forall_maps_list_iff] at h
    rw [quoteKeys_list, List.map_congr_left fun x hx => ih x hx (h x hx), List.map_id']
  | map entries ih =>
    rw [forall_maps_map_iff] at h
    have hentry (e : Scalar × Node) (he : e ∈ entries) : quoteEntry e = e := by
      rw [quoteEntry, Scalar.quoted_of_not_isNatural (h.1 e he), ih e he (h.2 e he)]
    rw [quoteKeys_map, List.map_congr_left hentry, List.map_id']
  | pair x y ihx ihy =>
    rw [maps, List.forall_mem_append] at h
    rw [quoteKeys, ihx h.1, ihy h.2]
  | _ => rfl

/-! ### What the parts of a value inherit -/

theorem Quotable.own (h : (Node.map entries).Quotable) : entries.Quotable :=
  (forall_maps_map_iff.mp h).1

theorem Quotable.of_mem (h : (Node.map entries).Quotable) {e : Scalar × Node}
    (he : e ∈ entries) : e.2.Quotable := (forall_maps_map_iff.mp h).2 e he

theorem Quotable.isShort_key (h : node.Quotable) {e : Scalar × Node}
    (he : e ∈ node.entries?.getD []) : e.1.isShort = true := by
  cases node with
  | map entries => exact List.all_eq_true.mp h.own.short e he
  | _ => cases he

theorem Quotable.written_key (h : node.Quotable) {e : Scalar × Node}
    (he : e ∈ node.entries?.getD []) : e.1.quoted.written = e.1.written :=
  Scalar.written_quoted (h.isShort_key he)

end Node

namespace Entries

variable {entries : Entries}

theorem keysApart_iff : entries.keysApart = true ↔
    ∀ e ∈ entries, e.1.isNatural = true → ∀ other ∈ entries, other.1 ≠ e.1.quoted := by
  simp only [keysApart, List.all_eq_true, Bool.or_eq_true, Bool.not_eq_true', bne_iff_ne]
  refine forall₂_congr fun e _ => ?_
  cases e.1.isNatural <;> simp

theorem Quotable.filter (h : entries.Quotable) {p : Scalar × Node → Bool}
    (hlisted : ∀ key ∈ ["enum", "type"], ∀ value, p (.str key, value) = true)
    (hin : ∀ value, p (.str "in", value) = false) : Quotable (entries.filter p) where
  apart := keysApart_iff.mpr fun e he hnatural other hother =>
    keysApart_iff.mp h.apart e (List.mem_of_mem_filter he) hnatural other
      (List.mem_of_mem_filter hother)
  short := List.all_eq_true.mpr fun e he =>
    List.all_eq_true.mp h.short e (List.mem_of_mem_filter he)
  listed := by
    refine List.all_eq_true.mpr fun key hkey => ?_
    rw [get?_filter _ _ _ (hlisted key hkey)]
    exact List.all_eq_true.mp h.listed key hkey
  named := by
    rw [namesText, get?_filter_eq_none _ _ _ hin]

end Entries

theorem inherited_quotable : Inherited Node.Quotable where
  part occurs h := fun entries hentries => h entries (occurs.maps_subset hentries)
  null := nofun
  empty := by decide
  inline {node} h := by
    cases node with
    | map entries =>
      refine Node.forall_maps_map_iff.mpr ⟨?_, fun e he => h.of_mem (List.mem_of_mem_filter he)⟩
      have hkept : ∀ key ∈ ["enum", "type"], (!Parameter.ownKeywords.contains key) = true := by
        decide
      exact h.own.filter (fun key hkey _ => hkept key hkey) fun _ => rfl
    | _ => exact h

/-! ### JSON texts -/

namespace Json

variable {style : Style}

theorem key_quoted {k : Scalar} (h : k.isShort = true) : key style k.quoted = key style k := by
  cases hnatural : k.isNatural with
  | false => rw [Scalar.quoted_of_not_isNatural hnatural]
  | true =>
    obtain ⟨n, rfl, hn, hquoted⟩ := Scalar.quoted_of_isNatural hnatural
    rw [hquoted, key, key, plain, Scalar.not_isLong_of_isShort h hn]
    · rfl
    · intro s hs
      cases hs

/-- Keys are written between quotes anyway. -/
theorem write_quoteKeys (hstyle : style.sorted = false) {node : Node} (h : node.Quotable)
    (depth : Nat) : write style depth node.quoteKeys = write style depth node := by
  induction node using Node.induction generalizing depth with
  | list items ih =>
    have hitems : writeItems style (depth + 1) (items.map Node.quoteKeys) =
        writeItems style (depth + 1) items := by
      replace h := Node.forall_maps_list_iff.mp h
      induction items with
      | nil => rfl
      | cons x xs ihxs =>
        rw [List.forall_mem_cons] at ih h
        rw [List.map_cons, writeItems, writeItems, ih.1 h.1, ihxs ih.2 h.2]
    rw [Node.quoteKeys_list, write, write, hitems]
  | map entries ih =>
    have hentries :
        (writeEntries style (depth + 1) (entries.map Node.quoteEntry)).mapM (entry style) =
          (writeEntries style (depth + 1) entries).mapM (entry style) := by
      have hshort := List.all_eq_true.mp h.own.short
      have hvalues (e : Scalar × Node) (he : e ∈ entries) := ih e he (h.of_mem he)
      clear ih h
      induction entries with
      | nil => rfl
      | cons e rest ihrest =>
        rw [List.forall_mem_cons] at hshort hvalues
        rw [List.map_cons, Node.quoteEntry, writeEntries, writeEntries, List.mapM_cons,
          List.mapM_cons, ihrest hshort.2 hvalues.2, entry, key_quoted hshort.1, hvalues.1, entry]
    have harrange {α : Type} (entries : List (Scalar × α)) :
        arrange style entries = .ok entries := by
      rw [arrange, hstyle]
      rfl
    rw [Node.quoteKeys_map, write, write, harrange, harrange]
    dsimp only
    rw [hentries]
  | pair x y ihx ihy =>
    rw [Node.Quotable, Node.maps, List.forall_mem_append] at h
    rw [Node.quoteKeys, write, write, ihx h.1, ihy h.2]
  | _ => rfl

theorem render?_quoteKeys (hstyle : style.sorted = false) {node : Node} (h : node.Quotable) :
    render? style node.quoteKeys = render? style node := by
  rw [render?, render, Node.isEndless_quoteKeys, write_quoteKeys hstyle h, render?, render]

end Json
end OpenApi
