import OpenApi.Proofs.JsonValues

/-
Values that have a JSON text.

There is none for dates, bytes and sets, and none for an integer with too many digits.  Where the
members of a map are sorted, each two of its keys have to have an order besides (`Comparable`).
Nothing else matters: a value is written just if it has a text (`HasText`), at whatever depth and in
whatever layout (`exists_write_iff`).  Every value that JSON can hold has a text in every style
(`hasText_of_isJson`).
-/
namespace OpenApi

/-- Whether a scalar has a JSON text, as a value and as a key. -/
def Scalar.hasText : Scalar → Bool
  | .int n => !Number.isLong n
  | .moment _ => false
  | .bytes _ => false
  | _ => true

namespace Json

/-! ### The order of keys -/

/-- Whether two keys have an order: keys have one among texts and among numbers, and truth values
count as numbers. -/
inductive Comparable : Scalar → Scalar → Prop where
  | texts (s t : String) : Comparable (.str s) (.str t)
  | numbers {a b : Scalar} {m n : Number} (first : a.number? = some m)
      (second : b.number? = some n) : Comparable a b

theorem Comparable.symm {a b : Scalar} (h : Comparable a b) : Comparable b a := by
  cases h with
  | texts s t => exact .texts t s
  | numbers first second => exact .numbers second first

theorem Comparable.trans {a b c : Scalar} (h : Comparable a b) (h' : Comparable b c) :
    Comparable a c := by
  cases h with
  | texts s t =>
    cases h' with
    | texts _ u => exact .texts s u
    | numbers first _ => cases first
  | numbers first second =>
    cases h' with
    | texts s t => cases second
    | numbers _ third => exact .numbers first third

theorem exists_keyBefore?_iff {a b : Scalar} :
    (∃ before, keyBefore? a b = some before) ↔ Comparable a b := by
  constructor
  · intro ⟨before, h⟩
    unfold keyBefore? at h
    split at h
    · exact .texts _ _
    · split at h
      · exact .numbers ‹_› ‹_›
      · exact .numbers ‹_› ‹_›
      · exact .numbers ‹_› ‹_›
      · exact .numbers ‹_› ‹_›
      · cases h
  · intro h
    cases h with
    | texts s t => exact ⟨_, rfl⟩
    | @numbers _ _ m n first second =>
      unfold keyBefore?
      split
      · exact ⟨_, rfl⟩
      · rw [first, second]
        cases m <;> cases n <;> exact ⟨_, rfl⟩

section
variable {α : Type} {key : Scalar} {value : α} {entries sorted more : List (Scalar × α)}

theorem perm_of_insertSorted? (h : insertSorted? key value sorted = some more) :
    more.Perm ((key, value) :: sorted) := by
  induction sorted generalizing more with
  | nil =>
    cases h
    exact .refl _
  | cons first rest ih =>
    unfold insertSorted? at h
    split at h
    · cases h
    · cases h
      exact .refl _
    · obtain ⟨others, hothers, rfl⟩ := Option.map_eq_some_iff.mp h
      exact ((ih hothers).cons _).trans (.swap _ _ _)

/-- A key has a place among sorted ones if it can be compared with all of them. -/
theorem exists_insertSorted?_iff (ordered : sorted.Pairwise fun e e' => Comparable e.1 e'.1) :
    (∃ more, insertSorted? key value sorted = some more) ↔
      ∀ e ∈ sorted, Comparable key e.1 := by
  induction sorted with
  | nil => exact ⟨fun _ => List.forall_mem_nil _, fun _ => ⟨_, rfl⟩⟩
  | cons first rest ih =>
    obtain ⟨hfirst, hrest⟩ := List.pairwise_cons.mp ordered
    rw [List.forall_mem_cons, insertSorted?]
    -- It is enough to look at the first key, because the others can be compared with that one.
    have hall (h : Comparable key first.1) : ∀ e ∈ rest, Comparable key e.1 :=
      fun e he => h.trans (hfirst e he)
    cases hbefore : keyBefore? key first.1 with
    | none =>
      constructor
      · intro ⟨more, h⟩
        cases h
      · intro ⟨h, _⟩
        obtain ⟨before, heq⟩ := exists_keyBefore?_iff.mpr h
        rw [hbefore] at heq
        cases heq
    | some before =>
      have hkey := exists_keyBefore?_iff.mp ⟨before, hbefore⟩
      refine ⟨fun _ => ⟨hkey, hall hkey⟩, fun _ => ?_⟩
      cases before with
      | true => exact ⟨_, rfl⟩
      | false =>
        obtain ⟨more, hmore⟩ := (ih hrest).mpr (hall hkey)
        exact ⟨first :: more, by rw [hmore]; rfl⟩

theorem perm_of_sort? (h : sort? entries = some sorted) : sorted.Perm entries := by
  induction entries generalizing sorted with
  | nil =>
    cases h
    exact .refl _
  | cons first rest ih =>
    unfold sort? at h
    split at h
    · exact (perm_of_insertSorted? h).trans ((ih ‹_›).cons _)
    · cases h

/-- Entries can be sorted if each two of their keys can be compared. -/
theorem exists_sort?_iff : (∃ sorted, sort? entries = some sorted) ↔
    entries.Pairwise fun e e' => Comparable e.1 e'.1 := by
  induction entries with
  | nil => exact ⟨fun _ => .nil, fun _ => ⟨[], rfl⟩⟩
  | cons first rest ih =>
    rw [List.pairwise_cons, ← ih, sort?]
    cases hsort : sort? rest with
    | none => exact ⟨nofun, fun ⟨_, sorted, h⟩ => nomatch h⟩
    | some sorted =>
      have hperm := perm_of_sort? hsort
      have hordered : sorted.Pairwise fun e e' => Comparable e.1 e'.1 :=
        (hperm.pairwise_iff fun h => h.symm).mpr (ih.mp ⟨sorted, hsort⟩)
      dsimp only
      rw [exists_insertSorted?_iff hordered]
      constructor
      · intro h
        exact ⟨fun e he => h e (hperm.mem_iff.mpr he), sorted, rfl⟩
      · intro ⟨h, _⟩ e he
        exact h e (hperm.mem_iff.mp he)

variable {style : Style} {arranged : List (Scalar × α)}

theorem perm_of_arrange (h : arrange style entries = .ok arranged) : arranged.Perm entries := by
  unfold arrange at h
  split at h
  · split at h
    · cases h
      exact perm_of_sort? ‹_›
    · cases h
  · cases h
    exact .refl _

theorem exists_arrange_iff : (∃ arranged, arrange style entries = .ok arranged) ↔
    (style.sorted = true → entries.Pairwise fun e e' => Comparable e.1 e'.1) := by
  cases hstyle : style.sorted with
  | false => exact ⟨fun _ => nofun, fun _ => ⟨entries, by rw [arrange, hstyle]; rfl⟩⟩
  | true =>
    have hsort : (∃ arranged, arrange style entries = .ok arranged) ↔
        ∃ sorted, sort? entries = some sorted := by
      rw [arrange, hstyle, if_pos rfl]
      cases sort? entries with
      | none => exact ⟨nofun, nofun⟩
      | some sorted => exact ⟨fun _ => ⟨sorted, rfl⟩, fun _ => ⟨sorted, rfl⟩⟩
    exact hsort.trans (exists_sort?_iff.trans ⟨fun h _ => h, fun h => h rfl⟩)

theorem pairwise_comparable (h : ∀ e ∈ entries, ∃ s, e.1 = .str s) :
    entries.Pairwise fun e e' => Comparable e.1 e'.1 := by
  refine List.pairwise_of_forall_mem_list fun e he e' he' => ?_
  obtain ⟨s, hs⟩ := h e he
  obtain ⟨t, ht⟩ := h e' he'
  rw [hs, ht]
  exact .texts s t

/-- Entries with text keys can be arranged in any style, and none of them is lost. -/
theorem exists_arrange (style : Style) (h : ∀ e ∈ entries, ∃ s, e.1 = .str s) :
    ∃ arranged, arrange style entries = .ok arranged ∧ arranged.Perm entries := by
  obtain ⟨arranged, harranged⟩ :=
    (@exists_arrange_iff _ entries style).mpr fun _ => pairwise_comparable h
  exact ⟨arranged, harranged, perm_of_arrange harranged⟩

end

/-! ### Values -/

section
variable {style : Style} {node : Node}

/-- Whether a value has a JSON text in a style: all scalars in it have one, and where the members of
maps are sorted, their keys have an order. -/
inductive HasText (style : Style) : Node → Prop where
  | scalar {s : Scalar} (written : s.hasText = true) : HasText style (.scalar s)
  | list {items : List Node} (parts : ∀ x ∈ items, HasText style x) : HasText style (.list items)
  | map {entries : Entries} (keys : ∀ e ∈ entries, e.1.hasText = true)
      (ordered : style.sorted = true → entries.Pairwise fun e e' => Comparable e.1 e'.1)
      (parts : ∀ e ∈ entries, HasText style e.2) : HasText style (.map entries)
  | pair {x y : Node} (first : HasText style x) (second : HasText style y) :
      HasText style (.pair x y)

theorem hasText_scalar_iff {s : Scalar} : HasText style (.scalar s) ↔ s.hasText = true :=
  ⟨fun | .scalar written => written, .scalar⟩

theorem hasText_int_iff {n : Int} : HasText style (.int n) ↔ Number.isLong n = false := by
  rw [hasText_scalar_iff, Scalar.hasText, Bool.not_eq_true']

theorem exists_plain_iff {s : Scalar} (h : ∀ t, s ≠ .str t) :
    (∃ text, plain s = .ok text) ↔ s.hasText = true := by
  cases s with
  | str t => exact absurd rfl (h t)
  | int n =>
    rw [plain, Scalar.hasText]
    cases Number.isLong n with
    | true => exact ⟨nofun, nofun⟩
    | false => exact ⟨fun _ => rfl, fun _ => ⟨_, rfl⟩⟩
  | moment _ => exact ⟨nofun, nofun⟩
  | bytes _ => exact ⟨nofun, nofun⟩
  | bool b => cases b <;> exact ⟨fun _ => rfl, fun _ => ⟨_, rfl⟩⟩
  | _ => exact ⟨fun _ => rfl, fun _ => ⟨_, rfl⟩⟩

theorem exists_scalar_iff {s : Scalar} :
    (∃ text, scalar style s = .ok text) ↔ s.hasText = true := by
  unfold scalar
  split
  · exact ⟨fun _ => rfl, fun _ => ⟨_, rfl⟩⟩
  · exact exists_plain_iff ‹_›

theorem exists_key_iff {s : Scalar} : (∃ text, key style s = .ok text) ↔ s.hasText = true := by
  unfold key
  split
  · exact ⟨fun _ => rfl, fun _ => ⟨_, rfl⟩⟩
  · exact Except.exists_map_iff.trans (exists_plain_iff ‹_›)

theorem exists_entry_iff {e : Scalar × Except Unwritable String} :
    (∃ text, entry style e = .ok text) ↔ e.1.hasText = true ∧ ∃ text, e.2 = .ok text := by
  rw [entry, ← @exists_key_iff style]
  cases key style e.1 with
  | error cause => exact ⟨nofun, nofun⟩
  | ok name => exact Except.exists_map_iff.trans ⟨fun h => ⟨⟨name, rfl⟩, h⟩, fun h => h.2⟩

theorem writeItems_eq_mapM (depth : Nat) (items : List Node) :
    writeItems style depth items = items.mapM (write style depth) := by
  induction items with
  | nil => rfl
  | cons x xs ih =>
    rw [writeItems, List.mapM_cons, ih]
    cases write style depth x with
    | error cause => rfl
    | ok first => cases xs.mapM (write style depth) <;> rfl

theorem writeEntries_eq_map (depth : Nat) (entries : Entries) :
    writeEntries style depth entries = entries.map fun e => (e.1, write style depth e.2) := by
  induction entries with
  | nil => rfl
  | cons e rest ih => rw [writeEntries, ih]; rfl

theorem write_map (depth : Nat) (entries : Entries) : write style depth (.map entries) =
    (arrange style (entries.map fun e => (e.1, write style (depth + 1) e.2)) >>=
      List.mapM (entry style)).map (enclose style depth "\x7b" "\x7d") := by
  rw [write, writeEntries_eq_map]
  cases arrange style (entries.map fun e => (e.1, write style (depth + 1) e.2)) <;> rfl

/-- A value is written just if it has a text, at whatever depth. -/
theorem exists_write_iff (depth : Nat) :
    (∃ text, write style depth node = .ok text) ↔ HasText style node := by
  induction node using Node.induction generalizing depth with
  | scalar s =>
    rw [write, exists_scalar_iff, hasText_scalar_iff]
  | list items ih =>
    rw [write, writeItems_eq_mapM, Except.exists_map_iff, Except.exists_mapM_iff,
      forall₂_congr fun x hx => ih x hx (depth + 1)]
    exact ⟨.list, fun | .list parts => parts⟩
  | map entries ih =>
    have hordered : (style.sorted = true → (entries.map fun e =>
          (e.1, write style (depth + 1) e.2)).Pairwise fun e e' => Comparable e.1 e'.1) ↔
        (style.sorted = true → entries.Pairwise fun e e' => Comparable e.1 e'.1) := by
      rw [List.pairwise_map]
    rw [write_map]
    constructor
    · intro ⟨text, h⟩
      obtain ⟨pieces, hpieces, _⟩ := Except.map_eq_ok_iff.mp h
      obtain ⟨arranged, harranged, hmade⟩ := Except.bind_eq_ok_iff.mp hpieces
      have hperm := perm_of_arrange harranged
      have hentries (e) (he : e ∈ entries) := exists_entry_iff.mp
        (Except.exists_of_mapM hmade (hperm.mem_iff.mpr (List.mem_map_of_mem he)))
      exact .map (fun e he => (hentries e he).1)
        (hordered.mp (exists_arrange_iff.mp ⟨arranged, harranged⟩))
        fun e he => (ih e he (depth + 1)).mp (hentries e he).2
    · intro h
      cases h with
      | map keys ordered parts =>
        obtain ⟨arranged, harranged⟩ := exists_arrange_iff.mpr (hordered.mpr ordered)
        have hperm := perm_of_arrange harranged
        have hmade : ∃ pieces, arranged.mapM (entry style) = .ok pieces := by
          refine Except.exists_mapM fun e he => ?_
          obtain ⟨e', he', rfl⟩ := List.mem_map.mp (hperm.mem_iff.mp he)
          exact exists_entry_iff.mpr ⟨keys e' he', (ih e' he' (depth + 1)).mpr (parts e' he')⟩
        obtain ⟨pieces, hpieces⟩ := hmade
        have hbind := Except.bind_eq_ok_iff.mpr ⟨arranged, harranged, hpieces⟩
        exact Except.exists_map_iff.mpr ⟨pieces, hbind⟩
  | set members => exact ⟨nofun, nofun⟩
  | pair x y ihx ihy =>
    rw [write]
    constructor
    · intro ⟨text, h⟩
      split at h
      · cases h
      · obtain ⟨second, hsecond, _⟩ := Except.map_eq_ok_iff.mp h
        exact .pair ((ihx (depth + 1)).mp ⟨_, ‹_›⟩) ((ihy (depth + 1)).mp ⟨second, hsecond⟩)
    · intro h
      cases h with
      | pair first second =>
        obtain ⟨text, htext⟩ := (ihx (depth + 1)).mpr first
        rw [htext]
        exact Except.exists_map_iff.mpr ((ihy (depth + 1)).mpr second)
  | endless => exact ⟨nofun, nofun⟩

theorem isEndless_of_hasText (h : HasText style node) : node.isEndless = false := by
  induction h with
  | scalar _ => rfl
  | list _ ih => exact Node.someEndless_eq_false ih
  | map _ _ _ ih => exact Node.someEntryEndless_eq_false ih
  | pair _ _ ihx ihy => rw [Node.isEndless, ihx, ihy]; rfl

theorem exists_render_iff_hasText :
    (∃ text, render style node = .ok text) ↔ HasText style node := by
  constructor
  · intro ⟨text, h⟩
    unfold render at h
    split at h
    · cases h
    · exact (exists_write_iff 0).mp ⟨text, h⟩
  · intro h
    rw [render, isEndless_of_hasText h]
    exact (exists_write_iff 0).mpr h

theorem hasText_of_isJson (style : Style) (json : node.isJson = true) : HasText style node := by
  induction node, json using Node.jsonInduction with
  | scalar s hs =>
    refine .scalar ?_
    cases s with
    | int n => exact hs
    | moment _ => cases hs
    | bytes _ => cases hs
    | _ => rfl
  | list items _ ih => exact .list ih
  | map entries json ih =>
    have htexts (e) (he : e ∈ entries) : ∃ s, e.1 = .str s := by
      obtain ⟨s, hs, _⟩ := Scalar.written_of_isJsonKey (Node.isJson_map_iff.mp json e he).1
      exact ⟨s, hs⟩
    refine .map (fun e he => ?_) (fun _ => pairwise_comparable htexts) ih
    obtain ⟨s, hs⟩ := htexts e he
    rw [hs]
    rfl

end
end Json
end OpenApi
