import Mathlib.Data.List.Forall2
import Mathlib.Data.List.Nodup
import OpenApi.Json.Reader
import OpenApi.Proofs.Entries
import OpenApi.Proofs.JsonTokens
import OpenApi.Proofs.WritableValues

/-
What is written as JSON is read as it was.

`Notes` says which texts stand for a value: marks around and between its parts, blanks about them,
and for each scalar the text that is written for it.  What is written is such a text however it is
laid out (`notes_of_write`), and reading any such text gives the value back (`read_of_notes`).
-/
namespace OpenApi

namespace Node

/-- Whether all integers in a value are short enough to be written. -/
def IntsFit (node : Node) : Prop := ∀ n, (Node.int n).OccursIn node → Number.isLong n = false

/-- Whether a value is one that JSON has a notation for: no dates, bytes or sets, and in its maps
only texts as keys, each of them once. -/
inductive HasNotation : Node → Prop where
  | null : HasNotation .null
  | bool (b : Bool) : HasNotation (.bool b)
  | int (n : Int) : HasNotation (.int n)
  | float (x : Double) : HasNotation (.float x)
  | str (s : String) : HasNotation (.str s)
  | list {items : List Node} (parts : ∀ x ∈ items, HasNotation x) : HasNotation (.list items)
  | map {entries : Entries} (texts : ∀ e ∈ entries, ∃ key, e.1 = .str key)
      (distinct : (entries.map Prod.fst).Nodup) (parts : ∀ e ∈ entries, HasNotation e.2) :
      HasNotation (.map entries)

/-- A map with some of the given keys, each of them once. -/
theorem HasNotation.ofKeys {entries : Entries} (keys : List String) (distinct : keys.Nodup)
    (hkeys : (entries.map Prod.fst).Sublist (keys.map Scalar.str))
    (parts : ∀ e ∈ entries, e.2.HasNotation) : (Node.map entries).HasNotation := by
  refine .map (fun e he => ?_) ?_ parts
  · obtain ⟨key, _, hkey⟩ := List.mem_map.mp (hkeys.subset (List.mem_map_of_mem he))
    exact ⟨key, hkey.symm⟩
  · exact hkeys.nodup (List.Nodup.map (fun _ _ => Scalar.str.inj) distinct)

theorem intsFit_str (s : String) : (Node.str s).IntsFit := by
  intro n h
  cases h

theorem intsFit_list {items : List Node} (h : ∀ x ∈ items, x.IntsFit) :
    (Node.list items).IntsFit := by
  intro n hn
  cases hn with
  | item mem below => exact h _ mem n below

theorem intsFit_map {entries : Entries} (h : ∀ e ∈ entries, e.2.IntsFit) :
    (Node.map entries).IntsFit := by
  intro n hn
  cases hn with
  | entry mem below => exact h _ mem n below

mutual

/-- How many lists and maps lie in one another in a value. -/
def nesting : Node → Nat
  | .list items => 1 + nestingItems items
  | .map entries => 1 + nestingEntries entries
  | _ => 0

def nestingItems : List Node → Nat
  | [] => 0
  | x :: xs => max x.nesting (nestingItems xs)

def nestingEntries : Entries → Nat
  | [] => 0
  | (_, v) :: rest => max v.nesting (nestingEntries rest)

end

end Node

namespace Json

/-- Whether a text consists of what is written between tokens. -/
def Blanks (cs : List Char) : Prop := ∀ c ∈ cs, c = ' ' ∨ c = '\n'

theorem Blanks.isBlank {cs : List Char} (h : Blanks cs) : ∀ c ∈ cs, isBlank c = true := by
  intro c hc
  rcases h c hc with rfl | rfl <;> rfl

mutual

/-- Whether a text stands for a value. -/
inductive Notes (style : Style) : Node → List Char → Prop where
  | scalar {s : Scalar} {text : String} (written : scalar style s = .ok text) :
      Notes style (.scalar s) text.toList
  | emptyList : Notes style (.list []) ['[', ']']
  | list {items : List Node} {cs : List Char} (parts : NotesItems style items cs) :
      Notes style (.list items) ('[' :: (cs ++ [']']))
  | emptyMap : Notes style (.map []) ['\x7b', '\x7d']
  | map {entries : Entries} {cs : List Char} (parts : NotesEntries style entries cs) :
      Notes style (.map entries) ('\x7b' :: (cs ++ ['\x7d']))

/-- Whether a text stands for items, with commas between them. -/
inductive NotesItems (style : Style) : List Node → List Char → Prop where
  | last {x : Node} {before text after : List Char} (hbefore : Blanks before)
      (value : Notes style x text) (hafter : Blanks after) :
      NotesItems style [x] (before ++ (text ++ after))
  | more {x : Node} {xs : List Node} {before text rest : List Char} (hbefore : Blanks before)
      (value : Notes style x text) (items : NotesItems style xs rest) :
      NotesItems style (x :: xs) (before ++ (text ++ ',' :: rest))

/-- Whether a text stands for entries, with commas between them. -/
inductive NotesEntries (style : Style) : Entries → List Char → Prop where
  | last {key : String} {x : Node} {before between text after : List Char}
      (hbefore : Blanks before) (hbetween : Blanks between) (value : Notes style x text)
      (hafter : Blanks after) :
      NotesEntries style [(.str key, x)]
        (before ++ ((quote style.ascii key).toList ++ ':' :: (between ++ (text ++ after))))
  | more {key : String} {x : Node} {entries : Entries} {before between text rest : List Char}
      (hbefore : Blanks before) (hbetween : Blanks between) (value : Notes style x text)
      (more : NotesEntries style entries rest) :
      NotesEntries style ((.str key, x) :: entries)
        (before ++ ((quote style.ascii key).toList ++ ':' :: (between ++ (text ++ ',' :: rest))))

end

/-! ### Reading -/

theorem endsNumber_of_blank {c : Char} (h : c = ' ' ∨ c = '\n') (rest : List Char) :
    EndsNumber (c :: rest) := by
  intro d hd
  cases hd
  rcases h with rfl | rfl <;> decide

theorem endsNumber_of_blanks {blanks rest : List Char} {c : Char} (h : Blanks blanks)
    (hc : c ∈ [',', ']', '\x7d']) : EndsNumber (blanks ++ c :: rest) := by
  cases blanks with
  | nil =>
    intro d hd
    cases hd
    have hmarks : ∀ d ∈ [',', ']', '\x7d'], d.isDigit = false ∧ d ≠ '.' ∧ d ≠ 'e' ∧ d ≠ 'E' :=
      Text.forall_mem_of_all (by decide)
    exact hmarks c hc
  | cons b blanks => exact endsNumber_of_blank (h b List.mem_cons_self) _

/-- A key that a map does not have yet comes at its end. -/
theorem insert_eq_append {key : String} {entries : Entries} (h : .str key ∉ entries.map Prod.fst)
    (value : Node) : Entries.insert (.str key) value entries = entries ++ [(.str key, value)] := by
  induction entries with
  | nil => rfl
  | cons e rest ih =>
    obtain ⟨k, v⟩ := e
    rw [List.map_cons, List.mem_cons, not_or] at h
    rw [Entries.insert, if_neg fun hsame => h.1 (Entries.same_str_iff.mp hsame).symm, ih h.2]
    rfl

section
variable {frames : List Frame} {want : Want} {rest : List Char}

theorem run_cons {token : Token} (sound : ∀ fault place, token ≠ .broken fault place)
    (here : List Char) (more : List (Token × List Char)) {next : List Frame × Want}
    (h : step frames want token = .ok next) :
    run frames want ((token, here) :: more) = run next.1 next.2 more := by
  cases token with
  | broken fault place => exact absurd rfl (sound fault place)
  | _ =>
    rw [run, h]
    exact fun _ _ heq => nomatch heq

/-- Whether a character is a token by itself. -/
structure IsMark (c : Char) (token : Token) : Prop where
  notBlank : isBlank c = false
  next : ∀ rest, next c rest = (token, rest)
  sound : ∀ fault place, token ≠ .broken fault place

theorem isMark_mapOpen : IsMark '\x7b' .mapOpen := ⟨rfl, fun _ => rfl, nofun⟩

theorem isMark_mapClose : IsMark '\x7d' .mapClose := ⟨rfl, fun _ => rfl, nofun⟩

theorem isMark_listOpen : IsMark '[' .listOpen := ⟨rfl, fun _ => rfl, nofun⟩

theorem isMark_listClose : IsMark ']' .listClose := ⟨rfl, fun _ => rfl, nofun⟩

theorem isMark_colon : IsMark ':' .colon := ⟨rfl, fun _ => rfl, nofun⟩

theorem isMark_comma : IsMark ',' .comma := ⟨rfl, fun _ => rfl, nofun⟩

theorem run_mark {c : Char} {token : Token} {next : List Frame × Want} (mark : IsMark c token)
    (h : step frames want token = .ok next) :
    run frames want (tokens (c :: rest)) = run next.1 next.2 (tokens rest) := by
  rw [tokens_cons _ mark.notBlank, mark.next]
  exact run_cons mark.sound _ _ h

/-- Whether a value may come next. -/
def Want.isForValue : Want → Bool
  | .value | .valueOrEnd => true
  | _ => false

theorem step_of_isForValue (h : want.isForValue = true) (token : Token)
    (opens : token ≠ .listClose) : step frames want token = begin frames token := by
  unfold step
  split
  case h_2 => exact absurd rfl opens
  all_goals first | rfl | cases h

theorem step_listOpen (h : want.isForValue = true) (fits : frames.length < deepest) :
    step frames want .listOpen = .ok (.list [] :: frames, .valueOrEnd) := by
  rw [step_of_isForValue h .listOpen nofun]
  exact if_pos fits

theorem step_mapOpen (h : want.isForValue = true) (fits : frames.length < deepest) :
    step frames want .mapOpen = .ok (frames, .nameOrEnd) := by
  rw [step_of_isForValue h .mapOpen nofun]
  exact if_pos fits

/-- Whether the name of a member may come next, after the given members. -/
def Want.isForName (done : Entries) (want : Want) : Prop :=
  want = .name done ∨ (want = .nameOrEnd ∧ done = [])

theorem run_name {done : Entries} (h : want.isForName done) (key : String) (here : List Char)
    (more : List (Token × List Char)) :
    run frames want ((.text key, here) :: more) = run frames (.colon done key) more := by
  rcases h with rfl | ⟨rfl, rfl⟩ <;> rfl

end

theorem endsNumber_cons {c : Char} (rest : List Char) (hc : c ∈ [',', ']', '\x7d']) :
    EndsNumber (c :: rest) := @endsNumber_of_blanks [] rest c nofun hc

mutual

/-- A text for a value is read as that value. -/
theorem run_value {style : Style} {node : Node} {cs : List Char} (notes : Notes style node cs)
    (plain : node.HasNotation) {frames : List Frame} {want : Want} {rest : List Char}
    (hwant : want.isForValue = true) (fits : frames.length + node.nesting ≤ deepest)
    (ends : EndsNumber rest) :
    run frames want (tokens (cs ++ rest)) = run frames (.after node) (tokens rest) := by
  cases notes with
  | @scalar s text written =>
    rw [tokens_scalar written ends]
    have hbegin : begin frames (scalarToken s) = .ok (frames, .after (.scalar s)) := by
      cases s <;> rfl
    refine @run_cons frames want _ ?_ _ _ (frames, .after (.scalar s)) ?_
    · cases s <;> exact nofun
    · rw [step_of_isForValue hwant _ (by cases s <;> exact nofun), hbegin]
  | emptyList =>
    rw [Node.nesting] at fits
    have hopen := @step_listOpen frames want hwant (by omega)
    have hclose : step (.list [] :: frames) .valueOrEnd .listClose =
        .ok (frames, .after (.list [])) := rfl
    exact (run_mark isMark_listOpen hopen).trans (run_mark isMark_listClose hclose)
  | list parts =>
    rw [Node.nesting] at fits
    have hopen := @step_listOpen frames want hwant (by omega)
    cases plain with
    | list values =>
      rw [List.cons_append, List.append_assoc, run_mark isMark_listOpen hopen]
      exact run_items parts values rfl fits
  | emptyMap =>
    rw [Node.nesting] at fits
    have hopen := @step_mapOpen frames want hwant (by omega)
    have hclose : step frames .nameOrEnd .mapClose = .ok (frames, .after (.map [])) := rfl
    exact (run_mark isMark_mapOpen hopen).trans (run_mark isMark_mapClose hclose)
  | map parts =>
    rw [Node.nesting] at fits
    have hopen := @step_mapOpen frames want hwant (by omega)
    cases plain with
    | map _ distinct values =>
      rw [List.cons_append, List.append_assoc, run_mark isMark_mapOpen hopen]
      exact run_entries parts values (List.nil_append _ ▸ distinct) (.inr ⟨rfl, rfl⟩) fits

/-- Texts for items are read as further items. -/
theorem run_items {style : Style} {items : List Node} {cs : List Char}
    (notes : NotesItems style items cs) (plain : ∀ x ∈ items, x.HasNotation)
    {frames : List Frame} {done : List Node} {want : Want} {rest : List Char}
    (hwant : want.isForValue = true)
    (fits : frames.length + (1 + Node.nestingItems items) ≤ deepest) :
    run (.list done :: frames) want (tokens (cs ++ ']' :: rest)) =
      run frames (.after (.list (done.reverse ++ items))) (tokens rest) := by
  cases notes with
  | @last x before text after hbefore value hafter =>
    rw [Node.nestingItems] at fits
    have hclose : step (.list done :: frames) (.after x) .listClose =
        .ok (frames, .after (.list (x :: done).reverse)) := rfl
    rw [List.append_assoc, List.append_assoc, tokens_blank hbefore.isBlank,
      run_value value (plain _ List.mem_cons_self) hwant (by rw [List.length_cons]; omega)
        (endsNumber_of_blanks hafter (by decide)), tokens_blank hafter.isBlank,
      run_mark isMark_listClose hclose, List.reverse_cons]
  | @more x xs before text after hbefore value more =>
    rw [Node.nestingItems] at fits
    have hcomma : step (.list done :: frames) (.after x) .comma =
        .ok (.list (x :: done) :: frames, .value) := rfl
    rw [List.append_assoc, List.append_assoc, List.cons_append, tokens_blank hbefore.isBlank,
      run_value value (plain _ List.mem_cons_self) hwant (by rw [List.length_cons]; omega)
        (endsNumber_cons _ (by decide)), run_mark isMark_comma hcomma,
      run_items more (fun y hy => plain y (List.mem_cons_of_mem _ hy)) rfl (by omega),
      List.reverse_cons, List.append_assoc, List.singleton_append]

/-- Texts for entries are read as further entries. -/
theorem run_entries {style : Style} {entries : Entries} {cs : List Char}
    (notes : NotesEntries style entries cs) (plain : ∀ e ∈ entries, e.2.HasNotation)
    {frames : List Frame} {done : Entries} {want : Want} {rest : List Char}
    (distinct : ((done ++ entries).map Prod.fst).Nodup) (hwant : want.isForName done)
    (fits : frames.length + (1 + Node.nestingEntries entries) ≤ deepest) :
    run frames want (tokens (cs ++ '\x7d' :: rest)) =
      run frames (.after (.map (done ++ entries))) (tokens rest) := by
  have hcolon (key : String) : step frames (.colon done key) .colon =
      .ok (.map done key :: frames, .value) := rfl
  have hnew {key : String} {x : Node} {more : Entries} (heq : entries = (.str key, x) :: more) :
      .str key ∉ done.map Prod.fst := by
    intro hmem
    rw [heq, List.map_append, List.nodup_append] at distinct
    exact distinct.2.2 _ hmem _ List.mem_cons_self rfl
  cases notes with
  | @last key x before between text after hbefore hbetween value hafter =>
    rw [Node.nestingEntries] at fits
    have hclose : step (.map done key :: frames) (.after x) .mapClose =
        .ok (frames, .after (.map (done ++ [(.str key, x)]))) := by
      rw [← insert_eq_append (hnew rfl)]
      rfl
    rw [List.append_assoc, List.append_assoc, List.cons_append, List.append_assoc,
      List.append_assoc, tokens_blank hbefore.isBlank, tokens_quote,
      run_name hwant, run_mark isMark_colon (hcolon key),
      tokens_blank hbetween.isBlank,
      run_value value (plain _ List.mem_cons_self) rfl (by rw [List.length_cons]; omega)
        (endsNumber_of_blanks hafter (by decide)), tokens_blank hafter.isBlank,
      run_mark isMark_mapClose hclose]
  | @more key x entries before between text after hbefore hbetween value more =>
    rw [Node.nestingEntries] at fits
    have hcomma : step (.map done key :: frames) (.after x) .comma =
        .ok (frames, .name (done ++ [(.str key, x)])) := by
      rw [← insert_eq_append (hnew rfl)]
      rfl
    have happend : done ++ (.str key, x) :: entries = (done ++ [(.str key, x)]) ++ entries := by
      rw [List.append_assoc, List.singleton_append]
    rw [happend] at distinct ⊢
    rw [List.append_assoc, List.append_assoc, List.cons_append, List.append_assoc,
      List.append_assoc, List.cons_append, tokens_blank hbefore.isBlank, tokens_quote,
      run_name hwant, run_mark isMark_colon (hcolon key),
      tokens_blank hbetween.isBlank,
      run_value value (plain _ List.mem_cons_self) rfl (by rw [List.length_cons]; omega)
        (endsNumber_cons _ (by decide)), run_mark isMark_comma hcomma]
    have hfits : frames.length + (1 + Node.nestingEntries entries) ≤ deepest := by omega
    exact run_entries more (fun e he => plain e (List.mem_cons_of_mem _ he)) distinct (.inl rfl)
      hfits

end

/-- A text that stands for a value is read as that value, whatever blanks follow it. -/
theorem read_of_notes {style : Style} {node : Node} {cs after : List Char}
    (notes : Notes style node cs) (plain : node.HasNotation) (fits : node.nesting ≤ deepest)
    (hafter : Blanks after) : read (cs ++ after) = .ok node := by
  have hends : EndsNumber after := by
    cases after with
    | nil => exact nofun
    | cons c rest => exact endsNumber_of_blank (hafter c List.mem_cons_self) rest
  have hrun : run [] .value (tokens (cs ++ after)) = .ok node := by
    rw [run_value notes plain rfl (by simpa using fits) hends]
    have htokens := tokens_blank hafter.isBlank []
    rw [List.append_nil] at htokens
    rw [htokens]
    rfl
  have hmark : ¬ ((cs ++ after).head? == some '\ufeff') = true := by
    intro h
    obtain ⟨rest, hrest⟩ := List.head?_eq_some_iff.mp (beq_iff_eq.mp h)
    rw [hrest, tokens_cons rest rfl] at hrun
    cases hrun
  rw [read, if_neg hmark, hrun]

/-! ### Writing -/

section
variable {style : Style}

theorem blanks_pad (n : Nat) : Blanks ('\n' :: List.replicate n ' ') := by
  intro c hc
  rcases List.mem_cons.mp hc with rfl | hc
  · exact .inr rfl
  · exact .inl (List.eq_of_mem_replicate hc)

theorem blanks_space : Blanks [' '] := fun _ hc => .inl (List.mem_singleton.mp hc)

/-- Pieces in their marks, with blanks before, between and after them. -/
theorem exists_enclose (style : Style) (depth : Nat) (opening closing : String)
    {pieces : List String} (nonempty : pieces ≠ []) :
    ∃ before between after, Blanks before ∧ Blanks between ∧ Blanks after ∧
      (enclose style depth opening closing pieces).toList = opening.toList ++
        ((before ++ (List.intercalate (',' :: between) (pieces.map String.toList) ++ after)) ++
          closing.toList) := by
  have hempty : pieces.isEmpty = false := by simpa using nonempty
  unfold enclose
  rw [if_neg (by simp [hempty])]
  split
  · refine ⟨[], [' '], [], nofun, blanks_space, nofun, ?_⟩
    simp [String.toList_intercalate]
  · rename_i width _
    refine ⟨_, _, _, blanks_pad (width * (depth + 1)), blanks_pad (width * (depth + 1)),
      blanks_pad (width * depth), ?_⟩
    simp [String.toList_intercalate]

theorem notesItems_of_forall₂ {items : List Node} {pieces : List String} (nonempty : items ≠ [])
    (h : List.Forall₂ (fun x piece => Notes style x piece.toList) items pieces)
    {before between after : List Char} (hbefore : Blanks before) (hbetween : Blanks between)
    (hafter : Blanks after) :
    NotesItems style items
      (before ++ (List.intercalate (',' :: between) (pieces.map String.toList) ++ after)) := by
  induction h generalizing before with
  | nil => exact absurd rfl nonempty
  | @cons x piece xs pieces value rest ih =>
    cases rest with
    | nil =>
      simpa using NotesItems.last hbefore value hafter
    | cons second rest =>
      have hrest := ih (List.cons_ne_nil _ _) hbetween
      have hitems := NotesItems.more hbefore value hrest
      simpa [List.intercalate_cons_cons] using hitems

/-- The text of an entry stands for its key and its value. -/
def NotesEntry (style : Style) (e : Scalar × Node) (piece : String) : Prop :=
  ∃ key text, e.1 = .str key ∧ Notes style e.2 text ∧
    piece.toList = (quote style.ascii key).toList ++ ':' :: ' ' :: text

theorem notesEntries_of_forall₂ {entries : Entries} {pieces : List String}
    (nonempty : entries ≠ []) (h : List.Forall₂ (NotesEntry style) entries pieces)
    {before between after : List Char} (hbefore : Blanks before) (hbetween : Blanks between)
    (hafter : Blanks after) :
    NotesEntries style entries
      (before ++ (List.intercalate (',' :: between) (pieces.map String.toList) ++ after)) := by
  induction h generalizing before with
  | nil => exact absurd rfl nonempty
  | @cons e piece entries pieces entry rest ih =>
    obtain ⟨k, x⟩ := e
    obtain ⟨key, text, rfl, value, hpiece⟩ := entry
    cases rest with
    | nil =>
      have hentries := @NotesEntries.last style key _ _ _ _ _ hbefore blanks_space value hafter
      simpa [hpiece] using hentries
    | cons second rest =>
      have hrest := ih (List.cons_ne_nil _ _) hbetween
      have hentries := @NotesEntries.more style key _ _ _ _ _ _ hbefore blanks_space value hrest
      simpa [List.intercalate_cons_cons, hpiece] using hentries

/-- Every item of a list has its result beside it. -/
theorem exists_forall₂ {α β ε : Type} {f : α → Except ε β} {P : α → β → Prop} {xs : List α}
    (h : ∀ x ∈ xs, ∃ y, f x = .ok y ∧ P x y) :
    ∃ ys, xs.mapM f = .ok ys ∧ List.Forall₂ P xs ys := by
  induction xs with
  | nil => exact ⟨[], rfl, .nil⟩
  | cons x xs ih =>
    rw [List.forall_mem_cons] at h
    obtain ⟨y, hy, hP⟩ := h.1
    obtain ⟨ys, hys, hall⟩ := ih h.2
    exact ⟨y :: ys, by rw [List.mapM_cons, hy, hys]; rfl, .cons hP hall⟩

/-- A list is written as the texts of its items in brackets. -/
theorem notes_list {items : List Node} {pieces : List String}
    (h : List.Forall₂ (fun x piece => Notes style x piece.toList) items pieces) (depth : Nat) :
    Notes style (.list items) (enclose style depth "[" "]" pieces).toList := by
  cases items with
  | nil =>
    cases h
    show Notes style _ ("[" ++ "]").toList
    rw [String.toList_append]
    exact .emptyList
  | cons x xs =>
    obtain ⟨_, _, _, hbefore, hbetween, hafter, htext⟩ := @exists_enclose style depth "[" "]"
      pieces (by rintro rfl; cases h)
    rw [htext]
    exact .list (notesItems_of_forall₂ (List.cons_ne_nil _ _) h hbefore hbetween hafter)

/-- A map is written as the texts of its entries in braces. -/
theorem notes_map {entries : Entries} {pieces : List String}
    (h : List.Forall₂ (NotesEntry style) entries pieces) (depth : Nat) :
    Notes style (.map entries) (enclose style depth "\x7b" "\x7d" pieces).toList := by
  cases entries with
  | nil =>
    cases h
    show Notes style _ ("\x7b" ++ "\x7d").toList
    rw [String.toList_append]
    exact .emptyMap
  | cons e rest =>
    obtain ⟨_, _, _, hbefore, hbetween, hafter, htext⟩ := @exists_enclose style depth "\x7b" "\x7d"
      pieces (by rintro rfl; cases h)
    rw [htext]
    exact .map (notesEntries_of_forall₂ (List.cons_ne_nil _ _) h hbefore hbetween hafter)

theorem write_map_of_unsorted (unsorted : style.sorted = false) (depth : Nat)
    (entries : Entries) : write style depth (.map entries) =
      (entries.mapM fun e => entry style (e.1, write style (depth + 1) e.2)).map
        (enclose style depth "\x7b" "\x7d") := by
  rw [write_map, arrange, unsorted, if_neg Bool.false_ne_true]
  exact congrArg (Except.map _) (List.mapM_map ..)

theorem scalar_int {n : Int} (short : Number.isLong n = false) :
    scalar style (.int n) = .ok (Number.intText n) := by
  show (if Number.isLong n then Except.error Unwritable.tooLong else .ok (Number.intText n)) = _
  rw [short]
  rfl

/-- A value is written as a text that stands for it. -/
theorem exists_notes (unsorted : style.sorted = false) {node : Node} (plain : node.HasNotation)
    (fits : node.IntsFit) (depth : Nat) :
    ∃ text, write style depth node = .ok text ∧ Notes style node text.toList := by
  induction plain generalizing depth with
  | null => exact ⟨_, rfl, .scalar rfl⟩
  | bool b => cases b <;> exact ⟨_, rfl, .scalar rfl⟩
  | int n =>
    have hint := @scalar_int style n (fits n .whole)
    exact ⟨_, hint, .scalar hint⟩
  | float x => exact ⟨_, rfl, .scalar rfl⟩
  | str s => exact ⟨_, rfl, .scalar rfl⟩
  | @list items _ ih =>
    obtain ⟨pieces, hpieces, hnotes⟩ := exists_forall₂ fun x hx =>
      ih x hx (fun n hn => fits n (.item hx hn)) (depth + 1)
    exact ⟨_, by rw [write, writeItems_eq_mapM, hpieces]; rfl, notes_list hnotes depth⟩
  | @map entries texts _ _ ih =>
    have hentry : ∀ e ∈ entries, ∃ piece,
        entry style (e.1, write style (depth + 1) e.2) = .ok piece ∧ NotesEntry style e piece := by
      intro e he
      obtain ⟨key, hkey⟩ := texts e he
      obtain ⟨text, hwrite, hnotes⟩ := ih e he (fun n hn => fits n (.entry he hn)) (depth + 1)
      refine ⟨_, by rw [hkey, hwrite]; rfl, key, text.toList, hkey, hnotes, ?_⟩
      simp
    obtain ⟨pieces, hpieces, hnotes⟩ := exists_forall₂ hentry
    exact ⟨_, by rw [write_map_of_unsorted unsorted, hpieces]; rfl, notes_map hnotes depth⟩

/-- No integer is too long in a value that is written. -/
theorem intsFit_of_hasText {node : Node} (h : HasText style node) : node.IntsFit := by
  induction h with
  | @scalar s written =>
    intro n hn
    cases hn
    simpa [Scalar.hasText] using written
  | list _ ih => exact Node.intsFit_list ih
  | map _ _ _ ih => exact Node.intsFit_map ih
  | pair _ _ ihx ihy =>
    intro n hn
    cases hn

theorem isEndless_of_hasNotation {node : Node} (plain : node.HasNotation) :
    node.isEndless = false := by
  induction plain with
  | list _ ih => exact Node.someEndless_eq_false ih
  | map _ _ _ ih => exact Node.someEntryEndless_eq_false ih
  | _ => rfl

/-- The text of a value stands for the value. -/
theorem notes_of_render (unsorted : style.sorted = false) {node : Node} (plain : node.HasNotation)
    {text : String} (h : render style node = .ok text) : Notes style node text.toList := by
  have hwrite : write style 0 node = .ok text := by
    rwa [render, isEndless_of_hasNotation plain] at h
  have fits := intsFit_of_hasText (exists_render_iff_hasText.mp ⟨text, h⟩)
  obtain ⟨text', htext', hnotes⟩ := exists_notes unsorted plain fits 0
  cases htext'.symm.trans hwrite
  exact hnotes

/-- A value is written just if no integer in it is too long. -/
theorem exists_render_iff (unsorted : style.sorted = false) {node : Node}
    (plain : node.HasNotation) : (∃ text, render style node = .ok text) ↔ node.IntsFit := by
  constructor
  · exact fun h => intsFit_of_hasText (exists_render_iff_hasText.mp h)
  · intro fits
    rw [render, isEndless_of_hasNotation plain]
    obtain ⟨text, htext, _⟩ := exists_notes unsorted plain fits 0
    exact ⟨text, htext⟩

/-- What is written for a value is read as the value. -/
theorem read_render (unsorted : style.sorted = false) {node : Node} (plain : node.HasNotation)
    (fits : node.nesting ≤ deepest) {text : String} (h : render style node = .ok text)
    {after : List Char} (hafter : Blanks after) : read (text.toList ++ after) = .ok node :=
  read_of_notes (notes_of_render unsorted plain h) plain fits hafter

end

end Json
end OpenApi
