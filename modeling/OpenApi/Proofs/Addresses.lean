import OpenApi.Proofs.Numerals
import OpenApi.Proofs.Spelling

/-
Every value in a description has a reference that leads to it.

The reference writes out the way from the root: the keys and the indices on it, with slashes
between them.  Slashes, tildes and percent signs of a key are escaped.  Reading undoes the escapes
in three passes, slashes first and percent signs last, and in this order no pass mistakes what an
earlier one has left for an escape: `~01` is a tilde and a one.  `decode_escape` says so for every
key, those among them that look like escapes themselves, and `resolve_address` that the reference
leads along the way.

There is one limit.  An index is read as a numeral, and a numeral may not be too long.  No list that
could be held in memory has an index that is.
-/
namespace OpenApi

/-! ### Percent signs -/

namespace Text.Percent

/-- A percent sign by its escape, and any other character by itself. -/
def escape (c : Char) : List Char := if c = '%' then ['%', '2', '5'] else [c]

theorem not_mem_escape {c d : Char} (hd : d ∉ ['%', '2', '5']) (hc : d ≠ c) : d ∉ escape c := by
  unfold escape
  split
  · exact hd
  · exact fun hmem => hc (List.mem_singleton.mp hmem)

theorem bytes_escape (cs : List Char) :
    bytes (cs.flatMap escape) = cs.map fun c => UInt8.ofNat c.toNat := by
  induction cs with
  | nil => rfl
  | cons c rest ih =>
    rw [List.flatMap_cons, List.map_cons, escape]
    by_cases hc : c = '%'
    · have hbyte : byte? '2' '5' = some (UInt8.ofNat '%'.toNat) := by decide
      rw [if_pos hc, hc, List.cons_append, List.cons_append, List.cons_append, List.nil_append,
        bytes, hbyte]
      exact congrArg _ ih
    · rw [if_neg hc, List.singleton_append, bytes, ih]
      exact fun _ _ _ heq _ => hc heq

/-- A stretch of ASCII is read as a whole. -/
theorem decodeFrom_append {pending piece : List Char} (h : ∀ c ∈ piece, isAscii c = true)
    (rest : List Char) :
    decodeFrom pending (piece ++ rest) = decodeFrom (piece.reverse ++ pending) rest := by
  induction piece generalizing pending with
  | nil => rfl
  | cons c piece ih =>
    rw [List.forall_mem_cons] at h
    rw [List.cons_append, decodeFrom, if_pos h.1, ih h.2, List.reverse_cons, List.append_assoc,
      List.singleton_append]

theorem isAscii_of_mem_escape {c d : Char} (hc : isAscii c = true) (h : d ∈ escape c) :
    isAscii d = true := by
  unfold escape at h
  split at h
  · have hall : ∀ d ∈ ['%', '2', '5'], isAscii d = true := Text.forall_mem_of_all (by decide)
    exact hall d h
  · rw [List.mem_singleton.mp h]
    exact hc

/-- Decoding undoes the escapes of percent signs; `front` is the stretch of ASCII read so far. -/
theorem decodeFrom_escape {front : List Char} (ha : ∀ c ∈ front, isAscii c = true)
    (cs : List Char) :
    decodeFrom (front.flatMap escape).reverse (cs.flatMap escape) = front ++ cs := by
  have hstretch {front : List Char} (ha : ∀ c ∈ front, isAscii c = true) :
      Utf8.decodeLossy (bytes (front.flatMap escape).reverse.reverse) = front := by
    rw [List.reverse_reverse, bytes_escape]
    exact Utf8.decodeLossy_ascii fun c hc => of_decide_eq_true (ha c hc)
  induction cs generalizing front with
  | nil => rw [List.flatMap_nil, decodeFrom, hstretch ha, List.append_nil]
  | cons c rest ih =>
    rw [List.flatMap_cons]
    by_cases hascii : isAscii c = true
    · have hmore : (escape c).reverse ++ (front.flatMap escape).reverse =
          ((front ++ [c]).flatMap escape).reverse := by
        rw [List.flatMap_append, List.reverse_append, List.flatMap_singleton]
      have hall : ∀ d ∈ front ++ [c], isAscii d = true := fun d hd =>
        (List.mem_append.mp hd).elim (ha d) fun hd => List.mem_singleton.mp hd ▸ hascii
      rw [decodeFrom_append fun d hd => isAscii_of_mem_escape hascii hd, hmore, ih hall,
        List.append_assoc, List.singleton_append]
    · have hc : c ≠ '%' := by
        rintro rfl
        exact hascii (by decide)
      have hrest : decodeFrom [] (rest.flatMap escape) = rest :=
        ih fun _ hd => absurd hd List.not_mem_nil
      rw [escape, if_neg hc, List.singleton_append, decodeFrom, if_neg hascii, hstretch ha, hrest]

theorem decode_flatMap_escape (cs : List Char) : decode (cs.flatMap escape) = cs := by
  have hnil : ∀ c ∈ ([] : List Char), isAscii c = true := fun _ hc => absurd hc List.not_mem_nil
  exact decodeFrom_escape hnil cs

end Text.Percent

namespace Reference

/-! ### Keys -/

/-- A character with tildes and percent signs escaped. -/
def escapeTilde (c : Char) : List Char := if c = '~' then ['~', '0'] else Text.Percent.escape c

/-- A character of a key as it stands in a reference. -/
def escapeChar (c : Char) : List Char := if c = '/' then ['~', '1'] else escapeTilde c

def escape (key : List Char) : List Char := key.flatMap escapeChar

theorem replace_slashes (key : List Char) :
    Text.replace ['~', '1'] ['/'] (escape key) = key.flatMap escapeTilde := by
  refine Text.replace_flatMap (fun c rest => ?_) key
  unfold escapeChar
  by_cases hslash : c = '/'
  · have hread : escapeTilde '/' = ['/'] := by decide
    rw [if_pos hslash, hslash, hread, Text.replace_append (by decide)]
  · rw [if_neg hslash, escapeTilde]
    by_cases htilde : c = '~'
    · -- The tilde of an escaped tilde is followed by a zero.
      have hzero : ¬ ['~', '1'].isPrefixOf ('~' :: '0' :: rest) = true := by
        simp [List.isPrefixOf]
      have hrest : Text.replace ['~', '1'] ['/'] ('0' :: rest) =
          '0' :: Text.replace ['~', '1'] ['/'] rest := by
        have hpiece : '~' ∉ ['0'] := by decide
        exact Text.replace_append_of_not_mem hpiece
      rw [if_pos htilde, List.cons_append, List.singleton_append, Text.replace_cons hzero, hrest]
      rfl
    · rw [if_neg htilde]
      exact Text.replace_append_of_not_mem
        (Text.Percent.not_mem_escape (by decide) (Ne.symm htilde))

theorem replace_tildes (key : List Char) :
    Text.replace ['~', '0'] ['~'] (key.flatMap escapeTilde) = key.flatMap Text.Percent.escape := by
  refine Text.replace_flatMap (fun c rest => ?_) key
  unfold escapeTilde
  by_cases htilde : c = '~'
  · have hread : Text.Percent.escape '~' = ['~'] := by decide
    rw [if_pos htilde, htilde, hread, Text.replace_append (by decide)]
  · rw [if_neg htilde]
    exact Text.replace_append_of_not_mem (Text.Percent.not_mem_escape (by decide) (Ne.symm htilde))

/-- A key is read back from its escaped form, whatever its characters are. -/
theorem decode_escape (key : List Char) : decode (escape key) = key := by
  rw [decode, replace_slashes, replace_tildes, Text.Percent.decode_flatMap_escape]

theorem not_mem_escape (key : List Char) : '/' ∉ escape key := by
  intro hmem
  obtain ⟨c, _, hc⟩ := List.mem_flatMap.mp hmem
  unfold escapeChar escapeTilde at hc
  split_ifs at hc with hslash htilde
  · exact absurd hc (by decide)
  · exact absurd hc (by decide)
  · exact Text.Percent.not_mem_escape (by decide) (Ne.symm hslash) hc

theorem escape_ne_nil {key : List Char} (h : key ≠ []) : escape key ≠ [] := by
  obtain ⟨c, rest, rfl⟩ := List.exists_cons_of_ne_nil h
  rw [escape, List.flatMap_cons]
  refine List.append_ne_nil_of_left_ne_nil ?_ _
  unfold escapeChar escapeTilde Text.Percent.escape
  split_ifs <;> exact List.cons_ne_nil _ _

/-! ### Ways -/

/-- One step of a way: to the value of a key, or to the item at an index. -/
inductive Hop where
  | key (key : String)
  | index (index : Nat)

/-- Whether a step leads from one value to another.  Keys without characters are not followed. -/
inductive Hop.Leads : Node → Hop → Node → Prop where
  | key {entries : Entries} {key : String} {next : Node} (named : key ≠ "")
      (found : Entries.get? key entries = some next) : Leads (.map entries) (.key key) next
  | index {items : List Node} {index : Nat} {next : Node} (found : items[index]? = some next) :
      Leads (.list items) (.index index) next

/-- Whether steps lead from one value to another, each from where the one before it has led. -/
inductive Along {α : Type} (Leads : Node → α → Node → Prop) : Node → List α → Node → Prop where
  | here {node : Node} : Along Leads node [] node
  | on {node next target : Node} {step : α} {rest : List α} (first : Leads node step next)
      (further : Along Leads next rest target) : Along Leads node (step :: rest) target

/-- A step as it stands in a reference. -/
def Hop.written : Hop → List Char
  | .key name => escape name.toList
  | .index n => Nat.toDigits 10 n

/-- What the written step is decoded to. -/
def Hop.segment : Hop → String
  | .key name => name
  | .index n => String.ofList (Nat.toDigits 10 n)

/-- Whether a step is no index, or one whose numeral is short enough to be read. -/
def Hop.isShort : Hop → Bool
  | .key _ => true
  | .index n => !Number.isLong n

/-- The reference that writes out a way. -/
def address (way : List Hop) : String :=
  String.ofList ('#' :: '/' :: Text.join ['/'] (way.map Hop.written))

/-- A numeral has nothing in it that is read as an escape. -/
theorem decode_toDigits (index : Nat) : decode (Nat.toDigits 10 index) = Nat.toDigits 10 index := by
  have hplain : ∀ c ∈ Nat.toDigits 10 index, escapeChar c = [c] := by
    intro c hc
    have hne {mark : Char} (hmark : mark.isDigit = false) : c ≠ mark := by
      rintro rfl
      rw [Numeral.isDigit_of_mem_toDigits c hc] at hmark
      cases hmark
    rw [escapeChar, if_neg (hne (by decide)), escapeTilde, if_neg (hne (by decide)),
      Text.Percent.escape, if_neg (hne (by decide))]
  have hescape : escape (Nat.toDigits 10 index) = Nat.toDigits 10 index := by
    rw [escape, List.flatMap_congr hplain]
    exact List.flatMap_singleton' _
  calc decode (Nat.toDigits 10 index) = decode (escape (Nat.toDigits 10 index)) := by rw [hescape]
    _ = Nat.toDigits 10 index := decode_escape _

namespace Hop

theorem ofList_decode_written (hop : Hop) : String.ofList (decode hop.written) = hop.segment := by
  cases hop with
  | key key => rw [written, decode_escape, String.ofList_toList, segment]
  | index index => rw [written, decode_toDigits, segment]

theorem not_mem_written (hop : Hop) : '/' ∉ hop.written := by
  cases hop with
  | key key => exact not_mem_escape key.toList
  | index index =>
    intro hmem
    exact absurd (Numeral.isDigit_of_mem_toDigits _ hmem) (by decide)

variable {node next : Node} {hop : Hop}

theorem Leads.written_ne_nil (h : Leads node hop next) : hop.written ≠ [] := by
  cases h with
  | key named _ => exact escape_ne_nil fun hnil => named (String.toList_eq_nil_iff.mp hnil)
  | index _ => exact Nat.toDigits_ne_nil

/-- What a written step is decoded to is followed as the step, unless it is an index that is too
long. -/
theorem Leads.step_segment (h : Leads node hop next) : step node hop.segment =
    if hop.isShort then .ok next else .error (.badIndex hop.segment) := by
  cases h with
  | key _ found =>
    rw [isShort, if_pos rfl, segment, step, found]
  | @index items index _ found =>
    rw [isShort, segment, step, String.toList_ofList]
    cases hlong : Number.isLong index with
    | false =>
      have hitem : item? items (index : Int) = some next := by
        rw [item?, if_neg (by omega), Int.toNat_natCast, found]
      rw [Numeral.signed?_toDigits hlong, Option.bind_some, hitem]
      rfl
    | true =>
      rw [Numeral.signed?_toDigits_of_isLong hlong]
      rfl

end Hop

section
variable {node target : Node} {way : List Hop}

theorem walk_cons_of_ok {segment : String} {next : Node} (h : step node segment = .ok next)
    (rest : List String) : walk node (segment :: rest) = walk next rest := by
  rw [walk, h]

theorem walk_cons_of_error {segment : String} {fault : PointerFault}
    (h : step node segment = .error fault) (rest : List String) :
    walk node (segment :: rest) = .error fault := by
  rw [walk, h]

/-- Walking along the segments of a way leads to where the way leads. -/
theorem walk_segments (h : Along Hop.Leads node way target) :
    walk node (way.map Hop.segment) = .ok target ↔ ∀ hop ∈ way, hop.isShort = true := by
  induction h with
  | here => exact ⟨fun _ _ hmem => absurd hmem List.not_mem_nil, fun _ => rfl⟩
  | @on node next target hop rest first _ ih =>
    have hstep := first.step_segment
    rw [List.map_cons, List.forall_mem_cons]
    cases hshort : hop.isShort with
    | true =>
      rw [hshort, if_pos rfl] at hstep
      rw [walk_cons_of_ok hstep]
      exact ih.trans (and_iff_right rfl).symm
    | false =>
      rw [hshort, if_neg Bool.false_ne_true] at hstep
      rw [walk_cons_of_error hstep]
      exact iff_of_false (by rintro ⟨⟩) fun hall => Bool.false_ne_true hall.1

theorem Along.written_ne_nil (h : Along Hop.Leads node way target) :
    ∀ piece ∈ way.map Hop.written, piece ≠ [] := by
  induction h with
  | here => exact fun _ hmem => absurd hmem List.not_mem_nil
  | on first _ ih =>
    rw [List.map_cons, List.forall_mem_cons]
    exact ⟨first.written_ne_nil, ih⟩

/-- The segments of the reference that writes out a way. -/
theorem segments?_address (h : Along Hop.Leads node way target) (hne : way ≠ []) :
    segments? (address way) = some (way.map Hop.segment) := by
  have hsplit : Text.split '/' (Text.join ['/'] (way.map Hop.written)) = way.map Hop.written := by
    refine Text.split_join (fun hnil => hne (List.map_eq_nil_iff.mp hnil)) fun piece hpiece => ?_
    obtain ⟨hop, _, rfl⟩ := List.mem_map.mp hpiece
    exact hop.not_mem_written
  have hkept : (way.map Hop.written).filter (!·.isEmpty) = way.map Hop.written := by
    refine List.filter_eq_self.mpr fun piece hpiece => ?_
    rw [Bool.not_eq_true', List.isEmpty_eq_false_iff]
    exact h.written_ne_nil piece hpiece
  rw [address, segments?_of_toList String.toList_ofList, hsplit, hkept, List.map_map]
  exact congrArg some (List.map_congr_left fun hop _ => hop.ofList_decode_written)

/-- Every value that a way leads to from the root is what the reference stands for that writes out
the way, if no index in it is too long to be read. -/
theorem resolve_address {document : Node} (h : Along Hop.Leads document way target)
    (hne : way ≠ []) :
    resolve document (.str (address way)) = .ok target ↔ ∀ hop ∈ way, hop.isShort = true := by
  rw [← walk_segments h, resolve, segments?_address h hne]
  dsimp only
  cases walk document (way.map Hop.segment) with
  | ok found =>
    show Except.ok found = Except.ok target ↔ _
    rw [Except.ok.injEq, Except.ok.injEq]
  | error fault => exact iff_of_false (by rintro ⟨⟩) (by rintro ⟨⟩)

end

/-- A description whose keys look like escapes. -/
def escapedKeys : Node := .map [(.str "a/b", .str "no"), (.str "a~1b", .list
  [.str "no", .map [(.str "~", .str "no"), (.str "%7E", .map [(.str "é/%", .str "yes")])]])]

theorem resolve_address_escapedKeys :
    address [.key "a~1b", .index 1, .key "%7E", .key "é/%"] = "#/a~01b/1/%257E/é~1%25" ∧
      resolve escapedKeys (.str "#/a~01b/1/%257E/é~1%25") = .ok (.str "yes") := by
  have haddress : address [.key "a~1b", .index 1, .key "%7E", .key "é/%"] =
      "#/a~01b/1/%257E/é~1%25" := by decide +kernel
  have hway : Along Hop.Leads escapedKeys [.key "a~1b", .index 1, .key "%7E", .key "é/%"]
      (.str "yes") :=
    .on (.key (by decide) rfl) (.on (.index rfl) (.on (.key (by decide) rfl)
      (.on (.key (by decide) rfl) .here)))
  refine ⟨haddress, ?_⟩
  rw [← haddress]
  exact (resolve_address hway (List.cons_ne_nil _ _)).mpr (by decide +kernel)

end Reference
end OpenApi
