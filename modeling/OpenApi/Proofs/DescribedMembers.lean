import Mathlib.Data.List.TakeWhile
import OpenApi.Proofs.Except
import OpenApi.Proofs.KeptItems
import OpenApi.Proofs.ShortestText
import OpenApi.Proofs.Texts

/-
Members that a description lists.

A description that begins with a pair of a name and digits lists members, and each pair after that
gives one more.  What may be wrong with a pair is only that it has too many digits
(`okIff_ofDescription`).

A description that is written as such a list is read as the list (`ofDescription_description`).
Names may begin with digits or consist of them, so it is the comma that keeps the digits of one pair
apart from the name of the next.
-/
namespace OpenApi.Enumerator

/-! ### Pairs in a text -/

theorem pair?_cases {cs rest : List Char} {p : List Char × List Char}
    (h : pair? cs = some (p, rest)) :
    ∃ after front, front ++ after = cs ∧ p.2 = after.takeWhile Char.isDigit ∧
      rest = after.dropWhile Char.isDigit := by
  unfold pair? at h
  split at h
  · rename_i after hafter
    dsimp only at h
    split at h
    · cases h
    · cases h
      refine ⟨after, cs.takeWhile Text.isWord ++ ['='], ?_, rfl, rfl⟩
      have hwhole := List.takeWhile_append_dropWhile (p := Text.isWord) (l := cs)
      rw [hafter] at hwhole
      simpa using hwhole
  · cases h

/-- A word, the sign and digits make a pair, which ends where the digits do. -/
theorem pair?_append {word digits rest : List Char} (hword : ∀ c ∈ word, Text.isWord c = true)
    (hdigits : ∀ c ∈ digits, c.isDigit = true) (nonempty : word ≠ [])
    (nonempty' : digits ≠ []) (stops : ∀ c ∈ rest.head?, c.isDigit = false) :
    pair? (word ++ '=' :: (digits ++ rest)) = some ((word, digits), rest) := by
  have hsign : ∀ c ∈ ('=' :: (digits ++ rest)).head?, Text.isWord c = false :=
    fun c hc => Option.some.inj hc ▸ rfl
  obtain ⟨hfront, hback⟩ := Text.takeWhile_dropWhile_append hword hsign
  obtain ⟨htake, hdrop⟩ := Text.takeWhile_dropWhile_append hdigits stops
  have hboth : ¬ (word.isEmpty || digits.isEmpty) = true := by
    rw [Bool.or_eq_true, List.isEmpty_iff, List.isEmpty_iff]
    exact not_or.mpr ⟨nonempty, nonempty'⟩
  rw [pair?, hback, hfront]
  change (if word.isEmpty || ((digits ++ rest).takeWhile Char.isDigit).isEmpty then none
    else some ((word, (digits ++ rest).takeWhile Char.isDigit),
      (digits ++ rest).dropWhile Char.isDigit)) = _
  rw [htake, hdrop, if_neg hboth]

theorem pairs_of_pair? {c : Char} {rest after : List Char} {p : List Char × List Char}
    (h : pair? (c :: rest) = some (p, after)) : pairs (c :: rest) = p :: pairs after := by
  rw [pairs]
  split
  · rename_i h'
    rw [h] at h'
    cases h'
    rfl
  · rename_i h'
    rw [h] at h'
    cases h'

theorem pairs_eq_cons {cs after : List Char} {p : List Char × List Char}
    (h : pair? cs = some (p, after)) : pairs cs = p :: pairs after := by
  cases cs with
  | nil => cases h
  | cons c rest => exact pairs_of_pair? h

theorem pairs_nil : pairs [] = [] := by rw [pairs]

theorem pairs_comma (rest : List Char) : pairs (',' :: rest) = pairs rest := by
  have hnone : pair? (',' :: rest) = none := rfl
  rw [pairs]
  split
  · rename_i h
    rw [hnone] at h
    cases h
  · rfl

theorem pairs_of_not_pair? {c : Char} {rest : List Char} (h : pair? (c :: rest) = none) :
    ∃ front back, front ++ back = rest ∧ pairs (c :: rest) = pairs back := by
  rw [pairs]
  split
  · rename_i h'
    rw [h] at h'
    cases h'
  · split
    · exact ⟨_, _, List.takeWhile_append_dropWhile, rfl⟩
    · exact ⟨[], rest, rfl, rfl⟩

/-! ### Their members -/

/-- The pairs that members are made from. -/
def listedPairs : Node → List (List Char × List Char)
  | .str s => if (pair? s.toList).isSome then pairs s.toList else []
  | _ => []

theorem ofDescription_eq (description : Node) : ofDescription description =
    ((listedPairs description).mapM ofPair).map (uniqueByName name) := by
  cases description with
  | scalar s =>
    cases s with
    | str s =>
      rw [ofDescription, listedPairs]
      split <;> rfl
    | _ => rfl
  | _ => rfl

theorem listedPairs_of_pair? {s : String} {p : List Char × List Char} {rest : List Char}
    (h : pair? s.toList = some (p, rest)) : listedPairs (.str s) = p :: pairs rest := by
  have hbegins : (pair? s.toList).isSome = true := by rw [h]; rfl
  rw [listedPairs, if_pos hbegins]
  cases hs : s.toList with
  | nil =>
    rw [hs] at h
    cases h
  | cons c cs =>
    rw [hs] at h
    exact pairs_of_pair? h

theorem okIff_ofPair (p : List Char × List Char) :
    Except.OkIff (p.2.length ≤ Number.longest) (.malformed .noDecimal) (ofPair p) := by
  unfold ofPair
  split
  · rename_i hlong
    exact .error (Nat.not_le.mpr hlong) rfl
  · rename_i hshort
    exact .ok (Nat.not_lt.mp hshort) rfl

/-- A description has members, perhaps none, unless a number in them has too many digits. -/
theorem okIff_ofDescription (description : Node) :
    Except.OkIff (∀ p ∈ listedPairs description, p.2.length ≤ Number.longest)
      (.malformed .noDecimal) (ofDescription description) := by
  rw [ofDescription_eq]
  exact (Except.OkIff.mapM fun p _ => okIff_ofPair p).map _

/-- Members of a description have different names. -/
theorem nodup_names_of_ofDescription {description : Node} {members : List Enumerator}
    (h : ofDescription description = .ok members) : (members.map name).Nodup := by
  rw [ofDescription_eq] at h
  obtain ⟨made, _, rfl⟩ := Except.map_eq_ok_iff.mp h
  exact nodup_map_uniqueByName name made

/-! ### Descriptions that list members -/

/-- A member as a description lists it: a word, and a number that may have zeros in front. -/
structure Listing where
  name : String
  zeros : Nat
  number : Nat
  named : name ≠ ""
  isWord : ∀ c ∈ name.toList, Text.isWord c = true

namespace Listing

def digits (l : Listing) : List Char := List.replicate l.zeros '0' ++ Nat.toDigits 10 l.number

def text (l : Listing) : String := l.name ++ "=" ++ String.ofList l.digits

/-- The description that lists members, with commas between them. -/
def description (listings : List Listing) : String := String.intercalate "," (listings.map text)

/-- The member that is listed. -/
def member (l : Listing) : Enumerator :=
  { name := Name.ofMember l.name, value := toString l.number, type := "number" }

def pair (l : Listing) : List Char × List Char := (l.name.toList, l.digits)

section
variable (l : Listing)

theorem isDigit_of_mem_digits {c : Char} (h : c ∈ l.digits) : c.isDigit = true := by
  rcases List.mem_append.mp h with h | h
  · exact List.eq_of_mem_replicate h ▸ rfl
  · exact Numeral.isDigit_of_mem_toDigits c h

theorem digits_ne_nil : l.digits ≠ [] :=
  List.append_ne_nil_of_right_ne_nil _ Nat.toDigits_ne_nil

theorem value_digits : Numeral.value l.digits = l.number := by
  rw [digits, Numeral.value_append, Numeral.value_replicate_zero, Numeral.value_toDigits]
  omega

theorem toList_text : l.text.toList = l.name.toList ++ '=' :: l.digits := by
  simp [text]

theorem pair?_text {rest : List Char} (stops : ∀ c ∈ rest.head?, c.isDigit = false) :
    pair? (l.text.toList ++ rest) = some (l.pair, rest) := by
  rw [toList_text, List.append_assoc, List.cons_append]
  exact pair?_append l.isWord (fun _ => l.isDigit_of_mem_digits)
    (fun hnil => l.named (String.toList_eq_nil_iff.mp hnil)) l.digits_ne_nil stops

theorem ofPair_pair (fits : l.digits.length ≤ Number.longest) : ofPair l.pair = .ok l.member := by
  rw [pair, ofPair, if_neg (Nat.not_lt.mpr fits), value_digits]
  rfl

theorem toList_description_singleton : (description [l]).toList = l.text.toList ++ [] := by
  simp [description]

theorem toList_description_cons (next : Listing) (rest : List Listing) :
    (description (l :: next :: rest)).toList =
      l.text.toList ++ ',' :: (description (next :: rest)).toList := by
  simp [description, String.toList_intercalate]

end

/-- No listing takes anything from its neighbours: the comma between them belongs to neither. -/
theorem pairs_description (first : Listing) (rest : List Listing) :
    (∃ more, pair? (description (first :: rest)).toList = some (first.pair, more)) ∧
      pairs (description (first :: rest)).toList = (first :: rest).map pair := by
  induction rest generalizing first with
  | nil =>
    have hpair : pair? (first.text.toList ++ []) = some (first.pair, []) := first.pair?_text nofun
    rw [toList_description_singleton, pairs_eq_cons hpair, pairs_nil]
    exact ⟨⟨[], hpair⟩, rfl⟩
  | cons next rest ih =>
    have hpair : pair? (first.text.toList ++ ',' :: (description (next :: rest)).toList) =
        some (first.pair, ',' :: (description (next :: rest)).toList) :=
      first.pair?_text fun c hc => Option.some.inj hc ▸ rfl
    rw [toList_description_cons, pairs_eq_cons hpair, pairs_comma, (ih next).2]
    exact ⟨⟨_, hpair⟩, rfl⟩

theorem listedPairs_description (first : Listing) (rest : List Listing) :
    listedPairs (.str (description (first :: rest))) = (first :: rest).map pair := by
  obtain ⟨⟨more, hpair⟩, hpairs⟩ := pairs_description first rest
  rw [listedPairs_of_pair? hpair, ← pairs_eq_cons hpair, hpairs]

/-- Members are read from a description that lists them if no number has too many digits. -/
theorem okIff_ofDescription_description (first : Listing) (rest : List Listing) :
    Except.OkIff (∀ l ∈ first :: rest, l.digits.length ≤ Number.longest) (.malformed .noDecimal)
      (ofDescription (.str (description (first :: rest)))) := by
  have hok := okIff_ofDescription (.str (description (first :: rest)))
  rwa [listedPairs_description, List.forall_mem_map] at hok

end Listing

/-- A description that lists members is read as these members, of several with one name as the
first, unless a number is written with too many digits. -/
theorem ofDescription_description (first : Listing) (rest : List Listing) :
    ofDescription (.str (Listing.description (first :: rest))) =
      if ∀ l ∈ first :: rest, l.digits.length ≤ Number.longest then
        .ok (((first :: rest).map Listing.member).eraseDupsBy fun a b => a.name == b.name)
      else .error (.malformed .noDecimal) := by
  split
  · rename_i fits
    have hmade : ((first :: rest).map Listing.pair).mapM ofPair =
        .ok ((first :: rest).map Listing.member) := by
      rw [Except.mapM_eq_ok_iff, List.forall₂_map_left_iff, List.forall₂_map_right_iff]
      exact List.forall₂_same.mpr fun l hl => l.ofPair_pair (fits l hl)
    rw [ofDescription_eq, Listing.listedPairs_description, hmade, ← uniqueByName_eq_eraseDupsBy]
    rfl
  · rename_i long
    cases Listing.okIff_ofDescription_description first rest with
    | ok fits _ => exact absurd fits long
    | error _ eq => exact eq

/-- One member whose number is one, with so many zeros in front that it cannot be read. -/
def padded : Listing where
  name := "A"
  zeros := Number.longest
  number := 1
  named := by decide
  isWord := fun c hc => List.mem_singleton.mp hc ▸ rfl

theorem not_ofDescription_description : ¬ ∀ (first : Listing) (rest : List Listing),
    ofDescription (.str (Listing.description (first :: rest))) =
      .ok (((first :: rest).map Listing.member).eraseDupsBy fun a b => a.name == b.name) := by
  intro h
  have fits := (Listing.okIff_ofDescription_description padded []).exists_iff.mp ⟨_, h padded []⟩
  have hlength := fits padded List.mem_cons_self
  have hlong : padded.digits.length = Number.longest + 1 := by
    rw [Listing.digits, List.length_append, List.length_replicate]
    rfl
  omega

end OpenApi.Enumerator
