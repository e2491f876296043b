import Mathlib.Data.List.Infix
import OpenApi.Enumerator
import OpenApi.Occurrence
import OpenApi.Proofs.Except
import OpenApi.TypeUse

/-
Values that a JSON text can hold.

JSON has text keys only and knows no dates, bytes or sets, and a JSON text is finite.  What is read
without looking at its kind is therefore read without trouble almost everywhere: every such value
has a plain text and a JSON text.  Numerals that are too long to be read or written are left out
(`digitsFit`, `Number.isLong`).
-/
namespace OpenApi

namespace Text

/-- Whether every stretch of digits in a text is short enough for a numeral. -/
def digitsFit : List Char → Bool
  | [] => true
  | c :: rest =>
    decide (((c :: rest).takeWhile isDigitLike).length ≤ Number.longest) && digitsFit rest

theorem length_digits_le {cs : List Char} (h : digitsFit cs = true) :
    (cs.takeWhile isDigitLike).length ≤ Number.longest := by
  cases cs with
  | nil => exact Nat.zero_le _
  | cons c rest =>
    rw [digitsFit, Bool.and_eq_true] at h
    exact of_decide_eq_true h.1

theorem digitsFit_of_suffix {cs front back : List Char} (h : digitsFit cs = true)
    (heq : front ++ back = cs) : digitsFit back = true := by
  induction front generalizing cs with
  | nil => rwa [← heq] at h
  | cons c rest ih =>
    subst heq
    rw [List.cons_append, digitsFit, Bool.and_eq_true] at h
    exact ih h.2 rfl

theorem digitsFit_of_length_le {cs : List Char} (h : cs.length ≤ Number.longest) :
    digitsFit cs = true := by
  induction cs with
  | nil => rfl
  | cons c rest ih =>
    rw [digitsFit, Bool.and_eq_true]
    constructor
    · exact decide_eq_true (Nat.le_trans (List.takeWhile_sublist _).length_le h)
    · exact ih (Nat.le_of_succ_le h)

theorem inRuns_of_first {first second code : Nat} (rest : List Nat) (hlow : first ≤ code)
    (hhigh : code < second) : inRuns (first :: second :: rest) code = true := by
  simp [inRuns, hlow, Nat.not_le.mpr hhigh]

theorem isDigitLike_of_isDigit {c : Char} (h : c.isDigit = true) : isDigitLike c = true := by
  rw [Char.isDigit, Bool.and_eq_true, decide_eq_true_eq, decide_eq_true_eq] at h
  have hlow : 48 ≤ c.toNat := h.1
  have hhigh : c.toNat < 58 := Nat.lt_succ_of_le h.2
  exact inRuns_of_first _ hlow hhigh

theorem length_takeWhile_le_of_imp {p q : Char → Bool} (h : ∀ c, p c = true → q c = true)
    (cs : List Char) : (cs.takeWhile p).length ≤ (cs.takeWhile q).length := by
  induction cs with
  | nil => exact Nat.le_refl _
  | cons c rest ih =>
    by_cases hp : p c = true
    · rw [List.takeWhile_cons_of_pos hp, List.takeWhile_cons_of_pos (h c hp)]
      exact Nat.succ_le_succ ih
    · rw [List.takeWhile_cons_of_neg hp]
      exact Nat.zero_le _

end Text

/-! ### Numbers -/

namespace Number

theorem mul_two_pow_lt {m e a b : Nat} (hm : m < Nat.pow 2 a) (he : e ≤ b) :
    m * Nat.pow 2 e < Nat.pow 2 (a + b) := by
  calc m * Nat.pow 2 e
      ≤ m * Nat.pow 2 b := Nat.mul_le_mul_left m (Nat.pow_le_pow_right Nat.two_pos he)
    _ < Nat.pow 2 a * Nat.pow 2 b := Nat.mul_lt_mul_of_pos_right hm (Nat.two_pow_pos b)
    _ = Nat.pow 2 (a + b) := (Nat.pow_add 2 a b).symm

theorem two_pow_le_ten_pow {a b : Nat} (h : a ≤ b) : Nat.pow 2 a ≤ Nat.pow 10 b :=
  Nat.le_trans (Nat.pow_le_pow_left (by decide) a) (Nat.pow_le_pow_right (by decide) h)

theorem natAbs_quotient_lt {x : Double} {num : Int} {den : Nat}
    (h : x.quotient? = some (num, den)) : ∃ e ≤ 1024, num.natAbs < Nat.pow 2 e := by
  cases x with
  | finite negative mantissa exponent canonical =>
    obtain ⟨hmantissa, _, hexponent, _⟩ := canonical
    have hfull : 2 * Double.leastFull = Nat.pow 2 53 := by decide
    have hsize := mul_two_pow_lt (hfull ▸ hmantissa) (Nat.le_refl exponent.toNat)
    refine ⟨53 + exponent.toNat, by omega, ?_⟩
    cases h
    cases negative with
    | false => exact hsize
    | true =>
      rw [if_pos rfl, Int.natAbs_neg]
      exact hsize
  | _ => cases h

/-- A double that is an integer has few digits. -/
theorem not_isLong_of_toInt? {x : Double} {n : Int} (h : x.toInt? = some n) :
    isLong n = false := by
  have hsmall : ∃ e ≤ 1024, n.natAbs < Nat.pow 2 e := by
    unfold Double.toInt? at h
    split at h
    · rename_i num den hquotient
      split at h
      · cases h
        obtain ⟨e, he, hnum⟩ := natAbs_quotient_lt hquotient
        exact ⟨e, he, Nat.lt_of_le_of_lt (Int.natAbs_ediv_le_natAbs num den) hnum⟩
      · cases h
    · cases h
  obtain ⟨e, he, hlt⟩ := hsmall
  have hlong : Nat.pow 2 e ≤ leastLong := by
    unfold leastLong
    exact two_pow_le_ten_pow (Nat.le_trans he (by decide))
  exact decide_eq_false (Nat.not_le.mpr (Nat.lt_of_lt_of_le hlt hlong))

/-- A number that is not too long has no more digits than may be read. -/
theorem length_toDigits_le {n : Int} (short : isLong n = false) :
    (Nat.toDigits 10 n.natAbs).length ≤ longest := by
  have hfits {k : Nat} (hk : 0 < k) (h : n.natAbs < Nat.pow 10 k) :
      (Nat.toDigits 10 n.natAbs).length ≤ k := (Nat.length_toDigits_le_iff (by decide) hk).mpr h
  rw [isLong, decide_eq_false_iff_not] at short
  unfold leastLong at short
  exact hfits (by decide) (Nat.lt_of_not_le short)

theorem text?_int {n : Int} (h : isLong n = false) : text? (.int n) = some (intText n) := by
  simp [text?, h]

theorem exists_literal?_int_iff {n : Int} :
    (∃ text, literal? (.int n) = some text) ↔ isLong n = false := by
  rw [literal?, text?]
  cases isLong n with
  | true => exact ⟨nofun, nofun⟩
  | false => exact ⟨fun _ => rfl, fun _ => ⟨_, rfl⟩⟩

theorem exists_literal?_float (x : Double) : ∃ text, literal? (.float x) = some text := by
  rw [literal?]
  cases h : x.toInt? with
  | none => exact ⟨_, rfl⟩
  | some n => exact ⟨_, text?_int (not_isLong_of_toInt? h)⟩

end Number

/-! ### JSON values -/

/-- Whether a scalar has a JSON text, with no stretch of digits that is too long. -/
def Scalar.isJson : Scalar → Bool
  | .null => true
  | .bool _ => true
  | .int n => !Number.isLong n
  | .float _ => true
  | .str s => Text.digitsFit s.toList
  | _ => false

/-- Whether a scalar is a text, as keys are in JSON, with no stretch of digits that is too long. -/
def Scalar.isJsonKey : Scalar → Bool
  | .str s => Text.digitsFit s.toList
  | _ => false

namespace Node

mutual

/-- Whether a JSON text can hold a value, with no stretch of digits that is too long. -/
def isJson : Node → Bool
  | .scalar s => s.isJson
  | .list items => allJson items
  | .map entries => allJsonEntries entries
  | _ => false

def allJson : List Node → Bool
  | [] => true
  | x :: xs => x.isJson && allJson xs

def allJsonEntries : Entries → Bool
  | [] => true
  | (k, v) :: rest => k.isJsonKey && v.isJson && allJsonEntries rest

end

variable {node : Node} {items : List Node} {entries : Entries}

theorem isJson_list_iff : (list items).isJson = true ↔ ∀ x ∈ items, x.isJson = true := by
  rw [isJson]
  induction items with
  | nil => simp [allJson]
  | cons x xs ih => simp [allJson, ih]

theorem isJson_map_iff :
    (map entries).isJson = true ↔ ∀ e ∈ entries, e.1.isJsonKey = true ∧ e.2.isJson = true := by
  rw [isJson]
  induction entries with
  | nil => simp [allJsonEntries]
  | cons e rest ih =>
    obtain ⟨k, v⟩ := e
    simp only [allJsonEntries, Bool.and_eq_true, ih, List.forall_mem_cons]

theorem OccursIn.isJson {part whole : Node} (h : part.OccursIn whole) (json : whole.isJson = true) :
    part.isJson = true := by
  induction h with
  | whole => exact json
  | item mem _ ih => exact ih (isJson_list_iff.mp json _ mem)
  | entry mem _ ih => exact ih (isJson_map_iff.mp json _ mem).2

theorem isJson_get? {key : String} {v : Node} (json : node.isJson = true)
    (h : node.get? key = some v) : v.isJson = true := (occursIn_of_get? h).isJson json

theorem isJson_get (json : node.isJson = true) (key : String) : (node.get key).isJson = true := by
  rw [get]
  cases h : node.get? key with
  | none => rfl
  | some v => exact isJson_get? json h

theorem isJson_of_mem_items? {v : Node} (json : node.isJson = true)
    (h : v ∈ node.items?.getD []) : v.isJson = true := by
  cases node with
  | list items => exact isJson_list_iff.mp json v h
  | _ => cases h

theorem isJson_of_mem_entries? {e : Scalar × Node} (json : node.isJson = true)
    (h : e ∈ node.entries?.getD []) : e.1.isJsonKey = true ∧ e.2.isJson = true := by
  cases node with
  | map entries => exact isJson_map_iff.mp json e h
  | _ => cases h

/-- Induction on values: what holds of a value as soon as it holds of its parts. -/
theorem induction {P : Node → Prop} (scalar : ∀ s, P (.scalar s))
    (list : ∀ items : List Node, (∀ x ∈ items, P x) → P (.list items))
    (map : ∀ entries : Entries, (∀ e ∈ entries, P e.2) → P (.map entries))
    (set : ∀ members, P (.set members)) (pair : ∀ x y, P x → P y → P (.pair x y))
    (endless : P .endless) (node : Node) : P node := by
  induction hsize : node.size using Nat.strong_induction_on generalizing node with
  | h n ih =>
    subst hsize
    cases node with
    | scalar s => exact scalar s
    | list items =>
      refine list items fun x hx => ih x.size ?_ x rfl
      have := size_le_of_mem hx
      rw [size]
      omega
    | map entries =>
      refine map entries fun e he => ih e.2.size ?_ e.2 rfl
      have := size_le_sizeEntries_of_mem he
      rw [size]
      omega
    | set members => exact set members
    | pair x y =>
      refine pair x y (ih x.size ?_ x rfl) (ih y.size ?_ y rfl)
      · rw [size]
        omega
      · have := size_pos x
        rw [size]
        omega
    | endless => exact endless

/-- Induction on JSON values. -/
theorem jsonInduction {P : (node : Node) → node.isJson = true → Prop}
    (scalar : ∀ (s : Scalar) (json : s.isJson = true), P (.scalar s) json)
    (list : ∀ (items : List Node) (json : (Node.list items).isJson = true),
      (∀ x (mem : x ∈ items), P x (isJson_list_iff.mp json x mem)) → P (.list items) json)
    (map : ∀ (entries : Entries) (json : (Node.map entries).isJson = true),
      (∀ e (mem : e ∈ entries), P e.2 (isJson_map_iff.mp json e mem).2) → P (.map entries) json)
    (node : Node) (json : node.isJson = true) : P node json := by
  induction node using Node.induction with
  | scalar s => exact scalar s json
  | list items ih => exact list items json fun x hx => ih x hx _
  | map entries ih => exact map entries json fun e he => ih e he _
  | set | pair | endless => cases json

theorem someEndless_eq_false {items : List Node} (h : ∀ x ∈ items, x.isEndless = false) :
    someEndless items = false := by
  induction items with
  | nil => rfl
  | cons x xs ih =>
    rw [List.forall_mem_cons] at h
    rw [someEndless, h.1, ih h.2]
    rfl

theorem someEntryEndless_eq_false {entries : Entries}
    (h : ∀ e ∈ entries, e.2.isEndless = false) : someEntryEndless entries = false := by
  induction entries with
  | nil => rfl
  | cons e rest ih =>
    rw [List.forall_mem_cons] at h
    rw [someEntryEndless, h.1, ih h.2]
    rfl

end Node

/-! ### Texts of JSON values -/

theorem Scalar.exists_display? {s : Scalar} (json : s.isJson = true) :
    ∃ text, s.display? = some text := by
  cases s with
  | int n =>
    have hshort : Number.isLong n = false := by simpa [isJson] using json
    refine ⟨Number.intText n, ?_⟩
    rw [display?]
    exact Number.text?_int hshort
  | bool b => cases b <;> exact ⟨_, rfl⟩
  | moment _ => cases json
  | bytes _ => cases json
  | _ => exact ⟨_, rfl⟩

theorem Scalar.exists_text? {s : Scalar} (json : s.isJson = true) :
    ∃ text, s.text? = some text := by
  cases s with
  | str s => exact ⟨s, rfl⟩
  | moment _ => cases json
  | _ =>
    simp only [text?]
    exact exists_display? json

theorem Scalar.written_of_isJsonKey {key : Scalar} (json : key.isJsonKey = true) :
    ∃ s, key = .str s ∧ key.written = .ok s := by
  cases key with
  | str s => exact ⟨s, rfl, rfl⟩
  | _ => cases json

namespace Node

variable {node : Node}

theorem exists_displayItems (around : List Node) {items : List Node}
    (h : ∀ x ∈ items, ∀ around, ∃ text, displayIn around x = some text) :
    ∃ texts, displayItems around items = some texts := by
  induction items with
  | nil => exact ⟨[], rfl⟩
  | cons x xs ih =>
    rw [List.forall_mem_cons] at h
    obtain ⟨first, hfirst⟩ := h.1 around
    obtain ⟨others, hothers⟩ := ih h.2
    refine ⟨first :: others, ?_⟩
    rw [displayItems, hfirst, hothers]

theorem exists_displayEntries (around : List Node) {entries : Entries}
    (json : (Node.map entries).isJson = true)
    (h : ∀ e ∈ entries, ∀ around, ∃ text, displayIn around e.2 = some text) :
    ∃ texts, displayEntries around entries = some texts := by
  rw [isJson_map_iff] at json
  induction entries with
  | nil => exact ⟨[], rfl⟩
  | cons e rest ih =>
    rw [List.forall_mem_cons] at h json
    obtain ⟨s, hs, _⟩ := Scalar.written_of_isJsonKey json.1.1
    obtain ⟨value, hvalue⟩ := h.1 around
    obtain ⟨others, hothers⟩ := ih json.2 h.2
    exact ⟨_, by rw [displayEntries, hs, Scalar.display?, hvalue, hothers]⟩

theorem exists_displayIn (json : node.isJson = true) :
    ∀ around, ∃ text, displayIn around node = some text := by
  induction node, json using jsonInduction with
  | scalar s hs => exact fun _ => Scalar.exists_display? hs
  | list items _ ih =>
    intro around
    rw [displayIn]
    split
    · exact ⟨_, rfl⟩
    · obtain ⟨texts, htexts⟩ := exists_displayItems (.list items :: around) ih
      exact ⟨_, by rw [htexts, Option.map_some]⟩
  | map entries json ih =>
    intro around
    rw [displayIn]
    split
    · exact ⟨_, rfl⟩
    · obtain ⟨texts, htexts⟩ := exists_displayEntries (.map entries :: around) json ih
      exact ⟨_, by rw [htexts, Option.map_some]⟩

theorem exists_display? (json : node.isJson = true) : ∃ text, node.display? = some text :=
  exists_displayIn json []

theorem exists_written (json : node.isJson = true) : ∃ text, node.written = .ok text := by
  have hplain : ∃ text, node.plain? = some text := by
    cases node with
    | scalar s => exact Scalar.exists_text? json
    | _ => exact exists_display? json
  obtain ⟨text, htext⟩ := hplain
  exact ⟨text, by rw [written, htext]; rfl⟩

end Node

end OpenApi
