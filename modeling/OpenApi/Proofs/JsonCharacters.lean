import OpenApi.Proofs.JsonTexts
import OpenApi.Text.LineEnd

/-
The characters of JSON text.

A scalar that is no text is written as a word or as a numeral (`plain_cases`).  So lines end in what
is written only where the layout breaks them, and always with a line feed (`not_mem_of_notes`).
-/
namespace OpenApi

def Double.isFinite : Double → Bool
  | .finite .. => true
  | _ => false

/-- Whether a scalar is no double, or one that is a number. -/
def Scalar.isFinite : Scalar → Bool
  | .float x => x.isFinite
  | _ => true

namespace Json

/-- The words for truth values and null. -/
def literals : List String := ["null", "true", "false"]

/-- The words for doubles that are no numbers. -/
def oddities : List String := ["NaN", "Infinity", "-Infinity"]

/-- What is written for a scalar that is no text: a word, a numeral, or what stands for a double
that is not finite. -/
theorem plain_cases {s : Scalar} {text : String} (h : plain s = .ok text) :
    (s.isFinite = true ∧
        (text ∈ literals ∨ ∃ p : NumberParts, p.WellFormed ∧ p.text = text.toList)) ∨
      (s.isFinite = false ∧ text ∈ oddities) := by
  cases s with
  | null =>
    cases h
    exact .inl ⟨rfl, .inl (.head _)⟩
  | bool b =>
    cases b <;> cases h
    · exact .inl ⟨rfl, .inl (.tail _ (.tail _ (.head _)))⟩
    · exact .inl ⟨rfl, .inl (.tail _ (.head _))⟩
  | int n =>
    unfold plain at h
    dsimp only at h
    split at h
    · cases h
    · cases h
      exact .inl ⟨rfl, .inr ⟨_, NumberParts.wellFormed_ofInt n, NumberParts.text_ofInt n⟩⟩
  | float x =>
    cases h
    cases x with
    | nan => exact .inr ⟨rfl, .head _⟩
    | infinite negative =>
      cases negative
      · exact .inr ⟨rfl, .tail _ (.head _)⟩
      · exact .inr ⟨rfl, .tail _ (.tail _ (.head _))⟩
    | finite negative mantissa exponent canonical =>
      obtain ⟨p, wellFormed, htext, _⟩ := NumberParts.exists_write .json negative canonical
      refine .inl ⟨rfl, .inr ⟨p, wellFormed, ?_⟩⟩
      rw [htext, floatText, String.toList_ofList]
  | _ => cases h

theorem IsWhole.isDigit {whole : List Char} (h : IsWhole whole) :
    ∀ c ∈ whole, c.isDigit = true := by
  cases h with
  | zero =>
    intro c hc
    rw [List.mem_singleton.mp hc]
    rfl
  | digits _ digit => exact digit

theorem NumberParts.mem_text {p : NumberParts} (h : p.WellFormed) {c : Char} (hc : c ∈ p.text) :
    c.isDigit = true ∨ c ∈ ['-', '+', '.', 'e'] := by
  have hwhole := h.whole.isDigit
  have hpoint : ∀ c ∈ p.point, c.isDigit = true ∨ c = '.' := by
    unfold point
    cases hfraction : p.fraction with
    | nil => exact nofun
    | cons d digits =>
      intro c hc
      rcases List.mem_cons.mp hc with rfl | hc
      · exact .inr rfl
      · exact .inl (h.fraction c (hfraction ▸ hc))
  have hpower : ∀ c ∈ p.power, c.isDigit = true ∨ c ∈ ['-', '+', 'e'] := by
    unfold power
    cases hexponent : p.exponent with
    | none => exact nofun
    | some exponent =>
      obtain ⟨negative, digits⟩ := exponent
      intro c hc
      rcases List.mem_cons.mp hc with rfl | hc
      · exact .inr (by decide)
      · rcases List.mem_cons.mp hc with rfl | hc
        · cases negative <;> exact .inr (by decide)
        · exact .inl ((h.exponent _ hexponent).2 c hc)
  have hbody : c ∈ p.whole ++ (p.point ++ p.power) → c.isDigit = true ∨ c ∈ ['-', '+', '.', 'e'] := by
    intro hc
    rcases List.mem_append.mp hc with hc | hc
    · exact .inl (hwhole c hc)
    · rcases List.mem_append.mp hc with hc | hc
      · exact (hpoint c hc).imp_right fun h => by simp [h]
      · refine (hpower c hc).imp_right fun h => ?_
        revert h
        simp only [List.mem_cons]
        tauto
  unfold text Double.signed at hc
  split at hc
  · rcases List.mem_cons.mp hc with rfl | hc
    · exact .inr (by decide)
    · exact hbody hc
  · exact hbody hc

theorem exists_hexDigit {width n : Nat} {c : Char} (h : c ∈ Text.Quoted.hex width n) :
    ∃ d < 16, c = Text.Quoted.hexDigit d := by
  induction width generalizing n with
  | zero => cases h
  | succ width ih =>
    rw [Text.Quoted.hex, List.mem_append] at h
    rcases h with h | h
    · exact ih h
    · exact ⟨n % 16, Nat.mod_lt _ (by decide), List.mem_singleton.mp h⟩

/-! ### Ends of lines -/

theorem not_mem_unitEscape (n : Nat) : '\r' ∉ unitEscape n := by
  have hdigits : ∀ d < 16, '\r' ≠ Text.Quoted.hexDigit d := by decide
  intro h
  rcases List.mem_cons.mp h with h | h
  · cases h
  · rcases List.mem_cons.mp h with h | h
    · cases h
    · obtain ⟨d, hd, heq⟩ := exists_hexDigit h
      exact hdigits d hd heq

theorem not_mem_escape (ascii : Bool) (c : Char) : '\r' ∉ escape ascii c := by
  unfold escape
  split
  all_goals try decide
  rename_i hreturn _ _ _
  dsimp only
  split
  · exact not_mem_unitEscape _
  · split
    · exact fun h => hreturn (List.mem_singleton.mp h).symm
    · split
      · exact not_mem_unitEscape _
      · intro h
        rcases List.mem_append.mp h with h | h <;> exact not_mem_unitEscape _ h

theorem not_mem_quote (ascii : Bool) (s : String) : '\r' ∉ (quote ascii s).toList := by
  rw [quote, String.toList_ofList]
  intro h
  rcases List.mem_cons.mp h with h | h
  · cases h
  · rcases List.mem_append.mp h with h | h
    · obtain ⟨c, _, hc⟩ := List.mem_flatMap.mp h
      exact not_mem_escape ascii c hc
    · exact absurd (List.mem_singleton.mp h) (by decide)

theorem not_mem_scalar {style : Style} {s : Scalar} {text : String}
    (h : scalar style s = .ok text) : '\r' ∉ text.toList := by
  have hwords : ∀ word ∈ literals ++ oddities, '\r' ∉ word.toList := by decide
  have hplain (h : plain s = .ok text) : '\r' ∉ text.toList := by
    rcases plain_cases h with ⟨_, h | ⟨p, wellFormed, htext⟩⟩ | ⟨_, h⟩
    · exact hwords text (List.mem_append_left _ h)
    · rw [← htext]
      intro h
      exact absurd (NumberParts.mem_text wellFormed h) (by decide)
    · exact hwords text (List.mem_append_right _ h)
  cases s with
  | str s =>
    cases h
    exact not_mem_quote _ _
  | _ => exact hplain h

theorem Blanks.not_mem {cs : List Char} (h : Blanks cs) : '\r' ∉ cs := by
  intro hc
  rcases h _ hc with h | h <;> cases h

mutual

/-- No line of a text that stands for a value ends with a carriage return. -/
theorem not_mem_of_notes {style : Style} {node : Node} {cs : List Char}
    (notes : Notes style node cs) : '\r' ∉ cs := by
  cases notes with
  | scalar written => exact not_mem_scalar written
  | emptyList => decide
  | list parts => simpa using not_mem_of_notesItems parts
  | emptyMap => decide
  | map parts => simpa using not_mem_of_notesEntries parts

theorem not_mem_of_notesItems {style : Style} {items : List Node} {cs : List Char}
    (notes : NotesItems style items cs) : '\r' ∉ cs := by
  cases notes with
  | last hbefore value hafter =>
    simp only [List.mem_append, not_or]
    exact ⟨hbefore.not_mem, not_mem_of_notes value, hafter.not_mem⟩
  | more hbefore value items =>
    simp only [List.mem_append, List.mem_cons, not_or]
    exact ⟨hbefore.not_mem, not_mem_of_notes value, by decide, not_mem_of_notesItems items⟩

theorem not_mem_of_notesEntries {style : Style} {entries : Entries} {cs : List Char}
    (notes : NotesEntries style entries cs) : '\r' ∉ cs := by
  cases notes with
  | last hbefore hbetween value hafter =>
    simp only [List.mem_append, List.mem_cons, not_or]
    exact ⟨hbefore.not_mem, not_mem_quote _ _, by decide, hbetween.not_mem,
      not_mem_of_notes value, hafter.not_mem⟩
  | more hbefore hbetween value more =>
    simp only [List.mem_append, List.mem_cons, not_or]
    exact ⟨hbefore.not_mem, not_mem_quote _ _, by decide, hbetween.not_mem,
      not_mem_of_notes value, by decide, not_mem_of_notesEntries more⟩

end

end Json

/-- A text whose lines end with line feeds stays as it is. -/
theorem Text.unifyLineEnds_of_not_mem {cs : List Char} (h : '\r' ∉ cs) : unifyLineEnds cs = cs := by
  induction cs with
  | nil => rfl
  | cons c rest ih =>
    rw [List.mem_cons, not_or] at h
    rw [unifyLineEnds.eq_3 c rest fun _ hc _ => h.1 hc.symm, if_neg (Ne.symm h.1), ih h.2]

end OpenApi
