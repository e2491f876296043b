import Mathlib.Data.List.Induction
import OpenApi.Proofs.Enumerators
import OpenApi.Proofs.Except

/-
Reading the literals of enumerations back.

A literal stands between single quotes, and inside it a quote and a backslash are written with a
backslash before them.  What a backslash means before any other character differs between languages,
so it is left open (`Escapes`): it may be a fault, stand for some character, or for itself.

The literal of a text has its quotes escaped, and its backslashes left as they are.  So a backslash
makes an escape with whatever comes after it: with another backslash both become one, with a quote
the literal ends too early, and at the end of the text it never ends.  What is read is the text just
if no backslash does such harm (`read?_value_iff`).
-/
namespace OpenApi

namespace Text

/-- What a backslash and the character after it stand for in a literal; nothing if that is a fault.
Besides those of the quote and of the backslash, an escape stands for one character at most, or for
the two characters that it is written with. -/
structure Escapes where
  meaning : Char → Option (List Char)
  quote : meaning '\'' = some ['\'']
  backslash : meaning '\\' = some ['\\']
  short : ∀ c cs, meaning c = some cs → cs.length ≤ 1 ∨ cs = ['\\', c]

namespace Escapes

variable (e : Escapes)

/-- The text of a literal whose opening quote has been read, if its closing quote stands at its
end. -/
def readRest? : List Char → Option (List Char)
  | [] => none
  | '\'' :: rest => if rest.isEmpty then some [] else none
  | '\\' :: rest =>
    match rest with
    | [] => none
    | c :: more => (e.meaning c).bind fun cs => (readRest? more).map (cs ++ ·)
  | c :: rest => (readRest? rest).map (c :: ·)

/-- The text that a literal stands for. -/
def read? : List Char → Option (List Char)
  | '\'' :: rest => e.readRest? rest
  | _ => none

/-- Whether no backslash of a text makes an escape: each is followed by a character beside which it
stands for itself. -/
def Spares (cs : List Char) : Prop :=
  ∀ front back, cs = front ++ '\\' :: back →
    ∃ c ∈ back.head?, e.meaning c = some ['\\', c]

variable {e} {c : Char} {cs rest out : List Char}

theorem readRest?_of_ne (hquote : c ≠ '\'') (hbackslash : c ≠ '\\') :
    e.readRest? (c :: rest) = (e.readRest? rest).map (c :: ·) := by
  rw [readRest?]
  · exact fun heq => hquote heq
  · exact fun heq => hbackslash heq

theorem readRest?_escape (c : Char) (rest : List Char) : e.readRest? ('\\' :: c :: rest) =
    (e.meaning c).bind fun cs => (e.readRest? rest).map (cs ++ ·) := by
  rw [readRest?]

theorem spares_nil : e.Spares [] := by
  intro front back heq
  cases front <;> cases heq

theorem spares_cons_iff (hc : c ≠ '\\') : e.Spares (c :: rest) ↔ e.Spares rest := by
  constructor
  · intro h front back heq
    exact h (c :: front) back (by rw [heq, List.cons_append])
  · intro h front back heq
    cases front with
    | nil => exact absurd (List.cons.inj heq).1 hc
    | cons _ front => exact h front back (List.cons.inj heq).2

theorem not_spares_backslash : ¬ e.Spares ['\\'] := by
  intro h
  obtain ⟨c, hc, _⟩ := h [] [] rfl
  cases hc

theorem ne_of_meaning (h : e.meaning c = some ['\\', c]) : c ≠ '\'' ∧ c ≠ '\\' := by
  constructor
  · rintro rfl
    rw [e.quote] at h
    cases h
  · rintro rfl
    rw [e.backslash] at h
    cases h

theorem spares_escape_iff :
    e.Spares ('\\' :: c :: rest) ↔ e.meaning c = some ['\\', c] ∧ e.Spares rest := by
  constructor
  · intro h
    obtain ⟨d, hd, hmeaning⟩ := h [] (c :: rest) rfl
    cases hd
    refine ⟨hmeaning, fun front back heq => h ('\\' :: c :: front) back ?_⟩
    rw [heq, List.cons_append, List.cons_append]
  · rintro ⟨hmeaning, h⟩ front back heq
    match front, heq with
    | [], heq =>
      obtain rfl := (List.cons.inj heq).2
      exact ⟨c, rfl, hmeaning⟩
    | [_], heq => exact absurd (List.cons.inj (List.cons.inj heq).2).1 (ne_of_meaning hmeaning).2
    | _ :: _ :: front, heq => exact h front back (List.cons.inj (List.cons.inj heq).2).2

/-- A text as it stands in its literal, up to the closing quote. -/
def body (cs : List Char) : List Char := replaceChar '\'' ['\\', '\''] cs ++ ['\'']

theorem body_quote (cs : List Char) : body ('\'' :: cs) = '\\' :: '\'' :: body cs := rfl

theorem body_of_ne (hc : c ≠ '\'') (cs : List Char) : body (c :: cs) = c :: body cs := by
  rw [body, replaceChar, List.flatMap_cons, if_neg hc]
  rfl

theorem body_ne_nil (cs : List Char) : body cs ≠ [] :=
  List.append_ne_nil_of_right_ne_nil _ (List.cons_ne_nil _ _)

/-- How the literal of a text goes on is read in one of four ways: it ends, a quote is read, a
backslash makes an escape with the next character, or a character stands for itself. -/
theorem readRest?_body (h : e.readRest? (body cs) = some out) :
    cs = [] ∧ out = [] ∨
    (∃ rest more, cs = '\'' :: rest ∧ out = '\'' :: more ∧
      e.readRest? (body rest) = some more) ∨
    (∃ c rest meant more, cs = '\\' :: c :: rest ∧ out = meant ++ more ∧
      e.meaning c = some meant ∧ e.readRest? (body rest) = some more) ∨
    ∃ c rest more, c ≠ '\\' ∧ c ≠ '\'' ∧ cs = c :: rest ∧ out = c :: more ∧
      e.readRest? (body rest) = some more := by
  cases cs with
  | nil => exact .inl ⟨rfl, (Option.some.inj h).symm⟩
  | cons c rest =>
    by_cases hquote : c = '\''
    · subst hquote
      rw [body_quote, readRest?_escape, e.quote] at h
      obtain ⟨more, hmore, rfl⟩ := Option.map_eq_some_iff.mp h
      exact .inr (.inl ⟨rest, more, rfl, rfl, hmore⟩)
    · rw [body_of_ne hquote] at h
      by_cases hbackslash : c = '\\'
      · subst hbackslash
        cases rest with
        | nil =>
          -- The backslash takes the closing quote, and nothing is left.
          rw [show body [] = ['\''] from rfl, readRest?_escape, e.quote] at h
          cases h
        | cons d rest =>
          by_cases hd : d = '\''
          · subst hd
            -- Two backslashes, and the quote behind them is not the last character.
            rw [body_quote, readRest?_escape, e.backslash, Option.bind_some, readRest?,
              if_neg (by simp [body_ne_nil])] at h
            cases h
          · rw [body_of_ne hd, readRest?_escape] at h
            obtain ⟨meant, hmeant, h⟩ := Option.bind_eq_some_iff.mp h
            obtain ⟨more, hmore, rfl⟩ := Option.map_eq_some_iff.mp h
            exact .inr (.inr (.inl ⟨d, rest, meant, more, rfl, rfl, hmeant, hmore⟩))
      · rw [readRest?_of_ne hquote hbackslash] at h
        obtain ⟨more, hmore, rfl⟩ := Option.map_eq_some_iff.mp h
        exact .inr (.inr (.inr ⟨c, rest, more, hbackslash, hquote, rfl, rfl, hmore⟩))

/-- What is read of the literal of a text is no longer than the text. -/
theorem length_le_of_readRest? (h : e.readRest? (body cs) = some out) :
    out.length ≤ cs.length := by
  induction hlength : cs.length using Nat.strong_induction_on generalizing cs out with
  | h n ih =>
    subst hlength
    rcases readRest?_body h with ⟨rfl, rfl⟩ | ⟨rest, more, rfl, rfl, hmore⟩ |
      ⟨c, rest, meant, more, rfl, rfl, hmeant, hmore⟩ | ⟨c, rest, more, _, _, rfl, rfl, hmore⟩
    · exact Nat.le_refl _
    · have := ih rest.length (by simp) hmore rfl
      simpa using this
    · have hrest := ih rest.length (by simp only [List.length_cons]; omega) hmore rfl
      have hmeant : meant.length ≤ 2 := by
        rcases e.short c meant hmeant with hshort | rfl
        · omega
        · exact Nat.le_refl _
      simp only [List.length_append, List.length_cons]
      omega
    · have := ih rest.length (by simp) hmore rfl
      simpa using this

/-- A backslash and the character after it are read as they are only if they are no escape: any
other meaning is shorter than the two of them. -/
theorem readRest?_body_escape_iff (hrest : e.readRest? (body rest) = some rest ↔ e.Spares rest) :
    e.readRest? (body ('\\' :: c :: rest)) = some ('\\' :: c :: rest) ↔
      e.Spares ('\\' :: c :: rest) := by
  rw [spares_escape_iff, ← hrest]
  constructor
  · intro h
    rcases readRest?_body h with ⟨heq, _⟩ | ⟨_, _, heq, _⟩ |
      ⟨d, rest', meant, more, heq, hout, hmeant, hmore⟩ | ⟨d, _, _, hd, _, heq, _⟩
    · cases heq
    · cases heq
    · cases heq
      have hshort := length_le_of_readRest? hmore
      have hlength := congrArg List.length hout
      rw [List.length_append, List.length_cons, List.length_cons] at hlength
      rcases e.short c meant hmeant with hle | rfl
      · omega
      · obtain rfl := @List.append_cancel_left _ ['\\', c] _ _ hout
        exact ⟨hmeant, hmore⟩
    · cases heq
      exact absurd rfl hd
  · rintro ⟨hmeaning, hread⟩
    rw [body_of_ne (by decide), body_of_ne (ne_of_meaning hmeaning).1, readRest?_escape,
      hmeaning, Option.bind_some, hread]
    rfl

/-- A text is read from its literal just if no backslash of it makes an escape. -/
theorem readRest?_body_iff : e.readRest? (body cs) = some cs ↔ e.Spares cs := by
  induction hlength : cs.length using Nat.strong_induction_on generalizing cs with
  | h n ih =>
    subst hlength
    cases cs with
    | nil => exact ⟨fun _ => spares_nil, fun _ => rfl⟩
    | cons c rest =>
      by_cases hbackslash : c = '\\'
      · subst hbackslash
        cases rest with
        | nil =>
          refine ⟨fun h => ?_, fun h => absurd h not_spares_backslash⟩
          rw [body_of_ne (by decide), show body [] = ['\''] from rfl, readRest?_escape,
            e.quote] at h
          cases h
        | cons c rest =>
          refine readRest?_body_escape_iff (ih rest.length ?_ rfl)
          rw [List.length_cons, List.length_cons]
          omega
      · have hcons (read : Option (List Char)) :
            read.map (c :: ·) = some (c :: rest) ↔ read = some rest := by
          simp [Option.map_eq_some_iff]
        rw [spares_cons_iff hbackslash, ← ih rest.length (by simp) rfl]
        by_cases hquote : c = '\''
        · subst hquote
          rw [body_quote, readRest?_escape, e.quote, Option.bind_some]
          exact hcons _
        · rw [body_of_ne hquote, readRest?_of_ne hquote hbackslash]
          exact hcons _

/-- Nothing but the quote and the backslash may be escaped. -/
def strict : Escapes where
  meaning c := if c = '\'' ∨ c = '\\' then some [c] else none
  quote := rfl
  backslash := rfl
  short c cs h := by
    split at h
    · cases h
      exact .inl (Nat.le_refl 1)
    · cases h

/-- Before all but the quote and the backslash, a backslash stands for itself. -/
def lenient : Escapes where
  meaning c := if c = '\'' ∨ c = '\\' then some [c] else some ['\\', c]
  quote := rfl
  backslash := rfl
  short c cs h := by
    split at h
    · cases h
      exact .inl (Nat.le_refl 1)
    · cases h
      exact .inr rfl

theorem spares_strict_iff : strict.Spares cs ↔ '\\' ∉ cs := by
  constructor
  · intro h hmem
    obtain ⟨front, back, rfl⟩ := List.append_of_mem hmem
    obtain ⟨c, _, hmeaning⟩ := h front back rfl
    have hother : ¬ (c = '\'' ∨ c = '\\') := not_or.mpr (ne_of_meaning hmeaning)
    have hnone : strict.meaning c = none := if_neg hother
    cases hnone.symm.trans hmeaning
  · rintro h front back rfl
    exact absurd (List.mem_append_right front List.mem_cons_self) h

end Escapes
end Text

namespace Enumerator

open Text

theorem ofValues_text {s : String} (present : s ≠ "") :
    ofValues (.list [.str s]) = .ok [ofText s] := by
  have hpresent : isPresent (.str s) = true := by simpa [isPresent] using present
  rw [ofValues_singleton, if_pos hpresent]
  rfl

theorem toList_value (s : String) : (ofText s).value.toList = '\'' :: Escapes.body s.toList := by
  rw [ofText, quote, String.toList_ofList]
  rfl

/-- The literal of a text is read as the text, by any language that has the escapes of the quote and
of the backslash, just if no backslash of the text makes an escape in that language. -/
theorem read?_value_iff (e : Escapes) {s : String} (present : s ≠ "") :
    ∃ member, ofValues (.list [.str s]) = .ok [member] ∧
      (e.read? member.value.toList = some s.toList ↔ e.Spares s.toList) := by
  refine ⟨ofText s, ofValues_text present, ?_⟩
  rw [toList_value]
  exact Escapes.readRest?_body_iff

/-- A quote is escaped, and a backslash does no harm where it only makes an escape with a quote or
with another backslash. -/
theorem read?_value_spared :
    ("it's" ≠ "" ∧ ∃ member, ofValues (.list [.str "it's"]) = .ok [member] ∧
      Escapes.strict.read? member.value.toList = some "it's".toList) ∧
    "\\d" ≠ "" ∧ ∃ member, ofValues (.list [.str "\\d"]) = .ok [member] ∧
      Escapes.lenient.read? member.value.toList = some "\\d".toList := by
  have hquote : "it's" ≠ "" := by decide
  have hdigit : "\\d" ≠ "" := by decide
  obtain ⟨member, hmember, hread⟩ := read?_value_iff .strict hquote
  obtain ⟨member', hmember', hread'⟩ := read?_value_iff .lenient hdigit
  refine ⟨⟨hquote, member, hmember, hread.mpr ?_⟩, hdigit, member', hmember', hread'.mpr ?_⟩
  · exact Escapes.spares_strict_iff.mpr (by decide +kernel)
  · exact Escapes.spares_escape_iff.mpr ⟨rfl, Escapes.spares_nil⟩

/-- The literal of a lone backslash has no end, whatever else may be escaped. -/
theorem not_read?_value : ¬ ∃ e : Escapes, ∀ s : String, s ≠ "" →
    ∃ member, ofValues (.list [.str s]) = .ok [member] ∧
      e.read? member.value.toList = some s.toList := by
  rintro ⟨e, h⟩
  have hbackslash : "\\" ≠ "" := by decide
  obtain ⟨member, hmember, hread⟩ := h "\\" hbackslash
  rw [ofValues_text hbackslash] at hmember
  cases hmember
  rw [toList_value] at hread
  exact Escapes.not_spares_backslash (Escapes.readRest?_body_iff.mp hread)

end Enumerator
end OpenApi
