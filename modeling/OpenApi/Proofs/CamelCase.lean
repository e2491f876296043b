import Mathlib
import OpenApi.Name.Identifier

/-
What is left of a name in camel case.

Camel case forgets what stands between words, and the case of every letter but those that begin a
word after the first.  So two texts come to one name exactly when their words spell the same: the
same letters and digits one after the other, where the same of the letters begin words
(`camelChars_upper_inj`, `camelChars_lower_inj`).  Digits carry no case, so nothing tells whether a
digit begins a word.

Before it is cut into words, a name loses what stands before its first letter.  What else is done to
it there makes no difference (`camelChars_hyphenated`), and a name without letters is lost.
-/
namespace OpenApi.Name

/-! ### Letters and digits -/

theorem isUpper_iff {c : Char} : c.isUpper = true ↔ 65 ≤ c.toNat ∧ c.toNat ≤ 90 := by
  rw [Char.isUpper, decide_eq_true_iff]
  exact Iff.rfl

theorem isLower_iff {c : Char} : c.isLower = true ↔ 97 ≤ c.toNat ∧ c.toNat ≤ 122 := by
  rw [Char.isLower, Bool.and_eq_true, decide_eq_true_iff, decide_eq_true_iff]
  exact Iff.rfl

theorem isDigit_iff {c : Char} : c.isDigit = true ↔ 48 ≤ c.toNat ∧ c.toNat ≤ 57 :=
  Char.isDigit_iff_toNat

theorem toNat_of_isAlphanum {c : Char} (h : c.isAlphanum = true) :
    48 ≤ c.toNat ∧ c.toNat ≤ 122 := by
  simp only [Char.isAlphanum, Char.isAlpha, Bool.or_eq_true, isUpper_iff, isLower_iff,
    isDigit_iff] at h
  omega

/-- A letter or digit is of one kind only. -/
theorem alphanum_cases {c : Char} (h : c.isAlphanum = true) :
    (c.isUpper = true ∧ c.isLower = false ∧ c.isDigit = false) ∨
      (c.isUpper = false ∧ c.isLower = true ∧ c.isDigit = false) ∨
        (c.isUpper = false ∧ c.isLower = false ∧ c.isDigit = true) := by
  simp only [Char.isAlphanum, Char.isAlpha, Bool.or_eq_true] at h
  simp only [← Bool.not_eq_true, isUpper_iff, isLower_iff, isDigit_iff] at h ⊢
  omega

theorem isAlphanum_of_isAlpha {c : Char} (h : c.isAlpha = true) : c.isAlphanum = true := by
  simp [Char.isAlphanum, h]

theorem isAlphanum_toLower {c : Char} (h : c.isAlphanum = true) : c.toLower.isAlphanum = true := by
  by_cases hupper : c.isUpper = true
  · have halpha : c.isAlpha = true := by simp [Char.isAlpha, hupper]
    simp [Char.isAlphanum, halpha]
  · rwa [Char.toLower_eq_of_not_isUpper hupper]

theorem isAlphanum_toUpper {c : Char} (h : c.isAlphanum = true) : c.toUpper.isAlphanum = true := by
  by_cases hlower : c.isLower = true
  · have halpha : c.isAlpha = true := by simp [Char.isAlpha, hlower]
    simp [Char.isAlphanum, halpha]
  · rwa [Char.toUpper_eq_of_not_isLower hlower]

theorem toUpper_eq_toLower {c : Char} (h : c.isAlpha = false) : c.toUpper = c.toLower := by
  have hcases : ¬ c.isUpper = true ∧ ¬ c.isLower = true := by
    rwa [Char.isAlpha, Bool.or_eq_false_iff, ← Bool.not_eq_true, ← Bool.not_eq_true] at h
  rw [Char.toUpper_eq_of_not_isLower hcases.2, Char.toLower_eq_of_not_isUpper hcases.1]

/-! ### Words -/

theorem words_cons_of_not_isAlphanum {c : Char} (h : ¬ c.isAlphanum = true) (rest : List Char) :
    words (c :: rest) = words rest := by
  cases rest <;> simp [words, h]

/-- A word goes on where a letter or digit follows that belongs to it. -/
theorem words_cons_cons {c d : Char} (h : c.isAlphanum = true) (after : List Char) :
    words (c :: d :: after) =
      if joins c d after then extendFirst c (words (d :: after)) else [c] :: words (d :: after) := by
  rw [words, if_neg (by simp [h])]

/-- A word ends where no letter or digit follows. -/
theorem words_cons_of_break {c : Char} {rest : List Char} (h : c.isAlphanum = true)
    (hbreak : rest.head?.any Char.isAlphanum = false) : words (c :: rest) = [c] :: words rest := by
  cases rest with
  | nil => simp [words, h]
  | cons d after =>
    have hd : d.isLower = false ∧ d.isUpper = false ∧ d.isDigit = false := by
      simp only [List.head?_cons, Option.any_some, Char.isAlphanum, Char.isAlpha,
        Bool.or_eq_false_iff] at hbreak
      exact ⟨hbreak.1.2, hbreak.1.1, hbreak.2⟩
    rw [words_cons_cons h, if_neg (by simp [joins, hd])]

theorem exists_words_cons {c : Char} (h : c.isAlphanum = true) (rest : List Char) :
    ∃ word others, words (c :: rest) = (c :: word) :: others := by
  cases rest with
  | nil => exact ⟨[], [], by simp [words, h]⟩
  | cons d after =>
    rw [words_cons_cons h]
    split
    · cases words (d :: after) with
      | nil => exact ⟨[], [], rfl⟩
      | cons word others => exact ⟨word, others, rfl⟩
    · exact ⟨[], _, rfl⟩

theorem not_nil_mem_words (cs : List Char) : [] ∉ words cs := by
  induction cs with
  | nil => exact List.not_mem_nil
  | cons c rest ih =>
    by_cases hc : c.isAlphanum = true
    · cases rest with
      | nil => simp [words, hc]
      | cons d after =>
        rw [words_cons_cons hc]
        split
        · cases hwords : words (d :: after) with
          | nil => simp [extendFirst]
          | cons word others =>
            rw [hwords] at ih
            intro hmem
            rcases List.mem_cons.mp hmem with h | h
            · cases h
            · exact ih (List.mem_cons_of_mem _ h)
        · intro hmem
          rcases List.mem_cons.mp hmem with h | h
          · cases h
          · exact ih h
    · rwa [words_cons_of_not_isAlphanum hc]

theorem isAlphanum_of_mem_words {cs word : List Char} {c : Char} (hword : word ∈ words cs)
    (hc : c ∈ word) : c.isAlphanum = true := by
  have hmem : c ∈ (words cs).flatten := List.mem_flatten_of_mem hword hc
  rw [flatten_words] at hmem
  exact (List.mem_filter.mp hmem).2

/-! ### Camel case -/

/-- The letters and digits of a word in small letters, where a letter that begins it is marked. -/
def spellWord : List Char → List (Bool × Char)
  | [] => []
  | c :: rest => (c.isAlpha, c.toLower) :: rest.map fun d => (false, d.toLower)

/-- The letters and digits of a text in small letters, where those that begin words are marked. -/
def spell (cs : List Char) : List (Bool × Char) := (words cs).flatMap spellWord

/-- A capital in camel case is a letter that begins a word. -/
def readCapital (c : Char) : Bool × Char := (c.isUpper, c.toLower)

def writeCapital (letter : Bool × Char) : Char :=
  if letter.1 then letter.2.toUpper else letter.2

theorem map_readCapital (word : List Char) :
    (capitalize word).map readCapital = spellWord word := by
  cases word with
  | nil => rfl
  | cons c rest => simp [capitalize, spellWord, readCapital]

theorem map_writeCapital (word : List Char) :
    (spellWord word).map writeCapital = capitalize word := by
  cases word with
  | nil => rfl
  | cons c rest =>
    have hfirst : writeCapital (c.isAlpha, c.toLower) = c.toUpper := by
      cases halpha : c.isAlpha with
      | true => exact Char.toUpper_toLower_eq_toUpper c
      | false => exact (toUpper_eq_toLower halpha).symm
    rw [spellWord, List.map_cons, hfirst, List.map_map, capitalize]
    rfl

theorem camelChars_upper (cs : List Char) :
    camelChars .upper cs = (words cs).flatMap capitalize := by
  unfold camelChars
  cases words cs <;> rfl

/-- Two texts are one name in camel case exactly when they spell the same. -/
theorem camelChars_upper_inj {cs ds : List Char} :
    camelChars .upper cs = camelChars .upper ds ↔ spell cs = spell ds := by
  have hread (ws : List (List Char)) :
      (ws.flatMap capitalize).map readCapital = ws.flatMap spellWord := by
    rw [List.map_flatMap, funext map_readCapital]
  have hwrite (ws : List (List Char)) :
      (ws.flatMap spellWord).map writeCapital = ws.flatMap capitalize := by
    rw [List.map_flatMap, funext map_writeCapital]
  rw [camelChars_upper, camelChars_upper]
  constructor
  · intro h
    rw [spell, spell, ← hread, h, hread]
  · intro h
    rw [← hwrite, ← hwrite]
    exact congrArg (List.map writeCapital) h

/-- A text whose first letter is made small. -/
def lowerFirst : List Char → List Char
  | [] => []
  | c :: rest => c.toLower :: rest

theorem camelChars_lower (cs : List Char) :
    camelChars .lower cs = lowerFirst (camelChars .upper cs) := by
  have hempty := not_nil_mem_words cs
  unfold camelChars
  cases hwords : words cs with
  | nil => rfl
  | cons head tail =>
    rw [hwords] at hempty
    cases head with
    | nil => exact absurd List.mem_cons_self hempty
    | cons c rest => simp [Case.first, capitalize, lowerFirst]

/-- Whether a text is empty or begins with a letter. -/
def LetterFirst (cs : List Char) : Prop := ∀ c ∈ cs.head?, c.isAlpha = true

theorem isUpper_head_camelChars {cs : List Char} (h : LetterFirst cs) :
    ∀ c ∈ (camelChars .upper cs).head?, c.isUpper = true := by
  cases cs with
  | nil => exact nofun
  | cons c rest =>
    have halpha : c.isAlpha = true := h c rfl
    obtain ⟨word, others, hwords⟩ := exists_words_cons (isAlphanum_of_isAlpha halpha) rest
    rw [camelChars_upper, hwords]
    simp [capitalize, halpha]

theorem toUpper_of_isUpper {c : Char} (h : c.isUpper = true) : c.toUpper = c :=
  Char.toUpper_eq_of_not_isLower fun hlower => Char.not_isUpper_of_isLower hlower h

/-- Also if the first letter is small: it begins a word in any case. -/
theorem camelChars_lower_inj {cs ds : List Char} (hcs : LetterFirst cs) (hds : LetterFirst ds) :
    camelChars .lower cs = camelChars .lower ds ↔ spell cs = spell ds := by
  rw [← camelChars_upper_inj, camelChars_lower, camelChars_lower]
  have hc := isUpper_head_camelChars hcs
  have hd := isUpper_head_camelChars hds
  constructor
  · intro h
    cases hus : camelChars .upper cs with
    | nil =>
      cases hvs : camelChars .upper ds with
      | nil => rfl
      | cons d rest =>
        rw [hus, hvs] at h
        cases h
    | cons c rest =>
      cases hvs : camelChars .upper ds with
      | nil =>
        rw [hus, hvs] at h
        cases h
      | cons d rest' =>
        rw [hus, hvs, lowerFirst, lowerFirst, List.cons.injEq] at h
        rw [hus] at hc
        rw [hvs] at hd
        have hfirst : c = d := by
          rw [← toUpper_of_isUpper (hc c rfl), ← toUpper_of_isUpper (hd d rfl),
            ← Char.toUpper_toLower_eq_toUpper c, h.1, Char.toUpper_toLower_eq_toUpper]
        rw [hfirst, h.2]
  · exact congrArg lowerFirst

theorem isAlphanum_of_mem_camelChars_upper {cs : List Char} {c : Char}
    (h : c ∈ camelChars .upper cs) : c.isAlphanum = true := by
  rw [camelChars_upper] at h
  obtain ⟨word, hword, hc⟩ := List.mem_flatMap.mp h
  cases word with
  | nil => cases hc
  | cons first rest =>
    rcases List.mem_cons.mp hc with rfl | hc
    · exact isAlphanum_toUpper (isAlphanum_of_mem_words hword List.mem_cons_self)
    · obtain ⟨d, hd, rfl⟩ := List.mem_map.mp hc
      exact isAlphanum_toLower (isAlphanum_of_mem_words hword (List.mem_cons_of_mem _ hd))

theorem isAlphanum_of_mem_camelChars_lower {cs : List Char} {c : Char}
    (h : c ∈ camelChars .lower cs) : c.isAlphanum = true := by
  rw [camelChars_lower] at h
  have hall {d : Char} (hd : d ∈ camelChars .upper cs) : d.isAlphanum = true :=
    isAlphanum_of_mem_camelChars_upper hd
  cases hchars : camelChars .upper cs with
  | nil =>
    rw [hchars] at h
    cases h
  | cons first rest =>
    rw [hchars] at h hall
    rcases List.mem_cons.mp h with rfl | h
    · exact isAlphanum_toLower (hall List.mem_cons_self)
    · exact hall (List.mem_cons_of_mem _ h)

theorem isAlphanum_of_mem_camelChars {case : Case} {cs : List Char} {c : Char}
    (h : c ∈ camelChars case cs) : c.isAlphanum = true := by
  cases case with
  | lower => exact isAlphanum_of_mem_camelChars_lower h
  | upper => exact isAlphanum_of_mem_camelChars_upper h

/-- A name in camel case that begins with a letter is a small letter before letters and digits. -/
theorem exists_camelChars_lower {c : Char} (h : c.isAlpha = true) (rest : List Char) :
    ∃ more, camelChars .lower (c :: rest) = c.toLower :: more := by
  obtain ⟨word, others, hwords⟩ := exists_words_cons (isAlphanum_of_isAlpha h) rest
  rw [camelChars_lower, camelChars_upper, hwords, List.flatMap_cons, capitalize, List.cons_append,
    lowerFirst, Char.toLower_toUpper_eq_toLower]
  exact ⟨_, rfl⟩

/-! ### What is done to a name before -/

section
variable {keep : Char → Bool} {mark : Char}

/-- Squeezing does not change what a text begins with, as far as kept characters are concerned. -/
theorem any_head?_squeeze {p : Char → Bool} (hp : ∀ c, p c = true → keep c = true)
    (hmark : p mark = false) (cs : List Char) :
    (squeeze keep mark cs).head?.any p = cs.head?.any p := by
  induction cs with
  | nil => rfl
  | cons c rest ih =>
    rw [squeeze]
    by_cases hkeep : keep c = true
    · rw [if_pos hkeep]
      rfl
    · have hc : p c = false := Bool.eq_false_iff.mpr fun h => hkeep (hp c h)
      rw [if_neg hkeep]
      split
      · rename_i hnext
        cases rest with
        | nil => cases hnext
        | cons d more =>
          have hdropped : keep d = false := by simpa using hnext
          have hd : p d = false := Bool.eq_false_iff.mpr fun h => by simp [hp d h] at hdropped
          rw [ih]
          simp [hc, hd]
      · simp [hc, hmark]

/-- Words do not change when what stands between them does. -/
theorem words_squeeze (hkeep : ∀ c, c.isAlphanum = true → keep c = true)
    (hmark : mark.isAlphanum = false) (cs : List Char) :
    words (squeeze keep mark cs) = words cs := by
  have hlower (c : Char) (h : c.isLower = true) : keep c = true :=
    hkeep c (isAlphanum_of_isAlpha (by simp [Char.isAlpha, h]))
  have hmarkLower : mark.isLower = false := by
    simp only [Char.isAlphanum, Char.isAlpha, Bool.or_eq_false_iff] at hmark
    exact hmark.1.2
  induction cs with
  | nil => rfl
  | cons c rest ih =>
    by_cases hc : c.isAlphanum = true
    · rw [squeeze, if_pos (hkeep c hc)]
      cases hnext : rest.head?.any Char.isAlphanum with
      | false =>
        rw [words_cons_of_break hc hnext, words_cons_of_break hc, ih]
        rwa [any_head?_squeeze hkeep hmark]
      | true =>
        cases rest with
        | nil => cases hnext
        | cons d after =>
          -- Two neighbours stay neighbours, and a small letter after them stays there.
          rw [squeeze, if_pos (hkeep d hnext)] at ih ⊢
          rw [words_cons_cons hc, words_cons_cons hc, ih, joins, joins,
            any_head?_squeeze hlower hmarkLower]
    · rw [words_cons_of_not_isAlphanum hc, ← ih, squeeze]
      split
      · rw [words_cons_of_not_isAlphanum hc]
      · split
        · rfl
        · rw [words_cons_of_not_isAlphanum (by simp [hmark])]

end

/-- A name from its first letter on. -/
def fromLetter (cs : List Char) : List Char := cs.dropWhile (!·.isAlpha)

theorem letterFirst_fromLetter (cs : List Char) : LetterFirst (fromLetter cs) := by
  intro c hc
  have hfirst := List.head?_dropWhile_not (!·.isAlpha) cs
  rw [show (cs.dropWhile (!·.isAlpha)).head? = some c from hc] at hfirst
  simpa using hfirst

theorem fromLetter_eq_nil_iff {cs : List Char} :
    fromLetter cs = [] ↔ ∀ c ∈ cs, c.isAlpha = false := by
  rw [fromLetter, List.dropWhile_eq_nil_iff]
  simp

theorem camelChars_hyphenated (case : Case) (cs : List Char) :
    camelChars case (hyphenated cs) = camelChars case (fromLetter cs) := by
  have hwords : words (hyphenated cs) = words (fromLetter cs) := by
    refine words_squeeze (fun c hc => ?_) (by decide) _
    simp [hc]
  rw [camelChars, hwords, camelChars]

end OpenApi.Name
