import OpenApi.Proofs.CamelCase
import OpenApi.Text.Lowercase

/-
Camel case keeps every letter and digit.

The words of a name are usually described by a pattern: capitals as far as the last one does not
begin a word of its own, or small letters with at most one capital before them, or capitals, or
digits, each alternative only where those before it do not fit.  Such a pattern can fit in many
ways.  `Pattern.ways` lists them with the preferred ones first, and `Pattern.found` goes through a
text from left to right, takes the first way where there is one and passes over a character where
there is none.

Cutting a text between neighbours finds the same words (`found_word`), because at every letter and
digit some alternative fits and takes one word (`exists_first`).  So what the pattern takes is all
letters and digits, each once and in order, and camel case only changes their case
(`camelCase_keeps_alphanum`).
-/
namespace OpenApi.Name

/-! ### Patterns -/

inductive Pattern where
  /-- One character of a class. -/
  | one (p : Char → Bool)
  /-- Characters of a class, at least one and rather more than fewer. -/
  | run (p : Char → Bool)
  /-- A stretch that fits or, rather not, nothing. -/
  | optional (a : Pattern)
  | sequence (first second : Pattern)
  /-- A stretch that fits the first pattern or, rather not, the second. -/
  | either (first second : Pattern)
  /-- A stretch that fits where the next pattern fits what follows, which is not taken. -/
  | before (a next : Pattern)

namespace Pattern

/-- The stretches of a class at the front of a text, the longest one first, each with what it leaves
of the text. -/
def runs (p : Char → Bool) : List Char → List (List Char × List Char)
  | [] => []
  | c :: rest =>
    if p c then (runs p rest).map (Prod.map (c :: ·) id) ++ [([c], rest)] else []

/-- The ways in which a pattern fits the front of a text, the preferred ones first: the stretch that
is taken, and what is left. -/
def ways : Pattern → List Char → List (List Char × List Char)
  | one _, [] => []
  | one p, c :: rest => if p c then [([c], rest)] else []
  | run p, cs => runs p cs
  | optional a, cs => a.ways cs ++ [([], cs)]
  | sequence first second, cs =>
    (first.ways cs).flatMap fun (taken, left) =>
      (second.ways left).map fun (more, left) => (taken ++ more, left)
  | either first second, cs => first.ways cs ++ second.ways cs
  | before a next, cs => (a.ways cs).filter fun (_, left) => !(next.ways left).isEmpty

/-- One pass of `found`, with `skip` characters of the last stretch still to be passed over. -/
def foundFrom (a : Pattern) : Nat → List Char → List (List Char)
  | _, [] => []
  | skip + 1, _ :: rest => foundFrom a skip rest
  | 0, c :: rest =>
    match (a.ways (c :: rest)).head? with
    | some (taken, _) => taken :: foundFrom a (taken.length - 1) rest
    | none => foundFrom a 0 rest

/-- The stretches of a text that a pattern takes from left to right, if it never takes an empty
one. -/
def found (a : Pattern) (cs : List Char) : List (List Char) := foundFrom a 0 cs

/-- How a word begins that has small letters. -/
def wordStart : Pattern := .sequence (.one Char.isUpper) (.one Char.isLower)

def capitalsBeforeWord : Pattern := .before (.run Char.isUpper) wordStart

def capitalized : Pattern := .sequence (.optional (.one Char.isUpper)) (.run Char.isLower)

/-- `[A-Z]+(?=[A-Z][a-z])|[A-Z]?[a-z]+|[A-Z]+|[0-9]+` -/
def word : Pattern :=
  .either capitalsBeforeWord
    (.either capitalized (.either (.run Char.isUpper) (.run Char.isDigit)))

/-! ### How patterns fit -/

theorem foundFrom_append (a : Pattern) (skipped rest : List Char) :
    a.foundFrom skipped.length (skipped ++ rest) = a.found rest := by
  induction skipped with
  | nil => rfl
  | cons c skipped ih => exact ih

theorem found_of_none {a : Pattern} {c : Char} {rest : List Char}
    (h : (a.ways (c :: rest)).head? = none) : a.found (c :: rest) = a.found rest := by
  rw [found, foundFrom, h]
  rfl

theorem found_of_some {a : Pattern} {c : Char} {taken left : List Char}
    (h : (a.ways (c :: (taken ++ left))).head? = some (c :: taken, left)) :
    a.found (c :: (taken ++ left)) = (c :: taken) :: a.found left := by
  rw [found, foundFrom, h]
  exact congrArg _ (foundFrom_append a taken left)

section
variable {p : Char → Bool} {c d : Char} {rest : List Char}

theorem runs_of_not (h : p c = false) : runs p (c :: rest) = [] := by
  rw [runs, if_neg (by simp [h])]

/-- The longest run is preferred. -/
theorem head?_runs (h : p c = true) (rest : List Char) :
    (runs p (c :: rest)).head? = some (c :: rest.takeWhile p, rest.dropWhile p) := by
  induction rest generalizing c with
  | nil => simp [runs, h]
  | cons d rest ih =>
    rw [runs, if_pos h, List.head?_append, List.head?_map]
    by_cases hd : p d = true
    · rw [ih hd, List.takeWhile_cons_of_pos hd, List.dropWhile_cons_of_pos hd]
      rfl
    · rw [runs_of_not (Bool.eq_false_iff.mpr hd), List.takeWhile_cons_of_neg hd,
        List.dropWhile_cons_of_neg hd]
      rfl

theorem ways_wordStart (d : Char) (rest : List Char) :
    (!(wordStart.ways (d :: rest)).isEmpty) = (d.isUpper && rest.head?.any Char.isLower) := by
  cases hd : d.isUpper with
  | false => simp [wordStart, ways, hd]
  | true =>
    cases rest with
    | nil => simp [wordStart, ways, hd]
    | cons e more => cases he : e.isLower <;> simp [wordStart, ways, hd, he]

/-- One capital more. -/
theorem ways_capitalsBeforeWord (h : c.isUpper = true) (rest : List Char) :
    capitalsBeforeWord.ways (c :: rest) =
      (capitalsBeforeWord.ways rest).map (Prod.map (c :: ·) id) ++
        if !(wordStart.ways rest).isEmpty then [([c], rest)] else [] := by
  simp only [capitalsBeforeWord, ways]
  rw [runs, if_pos h, List.filter_append, List.filter_map, List.filter_singleton,
    Bool.cond_eq_ite]
  rfl

theorem ways_capitalsBeforeWord_of_not (h : c.isUpper = false) :
    capitalsBeforeWord.ways (c :: rest) = [] := by
  simp only [capitalsBeforeWord, ways, runs_of_not h, List.filter_nil]

theorem ways_capitalized_of_isUpper (h : c.isUpper = true) (rest : List Char) :
    capitalized.ways (c :: rest) = (runs Char.isLower rest).map (Prod.map (c :: ·) id) := by
  have hlower : c.isLower = false := Bool.eq_false_iff.mpr (Char.not_isLower_of_isUpper h)
  simp only [capitalized, ways, if_pos h, List.singleton_append, List.flatMap_cons,
    List.flatMap_nil, runs_of_not hlower, List.map_nil, List.append_nil]
  rfl

theorem ways_capitalized_of_not (h : c.isUpper = false) (rest : List Char) :
    capitalized.ways (c :: rest) = runs Char.isLower (c :: rest) := by
  simp [capitalized, ways, h]

theorem head?_word (cs : List Char) : (word.ways cs).head? =
    (capitalsBeforeWord.ways cs).head?.or ((capitalized.ways cs).head?.or
      ((runs Char.isUpper cs).head?.or (runs Char.isDigit cs).head?)) := by
  simp only [word, ways, List.head?_append]

end

end Pattern

/-! ### Single words -/

/-- Whether a stretch is one word of a text in which `after` follows it: its neighbours belong
together, and its end and what follows do not. -/
inductive IsWord (after : List Char) : List Char → Prop where
  | last {c : Char} (kept : c.isAlphanum = true)
      (ends : ∀ d rest, after = d :: rest → joins c d rest = false) : IsWord after [c]
  | joined {c d : Char} {rest : List Char} (kept : c.isAlphanum = true)
      (joined : joins c d (rest ++ after) = true) (more : IsWord after (d :: rest)) :
      IsWord after (c :: d :: rest)

theorem IsWord.words_append {word after : List Char} (h : IsWord after word) :
    words (word ++ after) = word :: words after := by
  induction h with
  | @last c kept ends =>
    cases after with
    | nil => simp [words, kept]
    | cons d rest =>
      rw [List.singleton_append, words_cons_cons kept, if_neg (by simp [ends d rest rfl])]
  | joined kept joined more ih =>
    rw [List.cons_append, List.cons_append, words_cons_cons kept, if_pos joined,
      ← List.cons_append, ih, extendFirst]

/-- A run is a word if the characters of its class belong together, and never with others. -/
theorem isWord_run {p : Char → Bool} (kept : ∀ c, p c = true → c.isAlphanum = true)
    (within : ∀ c d after, p c = true → p d = true → joins c d after = true)
    (apart : ∀ c d after, p c = true → p d = false → joins c d after = false) {c : Char}
    (h : p c = true) (rest : List Char) :
    IsWord (rest.dropWhile p) (c :: rest.takeWhile p) := by
  induction rest generalizing c with
  | nil => exact .last (kept c h) nofun
  | cons d rest ih =>
    by_cases hd : p d = true
    · rw [List.takeWhile_cons_of_pos hd, List.dropWhile_cons_of_pos hd]
      exact .joined (kept c h) (within c d _ h hd) (ih hd)
    · rw [List.takeWhile_cons_of_neg hd, List.dropWhile_cons_of_neg hd]
      refine .last (kept c h) fun e rest heq => ?_
      cases heq
      exact apart c d rest h (Bool.eq_false_iff.mpr hd)

theorem isWord_lower {c : Char} (h : c.isLower = true) (rest : List Char) :
    IsWord (rest.dropWhile Char.isLower) (c :: rest.takeWhile Char.isLower) := by
  refine isWord_run (fun c hc => by simp [Char.isAlphanum, Char.isAlpha, hc])
    (fun c d after hc hd => by simp [joins, hc, hd]) (fun c d after hc hd => ?_) h rest
  have kept : c.isAlphanum = true := by simp [Char.isAlphanum, Char.isAlpha, hc]
  grind [joins, alphanum_cases kept]

theorem isWord_digits {c : Char} (h : c.isDigit = true) (rest : List Char) :
    IsWord (rest.dropWhile Char.isDigit) (c :: rest.takeWhile Char.isDigit) := by
  refine isWord_run (fun c hc => by simp [Char.isAlphanum, hc])
    (fun c d after hc hd => by simp [joins, hc, hd]) (fun c d after hc hd => ?_) h rest
  have kept : c.isAlphanum = true := by simp [Char.isAlphanum, hc]
  grind [joins, alphanum_cases kept]

/-! ### What the pattern takes -/

open Pattern

/-- Whether the pattern takes a stretch from the front of a text, and this is a word there. -/
structure TakesFirst (cs taken left : List Char) : Prop where
  cut : taken ++ left = cs
  way : (Pattern.word.ways cs).head? = some (taken, left)
  isWord : IsWord left taken

section
variable {c d : Char} {rest after taken left : List Char}

/-- A capital that no letter follows is a word. -/
theorem takesFirst_of_no_letter (h : c.isUpper = true)
    (hupper : rest.head?.any Char.isUpper = false) (hlower : rest.head?.any Char.isLower = false) :
    TakesFirst (c :: rest) [c] rest := by
  have kept : c.isAlphanum = true := by simp [Char.isAlphanum, Char.isAlpha, h]
  cases rest with
  | nil =>
    refine ⟨rfl, ?_, .last kept fun _ _ heq => absurd heq.symm (List.cons_ne_nil _ _)⟩
    rw [head?_word, ways_capitalsBeforeWord h, ways_capitalized_of_isUpper h, head?_runs h]
    rfl
  | cons d after =>
    have hd : d.isUpper = false := hupper
    have hd' : d.isLower = false := hlower
    refine ⟨rfl, ?_, .last kept fun e more heq => ?_⟩
    · rw [head?_word, ways_capitalsBeforeWord h, ways_capitalsBeforeWord_of_not hd, ways_wordStart,
        hd, ways_capitalized_of_isUpper h, runs_of_not hd', head?_runs h,
        List.takeWhile_cons_of_neg (by simp [hd]), List.dropWhile_cons_of_neg (by simp [hd])]
      rfl
    · cases heq
      grind [joins, alphanum_cases kept]

/-- A capital and the small letters after it are a word. -/
theorem takesFirst_of_lower (h : c.isUpper = true) (hd : d.isLower = true) :
    TakesFirst (c :: d :: after) (c :: d :: after.takeWhile Char.isLower)
      (after.dropWhile Char.isLower) := by
  have kept : c.isAlphanum = true := by simp [Char.isAlphanum, Char.isAlpha, h]
  have hupper : d.isUpper = false := Bool.eq_false_iff.mpr (Char.not_isUpper_of_isLower hd)
  refine ⟨by simp [List.takeWhile_append_dropWhile], ?_, .joined kept (by simp [joins, h, hd])
    (isWord_lower hd after)⟩
  rw [head?_word, ways_capitalsBeforeWord h, ways_capitalsBeforeWord_of_not hupper,
    ways_wordStart, hupper, ways_capitalized_of_isUpper h, List.head?_map, head?_runs hd]
  rfl

/-- A capital is a word of its own before a capital that begins one. -/
theorem takesFirst_of_wordStart (h : c.isUpper = true) (hd : d.isUpper = true)
    (hnext : after.head?.any Char.isLower = true) :
    TakesFirst (c :: d :: after) [c] (d :: after) := by
  have kept : c.isAlphanum = true := by simp [Char.isAlphanum, Char.isAlpha, h]
  have hnone : capitalsBeforeWord.ways (d :: after) = [] := by
    cases after with
    | nil => cases hnext
    | cons e rest =>
      have he : e.isUpper = false := Bool.eq_false_iff.mpr (Char.not_isUpper_of_isLower hnext)
      rw [ways_capitalsBeforeWord hd, ways_capitalsBeforeWord_of_not he, ways_wordStart, he]
      rfl
  refine ⟨rfl, ?_, .last kept fun e rest heq => ?_⟩
  · rw [head?_word, ways_capitalsBeforeWord h, hnone, ways_wordStart, hd, hnext]
    rfl
  · cases heq
    grind [joins, alphanum_cases kept, Char.not_isLower_of_isUpper]

/-- Before a capital that does not begin a word, a capital belongs to what is taken from there on:
the same alternative takes it as well. -/
theorem TakesFirst.cons (h : c.isUpper = true) (hd : d.isUpper = true)
    (hnext : after.head?.any Char.isLower = false)
    (first : TakesFirst (d :: after) (d :: taken) left) :
    TakesFirst (c :: d :: after) (c :: d :: taken) left := by
  have kept : c.isAlphanum = true := by simp [Char.isAlphanum, Char.isAlpha, h]
  have hafter : taken ++ left = after := (List.cons.inj first.cut).2
  have hsmall : runs Char.isLower (d :: after) = [] :=
    runs_of_not (Bool.eq_false_iff.mpr (Char.not_isLower_of_isUpper hd))
  have hnone : runs Char.isLower after = [] := by
    cases after with
    | nil => rfl
    | cons e rest => exact runs_of_not hnext
  refine ⟨congrArg _ first.cut, ?_, .joined kept ?_ first.isWord⟩
  · have hway := first.way
    rw [head?_word, ways_capitalized_of_isUpper hd, hnone, List.map_nil, List.head?_nil,
      head?_runs hd] at hway
    rw [head?_word, ways_capitalsBeforeWord h, ways_wordStart, hnext, Bool.and_false,
      if_neg Bool.false_ne_true, List.append_nil, List.head?_map, ways_capitalized_of_isUpper h,
      hsmall, List.map_nil, List.head?_nil, head?_runs h, List.takeWhile_cons_of_pos hd,
      List.dropWhile_cons_of_pos hd]
    cases hways : (capitalsBeforeWord.ways (d :: after)).head? with
    | none =>
      rw [hways] at hway
      cases hway
      rfl
    | some way =>
      rw [hways] at hway
      cases hway
      rfl
  · rw [hafter]
    simp [joins, h, hd, hnext]

end

theorem exists_first_of_isUpper {c : Char} (h : c.isUpper = true) (rest : List Char) :
    ∃ taken left, TakesFirst (c :: rest) (c :: taken) left := by
  induction rest generalizing c with
  | nil => exact ⟨[], [], takesFirst_of_no_letter h rfl rfl⟩
  | cons d after ih =>
    by_cases hd : d.isUpper = true
    · by_cases hnext : after.head?.any Char.isLower = true
      · exact ⟨[], _, takesFirst_of_wordStart h hd hnext⟩
      · obtain ⟨taken, left, first⟩ := ih hd
        exact ⟨_, left, first.cons h hd (Bool.eq_false_iff.mpr hnext)⟩
    · by_cases hlower : d.isLower = true
      · exact ⟨_, _, takesFirst_of_lower h hlower⟩
      · exact ⟨[], _, takesFirst_of_no_letter h (Bool.eq_false_iff.mpr hd)
          (Bool.eq_false_iff.mpr hlower)⟩

/-- At every letter and digit some alternative fits, and what it takes is one word. -/
theorem exists_first {c : Char} (h : c.isAlphanum = true) (rest : List Char) :
    ∃ taken left, TakesFirst (c :: rest) (c :: taken) left := by
  rcases alphanum_cases h with ⟨hupper, -, -⟩ | ⟨hupper, hlower, -⟩ | ⟨hupper, hlower, hdigit⟩
  · exact exists_first_of_isUpper hupper rest
  · refine ⟨_, _, by simp [List.takeWhile_append_dropWhile], ?_, isWord_lower hlower rest⟩
    rw [head?_word, ways_capitalsBeforeWord_of_not hupper, ways_capitalized_of_not hupper,
      head?_runs hlower]
    rfl
  · refine ⟨_, _, by simp [List.takeWhile_append_dropWhile], ?_, isWord_digits hdigit rest⟩
    rw [head?_word, ways_capitalsBeforeWord_of_not hupper, ways_capitalized_of_not hupper,
      runs_of_not hlower, runs_of_not hupper, head?_runs hdigit]
    rfl

/-- Anywhere else none fits. -/
theorem head?_word_of_not {c : Char} (h : ¬ c.isAlphanum = true) (rest : List Char) :
    (Pattern.word.ways (c :: rest)).head? = none := by
  have hkind : c.isUpper = false ∧ c.isLower = false ∧ c.isDigit = false := by
    simpa [Char.isAlphanum, Char.isAlpha, and_assoc] using h
  rw [head?_word, ways_capitalsBeforeWord_of_not hkind.1, ways_capitalized_of_not hkind.1,
    runs_of_not hkind.2.1, runs_of_not hkind.1, runs_of_not hkind.2.2]
  rfl

/-- The words of a text are what the pattern finds in it. -/
theorem found_word (cs : List Char) : Pattern.word.found cs = words cs := by
  induction hn : cs.length using Nat.strongRecOn generalizing cs with
  | ind n ih =>
    cases cs with
    | nil => rfl
    | cons c rest =>
      rw [List.length_cons] at hn
      by_cases hc : c.isAlphanum = true
      · obtain ⟨taken, left, first⟩ := exists_first hc rest
        have hcut := first.cut
        have hway := first.way
        rw [← hcut] at hway ⊢
        have hlen := congrArg List.length hcut
        rw [List.length_append, List.length_cons, List.length_cons] at hlen
        rw [first.isWord.words_append, List.cons_append, found_of_some hway,
          ih left.length (by omega) left rfl]
      · rw [found_of_none (head?_word_of_not hc rest), words_cons_of_not_isAlphanum hc]
        exact ih rest.length (by omega) rest rfl

/-! ### Letters and digits in camel case -/

theorem map_toLower_capitalize (word : List Char) :
    (capitalize word).map Char.toLower = word.map Char.toLower := by
  cases word with
  | nil => rfl
  | cons c rest => simp [capitalize, Char.toLower_toUpper_eq_toLower]

theorem map_toLower_camelChars (case : Case) (cs : List Char) :
    (camelChars case cs).map Char.toLower = (cs.filter Char.isAlphanum).map Char.toLower := by
  have hupper : (camelChars .upper cs).map Char.toLower =
      (cs.filter Char.isAlphanum).map Char.toLower := by
    rw [camelChars_upper, List.map_flatMap, funext map_toLower_capitalize, ← List.map_flatMap,
      ← flatten_words, List.flatMap_id']
  cases case with
  | upper => exact hupper
  | lower =>
    rw [camelChars_lower, ← hupper]
    cases camelChars .upper cs with
    | nil => rfl
    | cons c rest => simp [lowerFirst]

/-- In ASCII, the lower case of a text is that of its characters. -/
theorem lowerChars_of_isAscii {cs : List Char} (h : ∀ c ∈ cs, c.toNat < 128) (before : Bool) :
    Text.lowerChars before cs = cs.map Char.toLower := by
  induction cs generalizing before with
  | nil => rfl
  | cons c rest ih =>
    rw [List.forall_mem_cons] at h
    have hdotted : ¬ (c == 'İ') = true := by
      rw [beq_iff_eq]
      rintro rfl
      exact absurd h.1 (by decide)
    have hsigma : ¬ (c == 'Σ') = true := by
      rw [beq_iff_eq]
      rintro rfl
      exact absurd h.1 (by decide)
    rw [Text.lowerChars, if_neg hdotted, if_neg hsigma, Text.lowerChar, if_pos h.1, ih h.2]
    rfl

theorem lowerChars_of_isAlphanum {cs : List Char} (h : ∀ c ∈ cs, c.isAlphanum = true) :
    Text.lowerChars false cs = cs.map Char.toLower := by
  refine lowerChars_of_isAscii (fun c hc => ?_) false
  have hcode := toNat_of_isAlphanum (h c hc)
  omega

/-- The stretches that the pattern takes are all letters and digits of a text, in order.  Its name
in camel case consists of letters and digits, and in lower case it is what the letters and digits of
the text are in lower case. -/
theorem camelCase_keeps_alphanum (case : Case) (s : String) :
    (Pattern.word.found s.toList).flatten = s.toList.filter Char.isAlphanum ∧
      (∀ c ∈ (camelCase case s).toList, c.isAlphanum = true) ∧
        Text.lower (camelCase case s) =
          Text.lower (String.ofList (s.toList.filter Char.isAlphanum)) := by
  have hname : ∀ c ∈ camelChars case s.toList, c.isAlphanum = true :=
    fun _ => isAlphanum_of_mem_camelChars
  have hkept : ∀ c ∈ s.toList.filter Char.isAlphanum, c.isAlphanum = true :=
    fun _ hc => (List.mem_filter.mp hc).2
  refine ⟨by rw [found_word, flatten_words], ?_, ?_⟩
  · rwa [camelCase, String.toList_ofList]
  · rw [Text.lower, Text.lower, camelCase, String.toList_ofList, String.toList_ofList,
      lowerChars_of_isAlphanum hname, lowerChars_of_isAlphanum hkept, map_toLower_camelChars]

example : camelCase .lower "get_pet-byID 2nd" = "getPetById2Nd" := by decide +kernel

end OpenApi.Name
