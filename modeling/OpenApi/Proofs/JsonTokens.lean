import OpenApi.Json.Writer
import OpenApi.Proofs.JsonNumbers

/-
The tokens of what is written as JSON.

A token takes at least one character, so cutting a text into tokens comes to its end, and the tokens
of a text are the first one and those of what follows it (`tokens_cons`).  What is written for a
scalar is one token, which stands for that scalar again (`tokens_scalar`).
-/
namespace OpenApi
namespace Json

/-! ### Cutting -/

theorem exists_of_push {unit : Nat} {scanned : Scanned} {units : List Nat} {after : List Char}
    (h : scanned.push unit = .done units after) : ∃ units, scanned = .done units after := by
  cases scanned with
  | done found rest =>
    cases h
    exact ⟨found, rfl⟩
  | fault f place => cases h

theorem suffix_of_scanText {start cs after : List Char} {units : List Nat}
    (h : scanText start cs = .done units after) : after <:+ cs.tail := by
  fun_induction scanText start cs generalizing units
  case case2 rest =>
    cases h
    exact List.suffix_refl _
  case case4 a b c d rest _ _ _ ih =>
    obtain ⟨_, h⟩ := exists_of_push h
    exact (ih h).trans (rest.tail_suffix.trans (List.suffix_append ['u', a, b, c, d] rest))
  case case7 c rest _ _ _ _ ih =>
    obtain ⟨_, h⟩ := exists_of_push h
    exact (ih h).trans (rest.tail_suffix.trans (List.suffix_cons c rest))
  case case11 rest _ _ _ _ _ _ ih =>
    obtain ⟨_, h⟩ := exists_of_push h
    exact (ih h).trans rest.tail_suffix
  all_goals cases h

theorem suffix_fraction (cs : List Char) : (fraction cs).2 <:+ cs := by
  unfold fraction
  split
  · rename_i rest
    dsimp only
    split
    · exact List.suffix_refl _
    · exact (List.dropWhile_suffix _).trans (List.suffix_cons _ _)
  · exact List.suffix_refl _

theorem suffix_of_whole? {cs whole after : List Char} (h : whole? cs = some (whole, after)) :
    after <:+ cs.tail := by
  unfold whole? at h
  split at h
  · cases h
    exact List.suffix_refl _
  · dsimp only at h
    split at h
    · cases h
    · rename_i hdigits
      cases h
      cases cs with
      | nil => exact absurd rfl hdigits
      | cons c rest =>
        by_cases hc : c.isDigit = true
        · rw [List.dropWhile_cons, if_pos hc]
          exact List.dropWhile_suffix _
        · rw [List.takeWhile_cons, if_neg hc] at hdigits
          exact absurd rfl hdigits

theorem suffix_sign (cs : List Char) : (Numeral.sign cs).2 <:+ cs := by
  unfold Numeral.sign
  split
  · exact List.suffix_cons _ _
  · exact List.suffix_cons _ _
  · exact List.suffix_refl _

theorem suffix_of_exponent? {cs after : List Char} {power : Int}
    (h : exponent? cs = some (power, after)) : after <:+ cs := by
  unfold exponent? at h
  split at h
  · rename_i mark rest
    split at h
    · dsimp only at h
      split at h
      · cases h
      · cases h
        exact (List.dropWhile_suffix _).trans ((suffix_sign rest).trans (List.suffix_cons _ _))
    · cases h
  · cases h

theorem suffix_of_number? {cs after : List Char} {token : Token}
    (h : number? cs = some (token, after)) : after <:+ cs.tail := by
  unfold number? at h
  split at h
  rename_i negative unsigned heq
  have hsign : unsigned.tail <:+ cs.tail := by
    split at heq
    · cases heq
      exact List.tail_suffix _
    · cases heq
      exact List.suffix_refl _
  split at h
  · cases h
  · rename_i whole afterWhole hwhole
    have hbefore := (suffix_of_whole? hwhole).trans hsign
    have hfraction := suffix_fraction afterWhole
    split at h
    rename_i digits afterFraction hafter
    rw [hafter] at hfraction
    split at h
    · rename_i power rest hexponent
      cases h
      exact (suffix_of_exponent? hexponent).trans (hfraction.trans hbefore)
    · obtain rfl : after = afterFraction := by
        split at h
        · split at h <;> cases h <;> rfl
        · cases h
          rfl
      exact hfraction.trans hbefore

theorem suffix_of_word? {c : Char} {rest after : List Char} {token : Token}
    (h : word? (c :: rest) = some (token, after)) : after <:+ rest := by
  obtain ⟨word, hword, hfound⟩ := List.exists_of_findSome?_eq_some h
  have hlong : ∀ word ∈ words, word.1.length ≠ 0 := by decide
  dsimp only at hfound
  split at hfound
  · cases hfound
    obtain ⟨n, hn⟩ := Nat.exists_eq_succ_of_ne_zero (hlong word hword)
    rw [hn, List.drop_succ_cons]
    exact List.drop_suffix n rest
  · cases hfound

/-- What follows a token is left of what follows its first character. -/
theorem suffix_next (c : Char) (rest : List Char) : (next c rest).2 <:+ rest := by
  unfold next
  split
  any_goals exact List.suffix_refl _
  · split
    · rename_i h
      exact (suffix_of_scanText h).trans (List.tail_suffix _)
    · exact List.suffix_refl _
  · split
    · rename_i h
      exact suffix_of_word? h
    · cases h : number? (c :: rest) with
      | none => exact List.suffix_refl _
      | some found => exact suffix_of_number? h

theorem tokensUpTo_eq {limit : Nat} {cs : List Char} (h : cs.length ≤ limit) :
    tokensUpTo limit cs = tokens cs := by
  have enough : ∀ m n cs, cs.length ≤ m → cs.length ≤ n → tokensUpTo m cs = tokensUpTo n cs := by
    intro m
    induction m with
    | zero =>
      intro n cs hm _
      rw [List.length_eq_zero_iff.mp (Nat.le_zero.mp hm)]
      cases n <;> rfl
    | succ m ih =>
      intro n cs hm hn
      cases cs with
      | nil => cases n <;> rfl
      | cons c rest =>
        obtain ⟨n, rfl⟩ : ∃ k, n = k + 1 := ⟨n - 1, by rw [List.length_cons] at hn; omega⟩
        rw [List.length_cons] at hm hn
        have hshorter := (suffix_next c rest).length_le
        rw [tokensUpTo, tokensUpTo]
        split
        · exact ih n rest (by omega) (by omega)
        · dsimp only
          rw [ih n _ (by omega) (by omega)]
  exact enough limit cs.length cs h (Nat.le_refl _)

theorem tokens_blank {blanks : List Char} (h : ∀ c ∈ blanks, isBlank c = true) (rest : List Char) :
    tokens (blanks ++ rest) = tokens rest := by
  induction blanks with
  | nil => rfl
  | cons c blanks ih =>
    rw [List.forall_mem_cons] at h
    rw [List.cons_append, tokens, List.length_cons, tokensUpTo, if_pos h.1]
    exact (tokensUpTo_eq (Nat.le_refl _)).trans (ih h.2)

/-- The tokens of a text are the first one and those of what follows it. -/
theorem tokens_cons {c : Char} (rest : List Char) (h : isBlank c = false) :
    tokens (c :: rest) = ((next c rest).1, c :: rest) :: tokens (next c rest).2 := by
  rw [tokens, List.length_cons, tokensUpTo, if_neg (by simp [h])]
  dsimp only
  rw [tokensUpTo_eq (suffix_next c rest).length_le]

/-! ### Text literals -/

/-- The code units in which a character is written. -/
def unitsOf (ascii : Bool) (c : Char) : List Nat :=
  if ascii && 0x10000 ≤ c.toNat then
    [0xD800 + (c.toNat - 0x10000) / 0x400, 0xDC00 + (c.toNat - 0x10000) % 0x400]
  else [c.toNat]

def Scanned.pushAll (units : List Nat) (scanned : Scanned) : Scanned :=
  units.foldr Scanned.push scanned

theorem hexValue?_hexDigit {n : Nat} (h : n < 16) :
    Text.Percent.hexValue? (Text.Quoted.hexDigit n) = some n := by
  have all : ∀ n < 16, Text.Percent.hexValue? (Text.Quoted.hexDigit n) = some n := by decide
  exact all n h

/-- A unit in an escape is the unit. -/
theorem scanText_unitEscape {n : Nat} (h : n < 0x10000) (start : List Char) {rest : List Char}
    (more : rest ≠ []) :
    scanText start (unitEscape n ++ rest) = (scanText start rest).push n := by
  have hhex : Text.Quoted.hex 4 n = [Text.Quoted.hexDigit (n / 16 / 16 / 16 % 16),
      Text.Quoted.hexDigit (n / 16 / 16 % 16), Text.Quoted.hexDigit (n / 16 % 16),
      Text.Quoted.hexDigit (n % 16)] := rfl
  have hunit : unit? (Text.Quoted.hexDigit (n / 16 / 16 / 16 % 16))
      (Text.Quoted.hexDigit (n / 16 / 16 % 16)) (Text.Quoted.hexDigit (n / 16 % 16))
      (Text.Quoted.hexDigit (n % 16)) = some n := by
    have hvalue (m : Nat) := hexValue?_hexDigit (Nat.mod_lt m (by decide : 0 < 16))
    rw [unit?, hvalue, hvalue, hvalue, hvalue]
    dsimp only
    congr 1
    omega
  rw [unitEscape, hhex]
  show scanText start ('\\' :: 'u' :: _ :: _ :: _ :: _ :: rest) = _
  rw [scanText, hunit]
  dsimp only
  rw [if_neg (by simpa using more)]

theorem scanText_plain {c : Char} (quote : c ≠ '"') (backslash : c ≠ '\\') (h : ¬ c.toNat < 32)
    (start rest : List Char) :
    scanText start (c :: rest) = (scanText start rest).push c.toNat := by
  rw [scanText, if_neg h]
  · exact quote
  · exact fun _ _ _ _ _ h _ => backslash h
  · exact fun _ h _ => backslash h
  · exact fun _ _ h _ => backslash h
  · exact fun h _ => backslash h

theorem toNat_lt (c : Char) : c.toNat < 0x110000 := by
  rcases c.valid with h | ⟨_, h⟩
  · exact Nat.lt_trans h (by decide)
  · exact h

/-- A character is scanned as its units. -/
theorem scanText_escape (ascii : Bool) (c : Char) (start : List Char) {rest : List Char}
    (more : rest ≠ []) :
    scanText start (escape ascii c ++ rest) = (scanText start rest).pushAll (unitsOf ascii c) := by
  unfold escape
  split
  case h_8 quote backslash _ _ _ _ _ =>
    have hsmall := toNat_lt c
    unfold unitsOf
    dsimp only
    split
    · rw [if_neg (by simp; omega)]
      exact scanText_unitEscape (by omega) start more
    · split
      · rename_i hplain
        rw [if_neg (by cases ascii <;> simp_all; omega)]
        exact scanText_plain quote backslash ‹_› start rest
      · split
        · rw [if_neg (by simp; omega)]
          exact scanText_unitEscape ‹_› start more
        · rw [if_pos (by simp_all)]
          rw [List.append_assoc, scanText_unitEscape (by omega) start (by simp [unitEscape]),
            scanText_unitEscape (by omega) start more]
          rfl
  all_goals
    cases ascii <;> rfl

/-- A character is no half of a surrogate pair. -/
theorem decode_cons (c : Char) (units : List Nat) :
    Text.CodeUnit.decode (c.toNat :: units) = c :: Text.CodeUnit.decode units := by
  have hvalid : c.toNat < 0xD800 ∨ (0xDFFF < c.toNat ∧ c.toNat < 0x110000) := c.valid
  have hhigh : Text.CodeUnit.isHighSurrogate c.toNat = false := by
    simp only [Text.CodeUnit.isHighSurrogate, Bool.and_eq_false_iff, decide_eq_false_iff_not]
    omega
  have hlow : Text.CodeUnit.isLowSurrogate c.toNat = false := by
    simp only [Text.CodeUnit.isLowSurrogate, Bool.and_eq_false_iff, decide_eq_false_iff_not]
    omega
  cases units <;> simp [Text.CodeUnit.decode, hhigh, hlow]

/-- The units of a text name its characters. -/
theorem decode_units (ascii : Bool) (cs : List Char) :
    Text.CodeUnit.decode (cs.flatMap (unitsOf ascii)) = cs := by
  induction cs with
  | nil => rfl
  | cons c cs ih =>
    rw [List.flatMap_cons]
    unfold unitsOf
    split
    · rename_i hpair
      have hlarge : 0x10000 ≤ c.toNat := by simp_all
      have hsmall := toNat_lt c
      have hsurrogates : (Text.CodeUnit.isHighSurrogate (0xD800 + (c.toNat - 0x10000) / 0x400) &&
          Text.CodeUnit.isLowSurrogate (0xDC00 + (c.toNat - 0x10000) % 0x400)) = true := by
        simp [Text.CodeUnit.isHighSurrogate, Text.CodeUnit.isLowSurrogate]
        omega
      have hcode : 0x10000 + (0xD800 + (c.toNat - 0x10000) / 0x400 - 0xD800) * 0x400 +
          (0xDC00 + (c.toNat - 0x10000) % 0x400 - 0xDC00) = c.toNat := by omega
      show Text.CodeUnit.decode (_ :: _ :: _) = _
      rw [Text.CodeUnit.decode, if_pos hsurrogates, hcode, Char.ofNat_toNat]
      exact congrArg _ ih
    · exact (decode_cons c _).trans (congrArg _ ih)

/-- A text between quotes is scanned to its end. -/
theorem scanText_flatMap (ascii : Bool) (cs : List Char) (start rest : List Char) :
    scanText start (cs.flatMap (escape ascii) ++ '"' :: rest) =
      .done (cs.flatMap (unitsOf ascii)) rest := by
  induction cs with
  | nil => rw [List.flatMap_nil, List.nil_append, scanText]; rfl
  | cons c cs ih =>
    rw [List.flatMap_cons, List.flatMap_cons, List.append_assoc,
      scanText_escape ascii c start (by simp), ih]
    unfold unitsOf
    split <;> rfl

/-! ### Scalars -/

/-- A text literal is one token. -/
theorem tokens_quote (ascii : Bool) (s : String) (rest : List Char) :
    tokens ((quote ascii s).toList ++ rest) =
      (.text s, (quote ascii s).toList ++ rest) :: tokens rest := by
  have htext : (quote ascii s).toList ++ rest =
      '"' :: (s.toList.flatMap (escape ascii) ++ '"' :: rest) := by
    rw [quote, String.toList_ofList, List.cons_append, List.cons_append, List.append_assoc]
    rfl
  have hnext : next '"' (s.toList.flatMap (escape ascii) ++ '"' :: rest) = (.text s, rest) := by
    rw [next, scanText_flatMap]
    dsimp only
    rw [decode_units, String.ofList_toList]
  rw [htext, tokens_cons _ rfl, hnext]

theorem IsWhole.exists_cons {whole : List Char} (h : IsWhole whole) :
    ∃ c tail, whole = c :: tail ∧ c.isDigit = true := by
  cases h with
  | zero => exact ⟨'0', [], rfl, rfl⟩
  | digits _ digit => exact ⟨_, _, rfl, digit _ List.mem_cons_self⟩

/-- The characters that a numeral can begin with. -/
theorem head_cases {p : NumberParts} (h : p.WellFormed) : ∃ c tail, p.text = c :: tail ∧
    (c.isDigit = true ∨ c = '-' ∧ ∃ d tail', tail = d :: tail' ∧ d.isDigit = true) := by
  obtain ⟨c, tail, hwhole, hdigit⟩ := h.whole.exists_cons
  unfold NumberParts.text
  rw [hwhole]
  cases p.negative with
  | false => exact ⟨c, _, rfl, .inl hdigit⟩
  | true => exact ⟨'-', _, rfl, .inr ⟨rfl, c, _, rfl, hdigit⟩⟩

theorem mem_digits {c : Char} (h : c.isDigit = true) :
    c ∈ ['0', '1', '2', '3', '4', '5', '6', '7', '8', '9'] := by
  have hall : ∀ n < 58, 48 ≤ n →
      Char.ofNat n ∈ ['0', '1', '2', '3', '4', '5', '6', '7', '8', '9'] := by decide
  have hrange : 48 ≤ c.toNat ∧ c.toNat ≤ 57 := by
    simpa [Char.isDigit, UInt32.le_iff_toNat_le] using h
  have hmem := hall c.toNat (Nat.lt_succ_of_le hrange.2) hrange.1
  rwa [Char.ofNat_toNat] at hmem

theorem next_of_isDigit {c : Char} (h : c.isDigit = true) (rest : List Char) :
    next c rest = (number? (c :: rest)).getD (.junk, rest) ∧ isBlank c = false := by
  have hmem := mem_digits h
  simp only [List.mem_cons, List.not_mem_nil, or_false] at hmem
  rcases hmem with rfl | rfl | rfl | rfl | rfl | rfl | rfl | rfl | rfl | rfl <;> exact ⟨rfl, rfl⟩

theorem next_of_minus {d : Char} (h : d.isDigit = true) (rest : List Char) :
    next '-' (d :: rest) = (number? ('-' :: d :: rest)).getD (.junk, d :: rest) := by
  have hmem := mem_digits h
  simp only [List.mem_cons, List.not_mem_nil, or_false] at hmem
  rcases hmem with rfl | rfl | rfl | rfl | rfl | rfl | rfl | rfl | rfl | rfl <;> rfl

/-- A numeral is one token, if nothing that belongs to it follows. -/
theorem tokens_number {p : NumberParts} (h : p.WellFormed) {rest : List Char}
    (ends : EndsNumber rest) :
    tokens (p.text ++ rest) = (p.token, p.text ++ rest) :: tokens rest := by
  have hnumber := number?_text h ends
  obtain ⟨c, tail, htext, hfirst⟩ := head_cases h
  rw [htext, List.cons_append] at hnumber ⊢
  rcases hfirst with hdigit | ⟨rfl, d, tail', rfl, hdigit⟩
  · obtain ⟨hnext, hblank⟩ := next_of_isDigit hdigit (tail ++ rest)
    rw [tokens_cons _ hblank, hnext, hnumber]
    rfl
  · have hnext := next_of_minus hdigit (tail' ++ rest)
    rw [List.cons_append] at hnumber ⊢
    rw [tokens_cons _ rfl, hnext, hnumber]
    rfl

/-- The token for a scalar. -/
def scalarToken : Scalar → Token
  | .str s => .text s
  | s => .plain s

/-- What is written for a scalar is one token. -/
theorem tokens_scalar {style : Style} {s : Scalar} {text : String} (h : scalar style s = .ok text)
    {rest : List Char} (ends : EndsNumber rest) :
    tokens (text.toList ++ rest) = (scalarToken s, text.toList ++ rest) :: tokens rest := by
  cases s with
  | null =>
    cases h
    exact tokens_cons _ rfl
  | bool b =>
    cases b <;> cases h <;> exact tokens_cons _ rfl
  | int n =>
    unfold scalar plain at h
    dsimp only at h
    split at h
    · cases h
    · rename_i hshort
      cases h
      have htokens := tokens_number (NumberParts.wellFormed_ofInt n) ends
      rwa [NumberParts.text_ofInt, NumberParts.token_ofInt (by simpa using hshort)] at htokens
  | float x =>
    cases h
    rw [floatText, String.toList_ofList]
    cases x with
    | nan => exact tokens_cons _ rfl
    | infinite negative => cases negative <;> exact tokens_cons _ rfl
    | finite negative mantissa exponent canonical =>
      obtain ⟨p, wellFormed, htext, htoken⟩ :=
        NumberParts.exists_write .json negative canonical
      have htokens := tokens_number wellFormed ends
      rwa [htext, htoken] at htokens
  | str s =>
    cases h
    exact tokens_quote style.ascii s rest
  | moment m => cases h
  | bytes bs => cases h

end Json
end OpenApi
