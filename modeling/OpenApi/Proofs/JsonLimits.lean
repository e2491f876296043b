import OpenApi.Json.Reader
import OpenApi.Proofs.JsonTokens
import OpenApi.Proofs.JsonValues

/-
The limits of the reader of JSON texts.

Two faults are not the author's: an integer with too many digits, and containers that are nested too
deep.  An integer is a stretch of digits of the text, and a container that is still open has begun
with a bracket; so a text that has no long stretch of digits and few brackets is free of both
(`isLimit_of_read`).
-/
namespace OpenApi.Json

/-- Whether a fault is that of a text beyond the limits of the reader, and not of a malformed
one. -/
def Fault.isLimit : Fault → Bool
  | .tooLong | .tooDeep => true
  | _ => false

def isOpening (c : Char) : Bool := c == '[' || c == '\x7b'

/-- A text with short stretches of digits and few brackets. -/
structure IsModest (cs : List Char) : Prop where
  digits : Text.digitsFit cs = true
  brackets : cs.countP isOpening ≤ deepest

theorem digitsFit_suffix {after cs : List Char} (fits : Text.digitsFit cs = true)
    (h : after <:+ cs) : Text.digitsFit after = true := by
  obtain ⟨front, heq⟩ := h
  exact Text.digitsFit_of_suffix fits heq

/-! ### Tokens -/

theorem exists_fault_of_push {unit : Nat} {scanned : Scanned} {fault : Fault} {place : List Char}
    (h : scanned.push unit = .fault fault place) : scanned = .fault fault place := by
  cases scanned with
  | done units rest => cases h
  | fault f p => exact h

/-- A text literal is malformed, but never beyond a limit. -/
theorem isLimit_of_scanText {start cs place : List Char} {fault : Fault}
    (h : scanText start cs = .fault fault place) : fault.isLimit = false := by
  fun_induction scanText start cs
  case case4 ih => exact ih (exists_fault_of_push h)
  case case7 ih => exact ih (exists_fault_of_push h)
  case case11 ih => exact ih (exists_fault_of_push h)
  all_goals cases h <;> rfl

theorem length_whole_le {cs whole after : List Char} (fits : Text.digitsFit cs = true)
    (h : whole? cs = some (whole, after)) : whole.length ≤ Number.longest := by
  unfold whole? at h
  split at h
  · cases h
    decide
  · dsimp only at h
    split at h
    · cases h
    · cases h
      calc _ ≤ (cs.takeWhile Text.isDigitLike).length :=
            Text.length_takeWhile_le_of_imp (fun _ => Text.isDigitLike_of_isDigit) cs
        _ ≤ Number.longest := Text.length_digits_le fits

theorem plain_of_number? {cs after : List Char} {token : Token}
    (fits : Text.digitsFit cs = true) (h : number? cs = some (token, after)) :
    ∃ s, token = .plain s := by
  unfold number? at h
  split at h
  rename_i negative unsigned heq
  have hunsigned : unsigned <:+ cs := by
    split at heq
    · cases heq
      exact List.suffix_cons _ _
    · cases heq
      exact List.suffix_refl _
  split at h
  · cases h
  · rename_i whole afterWhole hwhole
    have short := length_whole_le (digitsFit_suffix fits hunsigned) hwhole
    split at h
    split at h
    · cases h
      exact ⟨_, rfl⟩
    · split at h
      · rw [if_neg (Nat.not_lt.mpr short)] at h
        cases h
        exact ⟨_, rfl⟩
      · cases h
        exact ⟨_, rfl⟩

theorem plain_of_word? {cs after : List Char} {token : Token}
    (h : word? cs = some (token, after)) : ∃ s, token = .plain s := by
  obtain ⟨word, _, hfound⟩ := List.exists_of_findSome?_eq_some h
  dsimp only at hfound
  split at hfound
  · cases hfound
    exact ⟨_, rfl⟩
  · cases hfound

def Token.opens : Token → Bool
  | .mapOpen | .listOpen => true
  | _ => false

/-- What a token is like that begins with the given character in a text without long stretches of
digits. -/
structure Begins (c : Char) (token : Token) : Prop where
  short : token ≠ .long
  malformed : ∀ fault place, token = .broken fault place → fault.isLimit = false
  opening : token.opens = true → isOpening c = true

theorem begins_plain (c : Char) (s : Scalar) : Begins c (.plain s) := ⟨nofun, nofun, nofun⟩

theorem begins_next {c : Char} {rest : List Char} (fits : Text.digitsFit (c :: rest) = true) :
    Begins c (next c rest).1 := by
  unfold next
  split
  case h_7 =>
    split
    · exact ⟨nofun, nofun, nofun⟩
    · rename_i fault place hscan
      refine ⟨nofun, ?_, nofun⟩
      intro f p h
      cases h
      exact isLimit_of_scanText hscan
  case h_8 =>
    split
    · rename_i found hword
      obtain ⟨s, hs⟩ := plain_of_word? hword
      rw [hs]
      exact begins_plain _ s
    · cases hnumber : number? (c :: rest) with
      | none => exact ⟨nofun, nofun, nofun⟩
      | some found =>
        obtain ⟨s, hs⟩ := plain_of_number? fits hnumber
        rw [Option.getD_some, hs]
        exact begins_plain _ s
  case h_1 | h_3 => exact ⟨nofun, nofun, fun _ => rfl⟩
  all_goals exact ⟨nofun, nofun, nofun⟩

/-! ### Reading -/

/-- Whether a map has begun that is not among the open containers yet, since the value of its first
or next entry has not. -/
def Want.isInMap : Want → Bool
  | .name _ | .nameOrEnd | .colon .. => true
  | _ => false

/-- The number of containers that are open. -/
def openings (frames : List Frame) (want : Want) : Nat :=
  frames.length + if want.isInMap then 1 else 0

theorem isLimit_fault (frames : List Frame) (want : Want) :
    (want.fault frames).isLimit = false := by
  cases want with
  | after v => cases frames <;> rfl
  | _ => rfl

theorem openings_of_begin {frames frames' : List Frame} {want' : Want} {token : Token}
    (h : begin frames token = .ok (frames', want')) :
    openings frames' want' ≤ frames.length + if token.opens then 1 else 0 := by
  unfold begin enter at h
  split at h
  · split at h
    · cases h
      exact Nat.le_refl _
    · cases h
  · split at h
    · cases h
      exact Nat.le_refl _
    · cases h
  · cases h
    exact Nat.le_refl _
  · cases h
    exact Nat.le_refl _
  · cases h
  · cases h

theorem openings_of_beginName {frames frames' : List Frame} {want' : Want} {token : Token}
    {done : Entries} (h : beginName frames done token = .ok (frames', want')) :
    openings frames' want' ≤ frames.length + 1 := by
  unfold beginName at h
  split at h
  · cases h
    exact Nat.le_refl _
  · cases h

/-- A token opens at most one container. -/
theorem openings_of_step {frames frames' : List Frame} {want want' : Want} {token : Token}
    (h : step frames want token = .ok (frames', want')) :
    openings frames' want' ≤ openings frames want + if token.opens then 1 else 0 := by
  unfold step at h
  split at h
  case h_1 => exact openings_of_begin h
  case h_3 => exact openings_of_begin h
  case h_5 => exact Nat.le_add_right_of_le (openings_of_beginName h)
  case h_6 => exact Nat.le_add_right_of_le (openings_of_beginName h)
  -- The other tokens open nothing.
  all_goals
    cases h <;>
      simp only [openings, Want.isInMap, List.length_cons, if_true, Bool.false_eq_true,
        if_false] <;> omega

/-- Reading stops at a limit only where an integer is too long or one container too many begins. -/
theorem limit_of_step {frames : List Frame} {want : Want} {token : Token} {fault : Fault}
    (h : step frames want token = .error fault) (limit : fault.isLimit = true) :
    token = .long ∨ token.opens = true ∧ deepest ≤ openings frames want := by
  have enters {inner : List Frame × Want} (h : enter frames inner = .error fault) :
      deepest ≤ openings frames want := by
    unfold enter at h
    split at h
    · cases h
    · rename_i full
      exact Nat.le_add_right_of_le (Nat.not_lt.mp full)
  have begins (h : begin frames token = .error fault) :
      token = .long ∨ token.opens = true ∧ deepest ≤ openings frames want := by
    unfold begin at h
    split at h
    · exact .inr ⟨rfl, enters h⟩
    · exact .inr ⟨rfl, enters h⟩
    · cases h
    · cases h
    · exact .inl rfl
    · cases h
      cases limit
  have beginsName {done : Entries} (h : beginName frames done token = .error fault) : False := by
    unfold beginName at h
    split at h
    · cases h
    · cases h
      cases limit
  unfold step at h
  split at h
  case h_1 | h_3 => exact begins h
  case h_5 | h_6 => exact (beginsName h).elim
  all_goals
    cases h
    try cases limit

theorem isLimit_of_run_nil {frames : List Frame} {want : Want} {fault : Fault} {place : List Char}
    (h : run frames want [] = .error (fault, place)) : fault.isLimit = false := by
  unfold run at h
  split at h
  · cases h
  · cases h
    exact isLimit_fault frames want

/-- What is at fault in a text is a token that is malformed or may not come where it stands, or
something after it. -/
theorem limit_of_run_cons {frames : List Frame} {want : Want} {token : Token} {here : List Char}
    {rest : List (Token × List Char)} {fault : Fault} {place : List Char}
    (h : run frames want ((token, here) :: rest) = .error (fault, place)) :
    fault.isLimit = false ∨ (∃ place, token = .broken fault place) ∨
      step frames want token = .error fault ∨
      ∃ frames' want', step frames want token = .ok (frames', want') ∧
        run frames' want' rest = .error (fault, place) := by
  unfold run at h
  split at h
  · rename_i heq
    cases heq
  · rename_i heq
    cases heq
    split at h
    · cases h
      exact .inr (.inl ⟨_, rfl⟩)
    · cases h
      exact .inl (isLimit_fault frames want)
  · rename_i heq
    cases heq
    split at h
    · rename_i frames' want' hstep
      exact .inr (.inr (.inr ⟨frames', want', hstep, h⟩))
    · rename_i hstep
      cases h
      exact .inr (.inr (.inl hstep))

/-- Within the limits, reading stops at what is malformed only.  The brackets that are left make
room for the containers that are open. -/
theorem isLimit_of_run {cs : List Char} {frames : List Frame} {want : Want} {fault : Fault}
    {place : List Char} (fits : Text.digitsFit cs = true)
    (room : openings frames want + cs.countP isOpening ≤ deepest)
    (h : run frames want (tokens cs) = .error (fault, place)) : fault.isLimit = false := by
  induction hn : cs.length using Nat.strong_induction_on generalizing cs frames want with
  | _ n ih =>
  subst hn
  cases cs with
  | nil => exact isLimit_of_run_nil h
  | cons c rest =>
    cases hblank : isBlank c with
    | true =>
      have hall : ∀ b ∈ [c], isBlank b = true := by simpa using hblank
      have hskip : tokens (c :: rest) = tokens rest := tokens_blank hall rest
      have hcount := (List.sublist_cons_self c rest).countP_le (p := isOpening)
      rw [hskip] at h
      exact ih rest.length (Nat.lt_succ_self _)
        (digitsFit_suffix fits (List.suffix_cons c rest)) (by omega) h rfl
    | false =>
      have hafter := suffix_next c rest
      have begins := begins_next fits
      rw [tokens_cons rest hblank] at h
      generalize next c rest = found at h hafter begins
      obtain ⟨token, after⟩ := found
      dsimp only at h hafter begins
      have hcount : after.countP isOpening + (if isOpening c then 1 else 0) ≤
          (c :: rest).countP isOpening := by
        rw [List.countP_cons]
        exact Nat.add_le_add_right hafter.sublist.countP_le _
      have hopens : (if token.opens then 1 else 0) ≤ (if isOpening c then 1 else 0) := by
        cases hopen : token.opens with
        | false => exact Nat.zero_le _
        | true => rw [begins.opening hopen]
      rcases limit_of_run_cons h with h | ⟨place, h⟩ | h | ⟨frames', want', hstep, h⟩
      · exact h
      · exact begins.malformed fault place h
      · by_contra limit
        rw [Bool.not_eq_false] at limit
        rcases limit_of_step h limit with long | ⟨hopen, full⟩
        · exact begins.short long
        · rw [hopen] at hopens
          simp only [if_true] at hopens
          omega
      · have hstep := openings_of_step hstep
        exact ih after.length (Nat.lt_succ_of_le hafter.length_le)
          (digitsFit_suffix fits (hafter.trans (List.suffix_cons c rest))) (by omega) h rfl

/-- What cannot be read of a text within the limits is malformed. -/
theorem isLimit_of_read {cs : List Char} {error : Error} (modest : IsModest cs)
    (h : read cs = .error error) : error.fault.isLimit = false := by
  unfold read at h
  split at h
  · cases h
    rfl
  · split at h
    · cases h
    · rename_i fault place hrun
      cases h
      refine isLimit_of_run modest.digits ?_ hrun
      exact (Nat.zero_add _).trans_le modest.brackets

end OpenApi.Json
