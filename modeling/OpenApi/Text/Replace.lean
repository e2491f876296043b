/-
Cutting a text at a separator and replacing a piece of it.

Both work on lists of characters, from left to right.  A replaced piece is found again only after
the place where the last one ended, so what is put in is never searched.
-/
namespace OpenApi.Text

/-- The pieces between the separators; there is always at least one piece. -/
def split (separator : Char) : List Char → List (List Char)
  | [] => [[]]
  | c :: rest =>
    if c = separator then [] :: split separator rest
    else
      match split separator rest with
      | [] => [[c]]
      | piece :: pieces => (c :: piece) :: pieces

/-- The pieces put together again with `separator` between them. -/
def join (separator : List Char) : List (List Char) → List Char
  | [] => []
  | [piece] => piece
  | piece :: pieces => piece ++ separator ++ join separator pieces

theorem split_ne_nil (separator : Char) (cs : List Char) : split separator cs ≠ [] := by
  cases cs with
  | nil => simp [split]
  | cons c rest =>
    simp only [split]
    split
    · simp
    · split <;> simp

/-- Splitting loses nothing: the pieces joined at the separator give the text back. -/
theorem join_split (separator : Char) (cs : List Char) :
    join [separator] (split separator cs) = cs := by
  induction cs with
  | nil => rfl
  | cons c rest ih =>
    simp only [split]
    split
    · rename_i h
      cases hs : split separator rest with
      | nil => exact absurd hs (split_ne_nil _ _)
      | cons piece pieces => rw [hs] at ih; simp [join, h, ih]
    · cases hs : split separator rest with
      | nil => exact absurd hs (split_ne_nil _ _)
      | cons piece pieces =>
        rw [hs] at ih
        cases pieces with
        | nil => simpa [join] using ih
        | cons next more => simpa [join] using ih

def cut (separator : Char) (cs : List Char) : List Char × List Char :=
  (cs.takeWhile (· != separator), (cs.dropWhile (· != separator)).drop 1)

def occurs (piece : List Char) : List Char → Bool
  | [] => piece.isEmpty
  | c :: rest => piece.isPrefixOf (c :: rest) || occurs piece rest

/-- One pass of `replace`, with `skip` characters of the last occurrence still to be left out. -/
def replaceFrom (old new : List Char) : Nat → List Char → List Char
  | _, [] => []
  | skip + 1, _ :: rest => replaceFrom old new skip rest
  | 0, c :: rest =>
    if old.isPrefixOf (c :: rest) then new ++ replaceFrom old new (old.length - 1) rest
    else c :: replaceFrom old new 0 rest

/-- Replace every occurrence of the non-empty text `old`, from left to right. -/
def replace (old new cs : List Char) : List Char := replaceFrom old new 0 cs

def replaceChar (old : Char) (new cs : List Char) : List Char :=
  cs.flatMap fun c => if c = old then new else [c]

theorem occurs_iff_isInfix {piece cs : List Char} : occurs piece cs = true ↔ piece <:+: cs := by
  induction cs with
  | nil => simp [occurs]
  | cons c rest ih =>
    simp [occurs, ih, List.infix_cons_iff]

theorem length_replaceFrom_le {old new : List Char} (h : new.length ≤ old.length) :
    ∀ (skip : Nat) (cs : List Char),
      (replaceFrom old new skip cs).length ≤ cs.length - skip ∨ cs.length < skip
  | _, [] => by
    unfold replaceFrom
    simp
  | skip + 1, _ :: rest => by
    rcases length_replaceFrom_le h skip rest with ih | ih
    · left; simp only [replaceFrom, List.length_cons]; omega
    · right; simp only [List.length_cons]; omega
  | 0, c :: rest => by
    left
    simp only [replaceFrom]
    split
    · rename_i found
      have long : old.length ≤ (c :: rest).length :=
        (List.isPrefixOf_iff_prefix.mp found).length_le
      simp only [List.length_cons] at long
      rcases length_replaceFrom_le h (old.length - 1) rest with ih | ih
      · simp only [List.length_append, List.length_cons]; omega
      · omega
    · rcases length_replaceFrom_le h 0 rest with ih | ih
      · simp only [List.length_cons]; omega
      · omega

/-- A replacement that is no longer than what it replaces does not make the text longer. -/
theorem length_replace_le {old new : List Char} (h : new.length ≤ old.length) (cs : List Char) :
    (replace old new cs).length ≤ cs.length := by
  rcases length_replaceFrom_le h 0 cs with this | this
  · simpa [replace] using this
  · omega

end OpenApi.Text
