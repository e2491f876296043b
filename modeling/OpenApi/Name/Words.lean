/-
Words of a name, and names in camel case.

A name in a description is free text: `get_pet-byID`, `XMLHttpRequest`, `2nd page`.  Only ASCII
letters and digits matter.  A word is a stretch of digits, a stretch of small letters with at most
one capital before it, or a stretch of capitals; where capitals run into small letters the last
capital begins the next word.

The definition looks at two neighbours and the character after them.  It decides whether the two
belong to one word, so cutting a name into words is a single structural recursion, and no letter or
digit can be lost on the way (`flatten_words`).
-/
namespace OpenApi.Name

/-- Whether `c` and the `d` right after it belong to one word, when `after` follows them. -/
def joins (c d : Char) (after : List Char) : Bool :=
  (c.isLower && d.isLower) || (c.isDigit && d.isDigit) || (c.isUpper && d.isLower) ||
    (c.isUpper && d.isUpper && !after.head?.any Char.isLower)

/-- Put `c` in front of the first word. -/
def extendFirst (c : Char) : List (List Char) → List (List Char)
  | [] => [[c]]
  | word :: words => (c :: word) :: words

/-- The words of a text, in order. -/
def words : List Char → List (List Char)
  | [] => []
  | c :: rest =>
    if !c.isAlphanum then words rest
    else
      match rest with
      | [] => [[c]]
      | d :: after => if joins c d after then extendFirst c (words rest) else [c] :: words rest

theorem flatten_extendFirst (c : Char) (ws : List (List Char)) :
    (extendFirst c ws).flatten = c :: ws.flatten := by
  cases ws <;> rfl

/-- The words hold exactly the ASCII letters and digits of the text, in order. -/
theorem flatten_words (cs : List Char) : (words cs).flatten = cs.filter Char.isAlphanum := by
  induction cs with
  | nil => rfl
  | cons c rest ih =>
    cases rest with
    | nil =>
      by_cases hc : c.isAlphanum = true <;> simp_all [words]
    | cons d after =>
      by_cases hc : c.isAlphanum = true
      · by_cases hj : joins c d after = true
        · rw [words, if_neg (by simp [hc]), if_pos hj, flatten_extendFirst, ih,
            List.filter_cons_of_pos hc]
        · rw [words, if_neg (by simp [hc]), if_neg hj, List.flatten_cons, ih,
            List.filter_cons_of_pos hc]
          rfl
      · rw [words, if_pos (by simp [hc]), ih, List.filter_cons_of_neg hc]

/-- First letter large, all others small. -/
def capitalize : List Char → List Char
  | [] => []
  | c :: rest => c.toUpper :: rest.map Char.toLower

/-- How the first word of a name in camel case is written. -/
inductive Case where
  | lower
  | upper
  deriving DecidableEq, Repr

def Case.first : Case → List Char → List Char
  | .lower, word => word.map Char.toLower
  | .upper, word => capitalize word

/-- The words in camel case, without anything between them. -/
def camelChars (case : Case) (cs : List Char) : List Char :=
  match words cs with
  | [] => []
  | head :: tail => case.first head ++ tail.flatMap capitalize

/-- The words of a name in camel case; nothing if the name has no letter and no digit. -/
def camelCase (case : Case) (s : String) : String := String.ofList (camelChars case s.toList)

end OpenApi.Name
