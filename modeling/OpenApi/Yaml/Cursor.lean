/-
A place in a YAML text.

Indentation has a meaning in YAML, so a place is known by its line and column as well as by what
is left of the text.  A text ends where a line could end: most tests on the next character hold at
the end, too.
-/
namespace OpenApi.Yaml

/-- Characters that a YAML text may consist of. -/
def isAllowed (c : Char) : Bool :=
  let code := c.toNat
  code == 9 || code == 10 || code == 13 || (0x20 ≤ code && code ≤ 0x7E) || code == 0x85 ||
    (0xA0 ≤ code && code ≤ 0xD7FF) || (0xE000 ≤ code && code ≤ 0xFFFD) || 0x10000 ≤ code

/-- The line separator and the paragraph separator, which are kept where other breaks are
folded. -/
def isSeparator (c : Char) : Bool := c.toNat == 0x2028 || c.toNat == 0x2029

def isBreak (c : Char) : Bool :=
  c == '\n' || c == '\r' || c.toNat == 0x85 || isSeparator c

/-- A space, a tab or a line break. -/
def isSpace (c : Char) : Bool := c == ' ' || c == '\t' || isBreak c

/-- Letters, digits and signs of the names of anchors, handles and directives. -/
def isNameChar (c : Char) : Bool := c.isAlphanum || c == '-' || c == '_'

/-- A mark that may begin a text, and takes no column. -/
def byteOrderMark : Char := Char.ofNat 0xFEFF

/-- Whether a text is at its end or goes on with a character of a class. -/
def endsOr (p : Char → Bool) (cs : List Char) : Bool := cs.head?.all p

def endsLine (cs : List Char) : Bool := endsOr isBreak cs

def endsWord (cs : List Char) : Bool := endsOr isSpace cs

/-- A place in a text: what is left, and where that begins.  The number of characters left is kept,
since it bounds every loop over them. -/
structure Cursor where
  rest : List Char
  line : Nat := 0
  column : Nat := 0
  index : Nat := 0
  left : Nat := rest.length
  left_eq : left = rest.length := by rfl

namespace Cursor

theorem left_sub_one {here : Cursor} {c : Char} {rest : List Char} (h : here.rest = c :: rest) :
    here.left - 1 = rest.length := by
  rw [here.left_eq, h, List.length_cons, Nat.add_sub_cancel]

/-- The place after one character.  A carriage return before a line feed does not end the line
yet. -/
def next (here : Cursor) : Cursor :=
  match h : here.rest with
  | [] => here
  | c :: rest =>
    if isBreak c && !(c == '\r' && rest.head? == some '\n') then
      ⟨rest, here.line + 1, 0, here.index + 1, here.left - 1, left_sub_one h⟩
    else
      ⟨rest, here.line, if c == byteOrderMark then here.column else here.column + 1,
        here.index + 1, here.left - 1, left_sub_one h⟩

def skip : Nat → Cursor → Cursor
  | 0, here => here
  | n + 1, here => skip n here.next

/-- The longest stretch of characters of a class, and the place after it. -/
def span (p : Char → Bool) (here : Cursor) : List Char × Cursor :=
  let taken := here.rest.takeWhile p
  (taken, here.skip taken.length)

def skipWhile (p : Char → Bool) (here : Cursor) : Cursor := (here.span p).2

def skipBlanks (here : Cursor) : Cursor := here.skipWhile (· == ' ')

def skipComment (here : Cursor) : Cursor :=
  if here.rest.head? == some '#' then here.skipWhile (!isBreak ·) else here

/-- The line break that stands here, if there is one: a separator as it is, every other one as a
line feed. -/
def lineBreak (here : Cursor) : Option Char × Cursor :=
  match here.rest with
  | '\r' :: '\n' :: _ => (some '\n', here.skip 2)
  | c :: _ =>
    if isSeparator c then (some c, here.next)
    else if isBreak c then (some '\n', here.next)
    else (none, here)
  | [] => (none, here)

/-- Whether three given characters stand here as a word of their own. -/
def hasMark (mark : String) (here : Cursor) : Bool :=
  mark.toList.isPrefixOf here.rest && endsWord (here.rest.drop mark.length)

/-- Whether a line stands here that separates documents. -/
def atMarker (here : Cursor) : Bool := here.hasMark "---" || here.hasMark "..."

theorem length_rest_next_le (here : Cursor) : here.next.rest.length ≤ here.rest.length := by
  unfold next
  split
  · exact Nat.le_refl _
  · rename_i h
    have whole := congrArg List.length h
    rw [List.length_cons] at whole
    split <;> dsimp only <;> omega

theorem length_rest_skip_le (n : Nat) (here : Cursor) :
    (here.skip n).rest.length ≤ here.rest.length := by
  induction n generalizing here with
  | zero => exact Nat.le_refl _
  | succ n ih => exact Nat.le_trans (ih here.next) (length_rest_next_le here)

end Cursor
end OpenApi.Yaml
