import OpenApi.Text.CodeUnit
import OpenApi.Text.Percent
import OpenApi.Yaml.Cursor
import OpenApi.Yaml.Token

/-
The texts of scalars in their notations: quoted, plain, and as a block of lines.

Lines are folded in all of them, except in a block that asks for literal lines: a single line feed
becomes a space, and of several the first is dropped.  A loop that takes at least one character in
each round is bounded by the number of characters left.
-/
namespace OpenApi.Yaml

/-- What a line break and the breaks of the empty lines after it come to. -/
def fold (first : Char) (more : List Char) : List Char :=
  if first != '\n' then first :: more
  else if more.isEmpty then [' ']
  else more

def isBlank (c : Char) : Bool := c == ' ' || c == '\t'

/-! ### Quoted scalars -/

/-- The breaks of the empty lines from here on, and the place of the first character after them.
Where documents are separated no quoted scalar may go on. -/
def emptyLines : (limit : Nat) → Cursor → Except Fault (List Char × Cursor)
  | 0, here => .ok ([], here)
  | limit + 1, here =>
    if here.atMarker then .error .illFormed
    else
      let inner := here.skipWhile isBlank
      match inner.lineBreak with
      | (none, _) => .ok ([], inner)
      | (some c, after) =>
        match emptyLines limit after with
        | .error fault => .error fault
        | .ok (more, last) => .ok (c :: more, last)

/-- White space inside a quoted scalar: blanks as they are, or a folded line break. -/
def quotedSpace (here : Cursor) : Except Fault (List Char × Cursor) :=
  let (blanks, after) := here.span isBlank
  match after.lineBreak with
  | (none, _) => .ok (blanks, after)
  | (some first, next) =>
    match emptyLines next.left next with
    | .error fault => .error fault
    | .ok (more, last) => .ok (fold first more, last)

/-- What an escape with one character stands for. -/
def escaped? : Char → Option Nat
  | '0' => some 0
  | 'a' => some 7
  | 'b' => some 8
  | 't' => some 9
  | '\t' => some 9
  | 'n' => some 10
  | 'v' => some 11
  | 'f' => some 12
  | 'r' => some 13
  | 'e' => some 27
  | ' ' => some 32
  | '"' => some 34
  | '\\' => some 92
  | '/' => some 47
  | 'N' => some 0x85
  | '_' => some 0xA0
  | 'L' => some 0x2028
  | 'P' => some 0x2029
  | _ => none

/-- The number of hexadecimal digits that an escape asks for. -/
def escapeWidth? : Char → Option Nat
  | 'x' => some 2
  | 'u' => some 4
  | 'U' => some 8
  | _ => none

/-- The value of hexadecimal digits, if all characters are some. -/
def hex? (cs : List Char) : Option Nat :=
  cs.foldl (fun n c => match n, Text.Percent.hexValue? c with
    | some n, some d => some (n * 16 + d)
    | _, _ => none) (some 0)

/-- The code points of an escape, whose backslash lies before this place. -/
def escape (here : Cursor) : Except Fault (List Nat × Cursor) :=
  match here.rest with
  | [] => .error .illFormed
  | c :: rest =>
    match escaped? c with
    | some code => .ok ([code], here.next)
    | none =>
      match escapeWidth? c with
      | some width =>
        let digits := rest.take width
        match if digits.length = width then hex? digits else none with
        | none => .error .illFormed
        | some code =>
          if code < 0x110000 then .ok ([code], here.skip (1 + width))
          else .error (if code < 0x80000000 then .noCharacter else .farCharacter)
      | none =>
        match here.lineBreak with
        | (none, _) => .error .illFormed
        | (some _, next) =>
          match emptyLines next.left next with
          | .error fault => .error fault
          | .ok (more, last) => .ok (more.map Char.toNat, last)

/-- The code points of a quoted scalar up to its closing quote, and the place after it. -/
def quotedRest (double : Bool) : (limit : Nat) → Cursor → Except Fault (List Nat × Cursor)
  | 0, _ => .error .illFormed
  | limit + 1, here =>
    let goOn (codes : List Nat) (after : Cursor) : Except Fault (List Nat × Cursor) :=
      match quotedRest double limit after with
      | .error fault => .error fault
      | .ok (more, last) => .ok (codes ++ more, last)
    match here.rest with
    | [] => .error .illFormed
    | c :: rest =>
      if isSpace c then
        match quotedSpace here with
        | .error fault => .error fault
        | .ok (cs, after) => goOn (cs.map Char.toNat) after
      else if double then
        if c == '"' then .ok ([], here.next)
        else if c == '\\' then
          match escape here.next with
          | .error fault => .error fault
          | .ok (codes, after) => goOn codes after
        else goOn [c.toNat] here.next
      else if c == '\'' then
        if rest.head? == some '\'' then goOn [c.toNat] (here.skip 2) else .ok ([], here.next)
      else goOn [c.toNat] here.next

def quoted (double : Bool) (here : Cursor) : Except Fault (String × Cursor) :=
  match quotedRest double here.left here.next with
  | .error fault => .error fault
  | .ok (codes, after) => .ok (String.ofList (Text.CodeUnit.decode codes), after)

/-! ### Plain scalars -/

/-- Characters that have a meaning between the brackets of a list or a map. -/
def isFlowIndicator (c : Char) : Bool := [',', '[', ']', '\x7b', '\x7d'].contains c

/-- Whether a plain scalar ends before this text; `flow` says that it stands between brackets. -/
def endsPlain (flow : Bool) : List Char → Bool
  | [] => true
  | c :: rest =>
    isSpace c ||
      (c == ':' && (endsWord rest || (flow && rest.head?.any isFlowIndicator))) ||
      (flow && (c == '?' || isFlowIndicator c))

/-- The characters up to where a plain scalar ends. -/
def plainWord (flow : Bool) : List Char → List Char
  | [] => []
  | c :: rest => if endsPlain flow (c :: rest) then [] else c :: plainWord flow rest

/-- The breaks of the empty lines from here on, unless documents are separated there. -/
def plainBreaks : (limit : Nat) → Cursor → Option (List Char) × Cursor
  | 0, here => (some [], here)
  | limit + 1, here =>
    let inner := here.skipBlanks
    match inner.lineBreak with
    | (none, _) => (some [], inner)
    | (some c, after) =>
      if after.atMarker then (none, after)
      else
        let (more, last) := plainBreaks limit after
        (more.map (c :: ·), last)

/-- White space inside a plain scalar, whether a line ends in it, and the place after it. -/
structure PlainSpace where
  text : List Char
  endsLine : Bool
  after : Cursor

def plainSpace (here : Cursor) : PlainSpace :=
  let (blanks, after) := here.span (· == ' ')
  match after.lineBreak with
  | (none, _) => ⟨blanks, false, after⟩
  | (some first, next) =>
    if next.atMarker then ⟨[], true, next⟩
    else
      match plainBreaks (next.left + 1) next with
      | (none, last) => ⟨[], true, last⟩
      | (some more, last) => ⟨fold first more, true, last⟩

/-- A plain scalar: its text, whether a line ends after it, and the place of what follows. -/
structure Plain where
  text : List Char
  endsLine : Bool
  after : Cursor

/-- The words of a plain scalar from here on.  Outside brackets its lines are indented more than
its parent. -/
def plainRest (flow : Bool) (indent : Int) : (limit : Nat) → Cursor → Plain
  | 0, here => ⟨[], false, here⟩
  | limit + 1, here =>
    let word := plainWord flow here.rest
    let space := plainSpace (here.skip word.length)
    let goesOn := !space.text.isEmpty && space.after.rest.head? != some '#' &&
      (flow || indent ≤ space.after.column) &&
      !(plainWord flow space.after.rest).isEmpty
    if goesOn then
      let more := plainRest flow indent limit space.after
      { more with text := word ++ space.text ++ more.text }
    else ⟨word, space.endsLine, space.after⟩

def plain (flow : Bool) (indent : Int) (here : Cursor) : Plain :=
  plainRest flow indent here.left here

/-! ### Blocks of lines -/

/-- What becomes of the line breaks at the end of a block. -/
inductive Chomp where
  | clip
  | strip
  | keep
  deriving DecidableEq, Repr

def chomp? : Char → Option Chomp
  | '+' => some .keep
  | '-' => some .strip
  | _ => none

/-- The number that a digit gives for the indentation of a block, which cannot be zero. -/
def increment? (c : Char) : Option (Except Fault Nat) :=
  if c == '0' then some (.error .illFormed)
  else if c.isDigit then some (.ok (c.toNat - '0'.toNat))
  else none

structure BlockHeader where
  chomp : Chomp
  increment : Option Nat

/-- The marks of a block, which may come in either order, and the number of their characters. -/
def blockMarks : List Char → Except Fault (BlockHeader × Nat)
  | [] => .ok (⟨.clip, none⟩, 0)
  | c :: rest =>
    match chomp? c, increment? c with
    | some chomp, _ =>
      match rest.head?.bind increment? with
      | some (.ok n) => .ok (⟨chomp, some n⟩, 2)
      | some (.error fault) => .error fault
      | none => .ok (⟨chomp, none⟩, 1)
    | none, some (.ok n) =>
      match rest.head?.bind chomp? with
      | some chomp => .ok (⟨chomp, some n⟩, 2)
      | none => .ok (⟨.clip, some n⟩, 1)
    | none, some (.error fault) => .error fault
    | none, none => .ok (⟨.clip, none⟩, 0)

/-- The header of a block, and the place where its first line begins. -/
def blockHeader (here : Cursor) : Except Fault (BlockHeader × Cursor) :=
  match blockMarks here.rest with
  | .error fault => .error fault
  | .ok (header, width) =>
    let after := here.skip width
    if endsOr (fun c => c == ' ' || isBreak c) after.rest then
      let lineEnd := after.skipBlanks.skipComment
      if endsLine lineEnd.rest then .ok (header, lineEnd.lineBreak.2) else .error .illFormed
    else .error .illFormed

/-- The empty lines at the beginning of a block without a number in its header: their breaks, the
greatest indentation among them and the first line with a text, and the place after them. -/
def blockStart : (limit : Nat) → (deepest : Nat) → Cursor → List Char × Nat × Cursor
  | 0, deepest, here => ([], deepest, here)
  | limit + 1, deepest, here =>
    let inner := here.skipBlanks
    let deepest := if inner.index = here.index then deepest else max deepest inner.column
    match inner.lineBreak with
    | (none, _) => ([], deepest, inner)
    | (some c, after) =>
      let (more, deepest, last) := blockStart limit deepest after
      (c :: more, deepest, last)

/-- Skip spaces up to a column. -/
def skipIndent (indent : Nat) (here : Cursor) : Cursor :=
  here.skip ((here.rest.take (indent - here.column)).takeWhile (· == ' ')).length

/-- The breaks of the empty lines of a block from here on, and the place after them and the
indentation. -/
def blockBreaks (indent : Nat) : (limit : Nat) → Cursor → List Char × Cursor
  | 0, here => ([], here)
  | limit + 1, here =>
    let inner := skipIndent indent here
    match inner.lineBreak with
    | (none, _) => ([], inner)
    | (some c, after) =>
      let (more, last) := blockBreaks indent limit after
      (c :: more, last)

/-- The lines of a block: its text up to the last line, the break that ends that line, and the
breaks of the empty lines after it. -/
structure BlockText where
  text : List Char
  lastBreak : List Char
  breaks : List Char
  after : Cursor

/-- Whether a line of a block begins here. -/
def inBlock (indent : Nat) (here : Cursor) : Bool :=
  here.column == indent && !here.rest.isEmpty

/-- What stands between two lines of a block, apart from the breaks of empty lines. -/
def blockJoint (folded leading : Bool) (lineBreak breaks : List Char) (here : Cursor) :
    List Char :=
  if folded && lineBreak == ['\n'] && leading && !here.rest.head?.any isBlank then
    if breaks.isEmpty then [' '] else []
  else lineBreak

/-- The lines of a block from here on, after empty lines with the given breaks. -/
def blockLines (folded : Bool) (indent : Nat) :
    (limit : Nat) → (breaks : List Char) → Cursor → BlockText
  | 0, breaks, here => ⟨[], [], breaks, here⟩
  | limit + 1, breaks, here =>
    if inBlock indent here then
      let leading := !here.rest.head?.any isBlank
      let (line, lineEnd) := here.span (!isBreak ·)
      let (found, next) := lineEnd.lineBreak
      let lineBreak := found.toList
      let (more, inner) := blockBreaks indent (next.left + 1) next
      if inBlock indent inner then
        let following := blockLines folded indent limit more inner
        { following with
          text := breaks ++ line ++ blockJoint folded leading lineBreak more inner ++
            following.text }
      else ⟨breaks ++ line, lineBreak, more, inner⟩
    else ⟨[], [], breaks, here⟩

/-- The text of a block of lines whose mark stands here.  It is indented more than its parent. -/
def block (folded : Bool) (parent : Int) (here : Cursor) : Except Fault (String × Cursor) :=
  match blockHeader here.next with
  | .error fault => .error fault
  | .ok (header, start) =>
    let least := (max (parent + 1) 1).toNat
    let limit := start.left + 1
    let (indent, breaks, first) :=
      match header.increment with
      | some n =>
        let indent := least + n - 1
        (indent, blockBreaks indent limit start)
      | none =>
        let (breaks, deepest, first) := blockStart limit 0 start
        (max least deepest, breaks, first)
    let lines := blockLines folded indent limit breaks first
    let ending := match header.chomp with
      | .strip => []
      | .clip => lines.lastBreak
      | .keep => lines.lastBreak ++ lines.breaks
    .ok (String.ofList (lines.text ++ ending), lines.after)

end OpenApi.Yaml
