import OpenApi.Number.Numeral
import OpenApi.Yaml.Literal

/-
From a YAML text to its tokens.

Two things in a text are only known afterwards.  That a node was a key is known at the colon after
it, so each place where a key could begin is kept as a `Candidate`, and the colon puts the tokens
for the key there.  That a list or a map has ended is known at the first token that is indented
less, so the columns of all open ones are kept.

A candidate lives on one line and for at most 1024 characters.  One is kept for the lines outside
brackets and one for each open bracket.  As long as a candidate lives, the tokens after it cannot be
told; a fault in the text that is met meanwhile comes before them.
-/
namespace OpenApi.Yaml

/-- A place where a key may have begun. -/
structure Candidate where
  /-- The number of tokens before it. -/
  tokens : Nat
  line : Nat
  column : Nat
  index : Nat
  /-- Nothing but a key can stand there. -/
  required : Bool

structure Layout where
  here : Cursor
  /-- The tokens so far, last one first, and their number. -/
  tokens : List Token := []
  count : Nat := tokens.length
  count_eq : count = tokens.length := by rfl
  /-- The column of the innermost open list or map, and those of the ones around it. -/
  indent : Int := -1
  outer : List Int := []
  /-- The candidate of the innermost open bracket, and those of the brackets around it; the last
  one is that of the lines outside all brackets. -/
  candidate : Option Candidate := none
  around : List (Option Candidate) := []
  /-- Whether a key may begin at the next token. -/
  keyAllowed : Bool := true

namespace Layout

def inFlow (s : Layout) : Bool := !s.around.isEmpty

def emit (token : Token) (s : Layout) : Layout :=
  { s with
    tokens := token :: s.tokens
    count := s.count + 1
    count_eq := by rw [s.count_eq, List.length_cons] }

def skip (n : Nat) (s : Layout) : Layout := { s with here := s.here.skip n }

/-- Skip blanks, comments and line breaks.  Outside brackets a key may begin on a new line. -/
def skipGap : (limit : Nat) → Layout → Layout
  | 0, s => s
  | limit + 1, s =>
    let lineEnd := s.here.skipBlanks.skipComment
    match lineEnd.lineBreak with
    | (none, _) => { s with here := lineEnd }
    | (some _, next) =>
      skipGap limit { s with here := next, keyAllowed := s.keyAllowed || !s.inFlow }

/-- Whether a key that began at a candidate could still end here. -/
def isFresh (here : Cursor) (c : Candidate) : Bool :=
  c.line == here.line && here.index ≤ c.index + 1024

/-- A candidate given up, which is a fault if there has to be a key. -/
def giveUp : Option Candidate → Except Fault Unit
  | some c => if c.required then .error .illFormed else .ok ()
  | none => .ok ()

/-- A candidate that is still fresh, or nothing. -/
def refresh (here : Cursor) (slot : Option Candidate) : Except Fault (Option Candidate) :=
  if slot.all (isFresh here) then .ok slot
  else
    match giveUp slot with
    | .ok () => .ok none
    | .error fault => .error fault

def refreshAll (s : Layout) : Except Fault Layout := do
  let candidate ← refresh s.here s.candidate
  let around ← s.around.mapM (refresh s.here)
  return { s with candidate := candidate, around := around }

/-- Close all lists and maps that are indented more than a column, as far as there are any. -/
def closeTo (column : Int) : List Int → Layout → Layout
  | [], s => s
  | outer :: rest, s =>
    if s.indent > column then
      closeTo column rest { s.emit .dedent with indent := outer, outer := rest }
    else s

/-- Close the lists and maps that end before a column; between brackets indentation has no
meaning. -/
def dedentTo (column : Int) (s : Layout) : Layout :=
  if s.inFlow then s else closeTo column s.outer s

/-- Give up the candidate of the innermost bracket. -/
def dropCandidate (s : Layout) : Except Fault Layout :=
  match giveUp s.candidate with
  | .ok () => .ok { s with candidate := none }
  | .error fault => .error fault

/-- A key may begin here. -/
def markCandidate (s : Layout) : Except Fault Layout := do
  if s.keyAllowed then
    let s ← s.dropCandidate
    let here := s.here
    return { s with
      candidate := some
        ⟨s.count, here.line, here.column, here.index,
          !s.inFlow && s.indent == here.column⟩ }
  else return s

/-- Open a list or a map at a column, if it is indented more than the innermost one; gives whether
it was. -/
def indentTo (column : Nat) (s : Layout) : Bool × Layout :=
  if s.indent < column then
    (true, { s with indent := column, outer := s.indent :: s.outer })
  else (false, s)

/-- Open a list or a map here, unless it is open already. -/
def openAt (opening : Token) (s : Layout) : Layout :=
  match s.indentTo s.here.column with
  | (true, s) => s.emit opening
  | (false, s) => s

/-- Put tokens before the last `n` ones; all lists have their last token first. -/
def insertBefore (n : Nat) (more : List Token) (s : Layout) : Layout :=
  { s with
    tokens := s.tokens.take n ++ more ++ s.tokens.drop n
    count := s.count + more.length
    count_eq := by
      simp only [s.count_eq, List.length_append, List.length_take, List.length_drop]
      omega }

/-! ### Tokens of one or more characters -/

/-- A directive or a marker between documents ends everything. -/
def endAll (s : Layout) : Except Fault Layout := do
  let s ← (s.dedentTo (-1)).dropCandidate
  return { s with keyAllowed := false }

def marker (token : Token) (s : Layout) : Except Fault Layout := do
  let s ← s.endAll
  return (s.emit token).skip 3

def openBracket (token : Token) (s : Layout) : Except Fault Layout := do
  let s ← s.markCandidate
  return { (s.emit token).skip 1 with
    candidate := none, around := s.candidate :: s.around, keyAllowed := true }

def closeBracket (token : Token) (s : Layout) : Except Fault Layout := do
  let s ← s.dropCandidate
  match s.around with
  | [] => throw .illFormed
  | candidate :: around =>
    return { (s.emit token).skip 1 with
      candidate := candidate, around := around, keyAllowed := false }

def comma (s : Layout) : Except Fault Layout := do
  let s ← s.dropCandidate
  return { (s.emit .comma).skip 1 with keyAllowed := true }

/-- A dash before an item of an indented list. -/
def item (s : Layout) : Except Fault Layout := do
  if !s.inFlow && !s.keyAllowed then throw .illFormed
  let s ← (if s.inFlow then s else s.openAt .listIndent).dropCandidate
  return { (s.emit .item).skip 1 with keyAllowed := true }

/-- A question mark before a key. -/
def key (s : Layout) : Except Fault Layout := do
  if !s.inFlow && !s.keyAllowed then throw .illFormed
  let s ← (if s.inFlow then s else s.openAt .mapIndent).dropCandidate
  return { (s.emit .key).skip 1 with keyAllowed := !s.inFlow }

/-- A colon after a key that began at a candidate. -/
def valueOf (c : Candidate) (s : Layout) : Layout :=
  let (isNew, s) := if s.inFlow then (false, s) else s.indentTo c.column
  let opening := if isNew then [.key, .mapIndent] else [.key]
  let s := s.insertBefore (s.count - c.tokens) opening
  { (s.emit .value).skip 1 with candidate := none, keyAllowed := false }

/-- A colon before a value. -/
def value (s : Layout) : Except Fault Layout := do
  match s.candidate with
  | some c => return s.valueOf c
  | none =>
    if !s.inFlow && !s.keyAllowed then throw .illFormed
    let s := if s.inFlow then s else s.openAt .mapIndent
    return { (s.emit .value).skip 1 with keyAllowed := !s.inFlow }

/-- A token that may belong to a key, up to a place. -/
def nodePart (token : Token) (after : Cursor) (s : Layout) : Layout :=
  { s.emit token with here := after, keyAllowed := false }

/-! ### Names, tags and directives -/

/-- Whether something else than a name may follow the name of an anchor. -/
def endsName (cs : List Char) : Bool :=
  endsOr (fun c => isSpace c || ['?', ':', ',', ']', '\x7d', '%', '@', '\x60'].contains c) cs

def anchorName (here : Cursor) : Except Fault (String × Cursor) :=
  let (name, after) := here.next.span isNameChar
  if !name.isEmpty && endsName after.rest then .ok (String.ofList name, after)
  else .error .illFormed

/-- Characters of a tag besides letters, digits and the signs of names. -/
def isTagChar (c : Char) : Bool := isNameChar c || ";/?:@&=+$,.!~*'()[]".contains c

/-- Escaped bytes, two hexadecimal digits after each percent sign, and what follows them. -/
def escapedBytes : List Char → Except Fault (List UInt8 × List Char)
  | '%' :: a :: b :: rest =>
    match Text.Percent.hexValue? a, Text.Percent.hexValue? b, escapedBytes rest with
    | some a, some b, .ok (bytes, after) => .ok (UInt8.ofNat (a * 16 + b) :: bytes, after)
    | _, _, _ => .error .illFormed
  | '%' :: _ => .error .illFormed
  | cs => .ok ([], cs)

/-- The characters of a tag from here on: those it may have, and bytes of others escaped. -/
def tagText : (limit : Nat) → Cursor → Except Fault (List Char × Cursor)
  | 0, here => .ok ([], here)
  | limit + 1, here =>
    let (shown, after) := here.span isTagChar
    if after.rest.head? == some '%' then do
      let (bytes, _) ← escapedBytes after.rest
      match Text.Utf8.decode? bytes with
      | none => .error .illFormed
      | some cs =>
        let (more, last) ← tagText limit (after.skip (3 * bytes.length))
        return (shown ++ cs ++ more, last)
    else .ok (shown, after)

/-- The text of a tag or of the replacement for a handle, which is not empty. -/
def tagSuffix (here : Cursor) : Except Fault (String × Cursor) := do
  let (cs, after) ← tagText (here.left + 1) here
  if after.index = here.index then .error .illFormed else return (String.ofList cs, after)

/-- A handle: an exclamation mark alone, or a name between two of them. -/
def tagHandle (here : Cursor) : Except Fault (String × Cursor) :=
  if here.rest.head? != some '!' then .error .illFormed
  else
    let (name, after) := here.next.span isNameChar
    if after.rest.head? == some '!' then
      .ok (String.ofList ('!' :: name ++ ['!']), after.next)
    else if name.isEmpty && after.rest.head? == some ' ' then .ok ("!", after)
    else .error .illFormed

/-- Whether a line ends here or a space stands here. -/
def endsTag (cs : List Char) : Bool := endsOr (fun c => c == ' ' || isBreak c) cs

def tagName (here : Cursor) : Except Fault (TagName × Cursor) := do
  let (name, after) ←
    match here.rest.drop 1 with
    | '<' :: _ => do
      let (suffix, after) ← tagSuffix (here.skip 2)
      if after.rest.head? != some '>' then throw .illFormed
      pure (⟨none, suffix⟩, after.next)
    | following =>
      if endsWord following then pure (⟨none, "!"⟩, here.next)
      else if (following.takeWhile fun c => c != ' ' && !isBreak c).contains '!' then do
        let (handle, afterHandle) ← tagHandle here
        let (suffix, after) ← tagSuffix afterHandle
        pure (⟨some handle, suffix⟩, after)
      else do
        let (suffix, after) ← tagSuffix here.next
        pure (⟨some "!", suffix⟩, after)
  if endsTag after.rest then return (name, after) else throw .illFormed

/-- The number of a version, which has to be short enough to be read. -/
def versionNumber (here : Cursor) : Except Fault (Nat × Cursor) :=
  let (digits, after) := here.span Char.isDigit
  if digits.isEmpty then .error .illFormed
  else if digits.length > Number.longest then .error .badValue
  else .ok (Numeral.value digits, after)

/-- The version of a directive: two numbers and a point between them. -/
def version (here : Cursor) : Except Fault (Directive × Cursor) := do
  let (major, afterMajor) ← versionNumber here.skipBlanks
  if afterMajor.rest.head? != some '.' then throw .illFormed
  let (_, after) ← versionNumber afterMajor.next
  if endsTag after.rest then return (.version major, after) else throw .illFormed

/-- A handle and what it stands for. -/
def tagReplacement (here : Cursor) : Except Fault (Directive × Cursor) := do
  let (handle, afterHandle) ← tagHandle here.skipBlanks
  if afterHandle.rest.head? != some ' ' then throw .illFormed
  let (replacement, after) ← tagSuffix afterHandle.skipBlanks
  if endsTag after.rest then return (.tag handle replacement, after) else throw .illFormed

/-- The directive whose percent sign stands here, with the rest of its line. -/
def directiveAt (here : Cursor) : Except Fault (Directive × Cursor) := do
  let (name, afterName) := here.next.span isNameChar
  if name.isEmpty || !endsTag afterName.rest then throw .illFormed
  let (directive, after) ←
    match String.ofList name with
    | "YAML" => version afterName
    | "TAG" => tagReplacement afterName
    | _ => pure (.other, afterName.skipWhile (!isBreak ·))
  let lineEnd := after.skipBlanks.skipComment
  if endsLine lineEnd.rest then return (directive, lineEnd.lineBreak.2) else throw .illFormed

/-! ### The next token -/

/-- Marks with a meaning of their own at the beginning of a node. -/
def nodeMarks : List Char := ['#', '&', '*', '!', '|', '>', '\'', '"', '%', '@', '\x60']

/-- Whether a plain scalar may begin with these characters. -/
def beginsPlain (flow : Bool) : List Char → Bool
  | [] => false
  | c :: rest =>
    if isSpace c then false
    else if c == '-' then !endsWord rest
    else if c == '?' || c == ':' then !flow && !endsWord rest
    else !(isFlowIndicator c || nodeMarks.contains c)

def quotedScalar (double : Bool) (s : Layout) : Except Fault Layout := do
  let s ← s.markCandidate
  let (text, after) ← quoted double s.here
  return s.nodePart (.scalar text false) after

/-- A scalar without quotes.  If a line ends after it, a key may begin again. -/
def plainScalar (s : Layout) : Except Fault Layout := do
  let s ← s.markCandidate
  let found := plain s.inFlow (s.indent + 1) s.here
  return { s.nodePart (.scalar (String.ofList found.text) true) found.after with
    keyAllowed := found.endsLine }

def blockScalar (folded : Bool) (s : Layout) : Except Fault Layout := do
  let s ← s.dropCandidate
  let (text, after) ← block folded s.indent s.here
  return { s.emit (.scalar text false) with here := after, keyAllowed := true }

/-- The state after the token that begins with the given character. -/
def advance (s : Layout) (c : Char) (rest : List Char) : Except Fault Layout := do
  let here := s.here
  let breaksAfter := endsWord rest
  if here.column == 0 && c == '%' then
    let s ← s.endAll
    let (directive, after) ← directiveAt here
    return { s.emit (.directive directive) with here := after }
  else if here.column == 0 && here.hasMark "---" then s.marker .documentStart
  else if here.column == 0 && here.hasMark "..." then s.marker .documentEnd
  else
    match c with
    | '[' => s.openBracket .listOpen
    | '\x7b' => s.openBracket .mapOpen
    | ']' => s.closeBracket .listClose
    | '\x7d' => s.closeBracket .mapClose
    | ',' => s.comma
    | '*' =>
      let s ← s.markCandidate
      let (name, after) ← anchorName here
      return s.nodePart (.alias name) after
    | '&' =>
      let s ← s.markCandidate
      let (name, after) ← anchorName here
      return s.nodePart (.anchor name) after
    | '!' =>
      let s ← s.markCandidate
      let (name, after) ← tagName here
      return s.nodePart (.tag name) after
    | '\'' => s.quotedScalar false
    | '"' => s.quotedScalar true
    | _ =>
      if c == '-' && breaksAfter then s.item
      else if c == '?' && (s.inFlow || breaksAfter) then s.key
      else if c == ':' && (s.inFlow || breaksAfter) then s.value
      else if c == '|' && !s.inFlow then s.blockScalar false
      else if c == '>' && !s.inFlow then s.blockScalar true
      else if beginsPlain s.inFlow (c :: rest) then s.plainScalar
      else throw .illFormed

/-- The state before the next token: the gap before it skipped, and all closed that ends there. -/
def settle (s : Layout) : Except Fault Layout := do
  let s ← (s.skipGap (s.here.left + 1)).refreshAll
  return s.dedentTo s.here.column

/-- How many tokens can be told before the next one has to be looked for: those before the first
place where a key may still turn out to have begun. -/
def settled (s : Layout) : Nat :=
  let open? (slot : Option Candidate) : Option Nat :=
    (slot.filter fun c => c.required || isFresh s.here c).map (·.tokens)
  ((s.candidate :: s.around).filterMap open?).foldl min s.count

/-- The tokens up to the place where looking for the next one is at fault. -/
def upTo (fault : Fault) (s : Layout) : List Token :=
  s.tokens.reverse.take s.settled ++ [.broken fault]

/-- The tokens of the text, at most `limit` more of them; what cannot be read is the last one. -/
def run : (limit : Nat) → Layout → List Token
  | 0, s => s.tokens.reverse
  | limit + 1, s =>
    match s.settle with
    | .error fault => s.upTo fault
    | .ok ready =>
      match ready.here.rest with
      | [] =>
        match ready.endAll with
        | .error fault => s.upTo fault
        | .ok last => last.tokens.reverse
      | c :: rest =>
        match ready.advance c rest with
        | .error fault => s.upTo fault
        | .ok next => run limit next

end Layout

/-- The tokens of a text.  Each takes at least one character. -/
def tokens (cs : List Char) : List Token :=
  if cs.all isAllowed then
    let start : Cursor := { rest := cs }
    Layout.run (cs.length + 1)
      { here := if cs.head? == some byteOrderMark then start.next else start }
  else [.broken .illFormed]

end OpenApi.Yaml
