import OpenApi.Name.Words
import OpenApi.Text.Blank

/-
From the names in a description to names that code can use.

Every name in the result comes from here.  Property names are quoted where they are no plain
identifier; tags, operation ids and parameters become camel case, enumeration members upper case
with underscores; type names keep their spelling as far as an identifier allows.
-/
namespace OpenApi.Name

open OpenApi.Text

/-- Words that no generated name may be, in the languages that clients are commonly written in. -/
def reserved : List String :=
  ["False", "None", "True", "and", "arguments", "as", "assert", "async", "await", "break", "case",
    "catch", "class", "const", "continue", "debugger", "def", "default", "del", "delete", "do",
    "elif", "else", "enum", "eval", "except", "export", "extends", "false", "finally", "for",
    "from", "function", "global", "if", "implements", "import", "in", "instanceof", "interface",
    "is", "lambda", "let", "new", "nonlocal", "not", "null", "or", "package", "pass", "private",
    "protected", "public", "raise", "return", "static", "super", "switch", "this", "throw", "true",
    "try", "typeof", "var", "void", "while", "with", "yield"]

/-- A reserved word gets an underscore at its end. -/
def avoidReserved (s : String) : String := if s ∈ reserved then s ++ "_" else s

def isHead (c : Char) : Bool := c.isAlpha || c == '_' || c == '$'

def isTail (c : Char) : Bool := c.isAlphanum || c == '_' || c == '$'

/-- An identifier of at least two characters, which needs no quotes as a property name. -/
def isBare : List Char → Bool
  | c :: d :: rest => isHead c && isTail d && rest.all isTail
  | _ => false

/-- A property name: itself if it is bare, else between single quotes. -/
def quoteUnlessBare (s : String) : String := if isBare s.toList then s else "'" ++ s ++ "'"

/-- Each stretch of characters that are not kept becomes one `mark`. -/
def squeeze (keep : Char → Bool) (mark : Char) : List Char → List Char
  | [] => []
  | c :: rest =>
    if keep c then c :: squeeze keep mark rest
    else if rest.head?.any (!keep ·) then squeeze keep mark rest
    else mark :: squeeze keep mark rest

/-- A name from its first letter on, with a hyphen for each stretch of characters other than
letters, digits, underscores and hyphens. -/
def hyphenated (cs : List Char) : List Char :=
  squeeze (fun c => c.isAlphanum || c == '_' || c == '-') '-' (cs.dropWhile (!·.isAlpha))

/-- The service that a tag names. -/
def ofTag (tag : String) : String := String.ofList (camelChars .upper (hyphenated tag.toList))

/-- The operation that an operation id names, or its method if it has no id. -/
def ofOperation (operationId : Option String) (method : String) : String :=
  let source := match operationId with
    | some id => if id.isEmpty then method else id
    | none => method
  String.ofList (camelChars .lower (hyphenated source.toList))

/-- A pair of brackets at the end, or right before a final line break, says that a parameter is
repeated; it becomes the word `array`. -/
def spellOutBrackets (cs : List Char) : List Char :=
  match cs.reverse with
  | ']' :: '[' :: rest => rest.reverse ++ "-array".toList
  | '\n' :: ']' :: '[' :: rest => rest.reverse ++ "-array\n".toList
  | _ => cs

/-- The name of a parameter in code. -/
def ofParameter (wire : String) : String :=
  avoidReserved
    (String.ofList (camelChars .lower (hyphenated (spellOutBrackets wire.toList))))

/-- An underscore between a small letter and the capital after it. -/
def separateCapitals : List Char → List Char
  | [] => []
  | c :: rest =>
    if c.isLower && rest.head?.any Char.isUpper then c :: '_' :: separateCapitals rest
    else c :: separateCapitals rest

/-- The name of the enumeration member that stands for a value. -/
def memberChars (cs : List Char) : List Char :=
  let plain := squeeze (fun c => c.isAlphanum || c == '_') '_' cs
  let headed := if plain.head?.any Char.isDigit then '_' :: plain else plain
  (separateCapitals headed).map Char.toUpper

def ofMember (value : String) : String := String.ofList (memberChars value.toList)

/-- A type token as an identifier: from the first character that may begin one, with an underscore
for each stretch of characters that may not continue one. -/
def typeChars (cs : List Char) : List Char :=
  squeeze isTail '_' (cs.dropWhile (!isHead ·))

def ofTypeToken (token : String) : String := String.ofList (typeChars token.toList)

/-- Drop `start` from the front of a text that begins with it. -/
def dropStart (start cs : List Char) : List Char :=
  if start.isPrefixOf cs then cs.drop start.length else cs

/-- A reference without the namespaces it lies in: each of them is dropped once, in order, from a
text without white space at its ends. -/
def withoutNamespaces (namespaces : List String) (cs : List Char) : List Char :=
  namespaces.foldl (fun cs start => dropStart start.toList cs) (trim cs)

def withoutNamespace (namespaces : List String) (s : String) : String :=
  String.ofList (withoutNamespaces namespaces s.toList)

theorem length_dropStart_le (start cs : List Char) :
    (dropStart start cs).length ≤ cs.length := by
  unfold dropStart
  split <;> simp

theorem length_withoutNamespaces_le (namespaces : List String) (cs : List Char) :
    (withoutNamespaces namespaces cs).length ≤ cs.length := by
  have fold : ∀ (names : List String) (ds : List Char),
      (names.foldl (fun cs start => dropStart start.toList cs) ds).length ≤ ds.length := by
    intro names
    induction names with
    | nil => exact fun _ => Nat.le_refl _
    | cons start rest ih =>
      exact fun ds => Nat.le_trans (ih _) (length_dropStart_le _ _)
  exact Nat.le_trans (fold _ _) (length_trim_le cs)

end OpenApi.Name
