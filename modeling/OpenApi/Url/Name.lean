import OpenApi.Text.Composition
import OpenApi.Text.Direction
import OpenApi.Text.HostName
import OpenApi.Text.Joining
import OpenApi.Text.Lowercase
import OpenApi.Text.Punycode
import OpenApi.Text.Quoted
import OpenApi.Text.Replace
import OpenApi.Text.Script

/-
Names of hosts in letters of any script.

A name consists of labels with full stops between them.  On its way through the web each label is
written in ASCII, and this form has a limit of length; a label that is written so already has to
stand for one that keeps the rules.
-/
namespace OpenApi.Url

inductive NameFault where
  /-- A label is empty, too long or not in its one spelling, begins or ends with a hyphen, begins
  with a mark, or is written in ASCII in a way that stands for nothing. -/
  | malformed
  | forbidden
  /-- A character in a place where it means nothing. -/
  | misplaced
  /-- Characters of different or unknown directions, which do not go together. -/
  | mixed
  deriving DecidableEq, Repr

namespace Name

/-! ### Characters that have their places -/

def isArabicDigit (c : Char) : Bool := 0x660 ≤ c.toNat && c.toNat ≤ 0x669

/-- Digits of the same script in their eastern shape. -/
def isEasternDigit (c : Char) : Bool := 0x6F0 ≤ c.toNat && c.toNat ≤ 0x6F9

/-- Characters that have a meaning in some places only. -/
def hasPlace (c : Char) : Bool :=
  isArabicDigit c || isEasternDigit c ||
    [0xB7, 0x375, 0x5F3, 0x5F4, 0x200C, 0x200D, 0x30FB].contains c.toNat

/-- Whether such a character has a meaning between others; those before it are given last one
first.  A point in the middle stands between two letters l, and the middle point of Japanese in
what is Japanese or Chinese; numeral signs go with their scripts; the digits of one shape do not go
with those of the other; and the signs for joining and not joining have rules of their own. -/
def isInPlace (before after : List Char) (c : Char) : Bool :=
  if isArabicDigit c then !(before ++ after).any isEasternDigit
  else if isEasternDigit c then !(before ++ after).any isArabicDigit
  else
    match c.toNat with
    | 0xB7 => before.head? == some 'l' && after.head? == some 'l'
    | 0x375 => after.head?.any Text.isGreek
    | 0x5F3 | 0x5F4 => before.head?.any Text.isHebrew
    | 0x200C => before.head?.any Text.isSilencer || Text.wouldJoin before after
    | 0x200D => before.head?.any Text.isSilencer
    | 0x30FB => (before ++ after).any Text.isEastAsian
    | _ => false

/-- Whether names have a character in every place. -/
def isUsual (c : Char) : Bool := Text.isHostChar c || Text.directionOf c == .unknown

/-- Check characters of a label one by one, after others that are given last one first. -/
def checkCharacters (before : List Char) : List Char → Except NameFault Unit
  | [] => .ok ()
  | c :: after =>
    if isUsual c then checkCharacters (c :: before) after
    else if !hasPlace c then .error .forbidden
    else if isInPlace before after c then checkCharacters (c :: before) after
    else .error .misplaced

/-! ### Labels -/

/-- No name is longer than this. -/
def longest : Nat := 253

/-- Whether hyphens stand where they may: not at the ends, and not in the third and fourth place,
which tells labels that are written in ASCII. -/
def hyphensAreGood (label : List Char) : Bool :=
  label.head? != some '-' && label.getLast? != some '-' && (label.drop 2).take 2 != ['-', '-']

def checkLabel (label : List Char) : Except NameFault Unit :=
  if label.isEmpty || longest + 1 < label.length || !Text.isComposed label ||
      !hyphensAreGood label || label.head?.any Text.isMark then .error .malformed
  else
    match checkCharacters [] label with
    | .error fault => .error fault
    | .ok _ => if Text.goesOneWay label then .ok () else .error .mixed

/-- The beginning of labels that are written in ASCII. -/
def mark : List Char := "xn--".toList

/-- Check a label of ASCII characters, which may be written for another one.  It is in its one
spelling if writing the other label gives it back. -/
def checkPlain (label : List Char) : Except NameFault Unit :=
  if mark.isPrefixOf label then
    let word := label.drop mark.length
    if word.isEmpty || word.getLast? == some '-' then .error .malformed
    else
      match Text.Punycode.decode? word with
      | none => .error .malformed
      | some read =>
        match checkLabel read with
        | .error fault => .error fault
        | .ok _ => if Text.Punycode.encode read = word then .ok () else .error .malformed
  else checkLabel label

def isPlain (cs : List Char) : Bool := cs.all Text.Punycode.isPlain

def plainLabel (label : List Char) : Except NameFault (List Char) :=
  let plain := if isPlain label then label else mark ++ Text.Punycode.encode label
  match if isPlain label then checkPlain label else checkLabel label with
  | .error fault => .error fault
  | .ok _ => if plain.length ≤ 63 then .ok plain else .error .malformed

/-! ### Names -/

/-- A full stop, in one of its four forms. -/
def isStop (c : Char) : Bool := [0x2E, 0x3002, 0xFF0E, 0xFF61].contains c.toNat

/-- The labels of a name; a full stop at its end does not count. -/
def labels (name : List Char) : List (List Char) :=
  let parts := Text.split '.' (name.map fun c => if isStop c then '.' else c)
  if parts.getLast? == some [] then parts.dropLast else parts

/-- The form in ASCII of a name. -/
def plain (name : List Char) : Except NameFault (List Char) :=
  match (labels name).mapM plainLabel with
  | .error fault => .error fault
  | .ok labels =>
    let joined := Text.join ['.'] labels
    if joined.length ≤ longest then .ok joined else .error .malformed

/-- Signs of ASCII that a name is not sent with. -/
def isEscaped (c : Char) : Bool := [' ', '<', '>', '[', ']', '^'].contains c

/-- A name as it is sent: a percent sign and the code stand for such a sign. -/
def escaped (name : List Char) : List Char :=
  name.flatMap fun c => if isEscaped c then '%' :: Text.Quoted.hex 2 c.toNat else [c]

/-- Check a name that is written in ASCII, as it is sent. -/
def checkAll (name : List Char) : Except NameFault Unit :=
  let name := escaped name
  if longest + 1 < name.length then .error .malformed else (labels name).forM checkPlain

end Name
end OpenApi.Url
