import OpenApi.Number.Numeral
import OpenApi.Text.Percent
import OpenApi.Text.Replace

/-
Hosts by their addresses: four numbers with points between them, or hexadecimal groups with colons.

What looks like four numbers has to be an address.  A host in brackets has to be one in groups.
-/
namespace OpenApi.Url

/-- The parts of a host between points. -/
def pointed (host : List Char) : List (List Char) := Text.split '.' host

/-- Whether a host looks like four numbers. -/
def looksLikeNumbers (host : List Char) : Bool :=
  (pointed host).length == 4 && (pointed host).all fun cs => !cs.isEmpty && cs.all Char.isDigit

/-- A number below 256 without needless zeros. -/
def isOctet (cs : List Char) : Bool :=
  !cs.isEmpty && cs.all Char.isDigit && cs.length ≤ 3 && Numeral.value cs < 256 &&
    (cs.length == 1 || cs.head? != some '0')

def isFourNumbers (host : List Char) : Bool :=
  (pointed host).length == 4 && (pointed host).all isOctet

/-- One to four hexadecimal digits. -/
def isGroup (cs : List Char) : Bool :=
  !cs.isEmpty && cs.length ≤ 4 && cs.all fun c => (Text.Percent.hexValue? c).isSome

/-- The groups between colons; four numbers at the end count as two groups. -/
def groups? (cs : List Char) : Option (List (List Char)) :=
  let parts := Text.split ':' cs
  match parts.getLast? with
  | some last =>
    if last.contains '.' then
      if isFourNumbers last then some (parts.dropLast ++ [['0'], ['0']]) else none
    else some parts
  | none => none

/-- Groups on one side of the gap; at the end of the address there may be none. -/
def isSide (groups : List (List Char)) : Bool := groups == [[]] || groups.all isGroup

def sideLength (groups : List (List Char)) : Nat := if groups == [[]] then 0 else groups.length

/-- Eight groups, or fewer with a gap among them. -/
def isGroups (groups : List (List Char)) : Bool :=
  let front := groups.take 1 ++ (groups.drop 1).takeWhile (!·.isEmpty)
  let back := groups.drop (front.length + 1)
  if groups.length < 3 || 9 < groups.length then false
  else if back.isEmpty then groups.length == 8 && groups.all isGroup
  else isSide front && isSide back && sideLength front + sideLength back < 8

/-- An address in groups, and possibly a zone after a percent sign. -/
def isLongAddress (cs : List Char) : Bool :=
  let (address, zone) := Text.cut '%' cs
  let zoneIsGood := !cs.contains '%' || (!zone.isEmpty && !zone.contains '%')
  zoneIsGood && !cs.contains '/' && (groups? address).any isGroups

end OpenApi.Url
