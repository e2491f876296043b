import OpenApi.Url.Address
import OpenApi.Url.Name

/-
Addresses on the web, as far as it matters whether a request can be made.

An address names a host and possibly a port between its two slashes and the next mark.  A host is an
address in numbers or a name; a name in other letters than those of ASCII has to keep the rules for
such names.  What stands before the host and after it does not matter.
-/
namespace OpenApi.Url

/-- Longer addresses are refused. -/
def longest : Nat := 65536

def isControl (c : Char) : Bool := c.toNat < 32 || c.toNat == 127

/-- What stands between the two slashes of an address and the next mark. -/
def authority (url : List Char) : List Char :=
  let inner := (url.dropWhile (· != ':')).drop 3
  inner.takeWhile fun c => !(['/', '?', '#'].contains c)

/-- The text after the last sign of a class, or the whole text. -/
def afterLast (p : Char → Bool) (cs : List Char) : List Char :=
  (cs.reverse.takeWhile (!p ·)).reverse

/-- The host and the port of an address: a host in brackets may hold colons. -/
def hostAndPort (authority : List Char) : List Char × List Char :=
  let named := afterLast (· == '@') authority
  let bracketed := (named.reverse.dropWhile (· != ']')).reverse
  let host :=
    if named.head? == some '[' && !bracketed.isEmpty then bracketed
    else named.takeWhile (· != ':')
  let rest := named.drop host.length
  (host, if rest.head? == some ':' then rest.drop 1 else rest)

/-- A port is a number, if there is one. -/
def isPort (cs : List Char) : Bool := cs.isEmpty || (Numeral.signed? cs).isSome

inductive Fault where
  | invalid
  /-- It has a host whose name is written in ASCII for one that breaks the rules. -/
  | name (fault : NameFault)
  deriving DecidableEq, Repr

/-- Check a host.  A name in ASCII may be any, unless it begins as one that is written for
another. -/
def checkHost (host : List Char) : Except Fault Unit :=
  let lowered := Text.lowerChars false host
  if looksLikeNumbers host then if isFourNumbers host then .ok () else .error .invalid
  else if host.head? == some '[' && host.getLast? == some ']' then
    if isLongAddress (host.drop 1).dropLast then .ok () else .error .invalid
  else if !Name.isPlain host then
    if (Name.plain lowered).isOk then .ok () else .error .invalid
  else if Name.mark.isPrefixOf lowered then (Name.checkAll lowered).mapError .name
  else .ok ()

def check (url : String) : Except Fault Unit :=
  let cs := url.toList
  let (host, port) := hostAndPort (authority cs)
  if longest < cs.length || cs.any isControl || !isPort port then .error .invalid
  else checkHost host

end OpenApi.Url
