/-
Bytes written with 64 characters, three bytes for each four characters.

Reading is lenient: characters outside the alphabet are skipped.  Padding ends the text where a
group of four is filled up by it, and is skipped elsewhere.
-/
namespace OpenApi.Text.Base64

/-- The six bits that a character stands for. -/
def sextet? (c : Char) : Option Nat :=
  if 'A' ≤ c ∧ c ≤ 'Z' then some (c.toNat - 'A'.toNat)
  else if 'a' ≤ c ∧ c ≤ 'z' then some (c.toNat - 'a'.toNat + 26)
  else if '0' ≤ c ∧ c ≤ '9' then some (c.toNat - '0'.toNat + 52)
  else if c = '+' then some 62
  else if c = '/' then some 63
  else none

/-- The characters of a text that count, group by group: `group` holds those of the group that is
not full yet, and `pads` is the number of padding characters since the last of them. -/
def groups? (group : List Nat) (pads : Nat) : List Char → Option (List (List Nat))
  | [] => if group.isEmpty then some [] else none
  | '=' :: rest =>
    if 2 ≤ group.length then
      if 4 ≤ group.length + pads + 1 then some [group] else groups? group (pads + 1) rest
    else groups? group pads rest
  | c :: rest =>
    match sextet? c with
    | none => groups? group pads rest
    | some bits =>
      if group.length = 3 then (groups? [] 0 rest).map ((group ++ [bits]) :: ·)
      else groups? (group ++ [bits]) 0 rest

/-- The bytes of a group, one less than it has characters. -/
def groupBytes : List Nat → List UInt8
  | a :: b :: rest => UInt8.ofNat (a * 4 + b / 16) ::
    match rest with
    | [] => []
    | c :: rest => UInt8.ofNat (b % 16 * 16 + c / 4) ::
      match rest with
      | [] => []
      | d :: _ => [UInt8.ofNat (c % 4 * 64 + d)]
  | _ => []

/-- The bytes of a text, unless its last group is neither full nor filled up. -/
def decode? (cs : List Char) : Option (List UInt8) :=
  (groups? [] 0 cs).map (·.flatMap groupBytes)

end OpenApi.Text.Base64
