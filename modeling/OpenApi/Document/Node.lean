import OpenApi.Document.Moment

/-
A description as a tree of plain values.

Maps keep their entries in the order of the description, because the order of what is built from
them follows it.  A key is a scalar: JSON has text keys only, but in YAML an unquoted key may be a
number, a truth value or a date.

A description in YAML may contain itself.  It is unfolded to a tree as far as anyone looks, and what
lies deeper is left out (`Node.endless`).
-/
namespace OpenApi

/-- A value without parts. -/
inductive Scalar where
  | null
  | bool (b : Bool)
  | int (n : Int)
  | float (x : Double)
  | str (s : String)
  | moment (m : Moment)
  | bytes (bs : List UInt8)
  deriving DecidableEq, Inhabited

inductive Node where
  | scalar (s : Scalar)
  | list (items : List Node)
  | map (entries : List (Scalar × Node))
  | set (members : List Scalar)
  /-- An entry of a map that is an item of a list. -/
  | pair (first second : Node)
  /-- What lies too deep in a value that contains itself. -/
  | endless
  deriving Inhabited

/-- The entries of a map, in order. -/
abbrev Entries := List (Scalar × Node)

namespace Scalar

/-- The number that a scalar counts as; truth values count as one and zero. -/
def number? : Scalar → Option Number
  | .bool b => some (.int (if b then 1 else 0))
  | .int n => some (.int n)
  | .float x => some (.float x)
  | _ => none

/-- Equality of numbers, whatever their notation. -/
def sameNumber : Number → Number → Bool
  | .int m, .int n => m == n
  | .int m, .float x => x.equalsInt m
  | .float x, .int n => x.equalsInt n
  | .float x, .float y => x.equals y || (x == .nan && y == .nan)

/-- Whether two scalars are the same key: numbers and truth values are compared as numbers. -/
def same (a b : Scalar) : Bool :=
  match a, b with
  | .null, .null => true
  | .str s, .str t => s == t
  | .moment m, .moment n => m.same n
  | .bytes m, .bytes n => m == n
  | a, b =>
    match a.number?, b.number? with
    | some m, some n => sameNumber m n
    | _, _ => false

end Scalar

namespace Entries

/-- The value at the first entry whose key is the given scalar. -/
def find? (key : Scalar) : Entries → Option Node
  | [] => none
  | (k, v) :: rest => if k.same key then some v else find? key rest

def get? (key : String) : Entries → Option Node
  | [] => none
  | (k, v) :: rest => if k = .str key then some v else get? key rest

/-- Set the value at a key: in place if the map has the key, else at the end.  The spelling of a
key stays that of its first occurrence. -/
def insert (key : Scalar) (value : Node) : Entries → Entries
  | [] => [(key, value)]
  | (k, v) :: rest => if k.same key then (k, value) :: rest else (k, v) :: insert key value rest

/-- The entries in the order given, each key once, with its last value. -/
def ofList (entries : List (Scalar × Node)) : Entries :=
  entries.foldl (fun done (k, v) => insert k v done) []

theorem get?_cons_self (key : String) (v : Node) (rest : Entries) :
    get? key ((.str key, v) :: rest) = some v := by simp [get?]

end Entries

namespace Node

@[match_pattern] abbrev null : Node := .scalar .null
@[match_pattern] abbrev bool (b : Bool) : Node := .scalar (.bool b)
@[match_pattern] abbrev int (n : Int) : Node := .scalar (.int n)
@[match_pattern] abbrev float (x : Double) : Node := .scalar (.float x)
@[match_pattern] abbrev str (s : String) : Node := .scalar (.str s)

/-- The value of a member of a map; nothing for other values. -/
def get? (key : String) : Node → Option Node
  | .map entries => Entries.get? key entries
  | _ => none

/-- The value of a member, null if there is none. -/
def get (key : String) (node : Node) : Node := (node.get? key).getD .null

/-- Whether the value is a map with the given member. -/
def has (key : String) (node : Node) : Bool := (node.get? key).isSome

theorem get?_eq_none_of_not_has {key : String} {node : Node} (h : (!node.has key) = true) :
    node.get? key = none := by
  rwa [Bool.not_eq_true', has, Option.isSome_eq_false_iff, Option.isNone_iff_eq_none] at h

theorem get?_of_get {key : String} {node value : Node} (h : node.get key = value)
    (hvalue : value ≠ .null) : node.get? key = some value := by
  subst h
  cases hfound : node.get? key with
  | none =>
    rw [get, hfound] at hvalue
    exact absurd rfl hvalue
  | some found =>
    rw [get, hfound]
    rfl

def entries? : Node → Option Entries
  | .map entries => some entries
  | _ => none

theorem eq_map_of_entries? {node : Node} {entries : Entries} (h : node.entries? = some entries) :
    node = .map entries := by
  cases node with
  | map _ => exact congrArg map (Option.some.inj h)
  | _ => cases h

def items? : Node → Option (List Node)
  | .list items => some items
  | _ => none

def str? : Node → Option String
  | .str s => some s
  | _ => none

/-- Whether the value is a map; what lies too deep may always be one. -/
def isMap : Node → Bool
  | .map _ => true
  | .endless => true
  | _ => false

/-- What a value consists of when it is gone through: the items of a list or a set, the keys of a
map, the characters of a text. -/
def parts? : Node → Option (List Node)
  | .list items => some items
  | .map entries => some (entries.map fun (key, _) => .scalar key)
  | .set members => some (members.map .scalar)
  | .pair first second => some [first, second]
  | .str s => some (s.toList.map fun c => .str (String.singleton c))
  | _ => none

/-- Whether the value is the truth value `true` itself. -/
def isTrue : Node → Bool
  | .bool true => true
  | _ => false

def isNull : Node → Bool
  | .null => true
  | _ => false

def isText (s : String) : Node → Bool
  | .str t => s == t
  | _ => false

/-- A text that is not empty. -/
def text? : Node → Option String
  | .str s => if s.isEmpty then none else some s
  | _ => none

/-- Whether a value counts as present: null, false, zero and all that is empty do not. -/
def isTruthy : Node → Bool
  | .null => false
  | .bool b => b
  | .int n => n != 0
  | .float x => !x.equalsInt 0
  | .str s => !s.isEmpty
  | .scalar (.moment _) => true
  | .scalar (.bytes bs) => !bs.isEmpty
  | .list items => !items.isEmpty
  | .map entries => !entries.isEmpty
  | .set members => !members.isEmpty
  | .pair .. => true
  | .endless => true

def listHas (s : String) (items : List Node) : Bool := items.any (isText s)

mutual

/-- Equality of values: maps whatever the order of their entries, numbers whatever their
notation. -/
def same : Node → Node → Bool
  | .scalar s, .scalar t => s.same t
  | .list xs, .list ys => sameItems xs ys
  | .map xs, .map ys => xs.length == ys.length && sameEntries xs ys
  | .set xs, .set ys => xs.length == ys.length && xs.all fun x => ys.any x.same
  | .pair x y, .pair z w => x.same z && y.same w
  | _, _ => false

def sameItems : List Node → List Node → Bool
  | [], [] => true
  | x :: xs, y :: ys => x.same y && sameItems xs ys
  | _, _ => false

def sameEntries : Entries → Entries → Bool
  | [], _ => true
  | (k, v) :: rest, ys =>
    (match Entries.find? k ys with
      | some w => v.same w
      | none => false) && sameEntries rest ys

end

mutual

/-- The number of values in a tree. -/
def size : Node → Nat
  | .scalar _ => 1
  | .list items => 1 + sizeItems items
  | .map entries => 1 + sizeEntries entries
  | .set _ => 1
  | .pair x y => 1 + x.size + y.size
  | .endless => 1

def sizeItems : List Node → Nat
  | [] => 0
  | x :: xs => x.size + sizeItems xs

def sizeEntries : Entries → Nat
  | [] => 0
  | (_, v) :: rest => v.size + sizeEntries rest

end

mutual

/-- Whether something in a value lies too deep to be known. -/
def isEndless : Node → Bool
  | .list items => someEndless items
  | .map entries => someEntryEndless entries
  | .pair x y => x.isEndless || y.isEndless
  | .endless => true
  | _ => false

def someEndless : List Node → Bool
  | [] => false
  | x :: xs => x.isEndless || someEndless xs

def someEntryEndless : Entries → Bool
  | [] => false
  | (_, v) :: rest => v.isEndless || someEntryEndless rest

end

/-- The kinds of values, as far as messages and comparisons tell them apart. -/
inductive Kind where
  | null
  | bool
  | int
  | float
  | str
  | date
  | time
  | bytes
  | list
  | map
  | set
  | pair
  deriving DecidableEq, Repr

def kind : Node → Kind
  | .null => .null
  | .bool _ => .bool
  | .int _ => .int
  | .float _ => .float
  | .str _ => .str
  | .scalar (.moment (.day _)) => .date
  | .scalar (.moment (.time ..)) => .time
  | .scalar (.bytes _) => .bytes
  | .list _ => .list
  | .map _ => .map
  | .set _ => .set
  | .pair .. => .pair
  | .endless => .map

theorem exists_text_of_kind {node : Node} (h : node.kind = .str) : ∃ text, node = .str text := by
  unfold kind at h
  split at h
  case h_5 text => exact ⟨text, rfl⟩
  all_goals cases h

def Kind.name : Kind → String
  | .null => "NoneType"
  | .bool => "bool"
  | .int => "int"
  | .float => "float"
  | .str => "str"
  | .date => "date"
  | .time => "datetime"
  | .bytes => "bytes"
  | .list => "list"
  | .map => "dict"
  | .set => "set"
  | .pair => "tuple"

theorem size_pos (node : Node) : 0 < node.size := by
  cases node <;> simp only [size] <;> omega

theorem size_lt_of_get?_entries {key : String} {v : Node} :
    ∀ {entries : Entries}, Entries.get? key entries = some v → v.size ≤ sizeEntries entries
  | [], h => by simp [Entries.get?] at h
  | (k, w) :: rest, h => by
    simp only [Entries.get?] at h
    split at h
    · cases h
      simp only [sizeEntries]
      omega
    · have := size_lt_of_get?_entries h
      simp only [sizeEntries]
      omega

theorem size_lt_of_get? {key : String} {node v : Node} (h : node.get? key = some v) :
    v.size < node.size := by
  cases node with
  | map entries =>
    have := size_lt_of_get?_entries h
    simp only [size]
    omega
  | _ => simp [get?] at h

theorem size_le_of_mem {items : List Node} {v : Node} (h : v ∈ items) :
    v.size ≤ sizeItems items := by
  induction items with
  | nil => cases h
  | cons x xs ih =>
    simp only [sizeItems]
    rcases List.mem_cons.mp h with rfl | h
    · omega
    · have := ih h
      omega

end Node
end OpenApi
