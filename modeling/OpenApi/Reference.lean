import OpenApi.Failure
import OpenApi.Number.Numeral
import OpenApi.Text.Percent
import OpenApi.Text.Replace

/-
References within a description.

A reference is `#/` followed by segments with slashes between them.  Each segment names a key of a
map or an index of a list, and the reference stands for the value that they lead to from the root.
A slash in a key is written `~1`, a tilde `~0`, and other characters may be percent-escaped.

References are not followed while a description is read; they are looked up when the value behind
them is needed.
-/
namespace OpenApi.Reference

/-- The key or index that a segment writes. -/
def decode (cs : List Char) : List Char :=
  Text.Percent.decode
    (Text.replace ['~', '0'] ['~'] (Text.replace ['~', '1'] ['/'] cs))

def segmentKey (segment : String) : String := String.ofList (decode segment.toList)

/-- The segments of a reference, decoded; nothing if the reference does not begin with `#/`.  Empty
segments lead nowhere else and are left out. -/
def segments? (ref : String) : Option (List String) :=
  match ref.toList with
  | '#' :: '/' :: rest =>
    some (((Text.split '/' rest).filter (!·.isEmpty)).map fun cs => String.ofList (decode cs))
  | _ => none

/-- The item at an index, counted from the end if the index is negative. -/
def item? (items : List Node) (index : Int) : Option Node :=
  if index < 0 then
    if index.natAbs ≤ items.length then items[items.length - index.natAbs]? else none
  else items[index.toNat]?

theorem item?_map (f : Node → Node) (items : List Node) (index : Int) :
    item? (items.map f) index = (item? items index).map f := by
  unfold item?
  rw [List.length_map]
  by_cases hneg : index < 0
  · rw [if_pos hneg, if_pos hneg]
    by_cases hlong : index.natAbs ≤ items.length
    · rw [if_pos hlong, if_pos hlong, List.getElem?_map]
    · rw [if_neg hlong, if_neg hlong, Option.map_none]
  · rw [if_neg hneg, if_neg hneg, List.getElem?_map]

/-- One step down from a value. -/
def step (node : Node) (segment : String) : Except PointerFault Node :=
  match node with
  | .map entries =>
    match Entries.get? segment entries with
    | some value => .ok value
    | none => .error (.missingKey segment)
  | .list items =>
    match (Numeral.signed? segment.toList).bind (item? items) with
    | some value => .ok value
    | none => .error (.badIndex segment)
  | other => .error (.leaf other.kind)

/-- The value that the segments lead to. -/
def walk (node : Node) : List String → Except PointerFault Node
  | [] => .ok node
  | segment :: rest =>
    match step node segment with
    | .ok next => walk next rest
    | .error fault => .error fault

/-- The value in `document` that a reference stands for. -/
def resolve (document : Node) (ref : Node) : Except Failure Node :=
  match ref with
  | .str s =>
    match segments? s with
    | some segments =>
      match walk document segments with
      | .ok node => .ok node
      | .error fault => .error (.unresolvable s fault)
    | none => .error (.unresolvable s .external)
  | other => other.written.bind fun text => .error (.unresolvable text .external)

/-- A value that is no text is no reference that leads anywhere. -/
theorem exists_resolve_eq_error {ref : Node} (h : ref.kind ≠ .str) (document : Node) :
    ∃ failure, resolve document ref = .error failure := by
  unfold resolve
  split
  · exact absurd rfl h
  · cases ref.written with
    | ok text => exact ⟨_, rfl⟩
    | error failure => exact ⟨failure, rfl⟩

/-- The target of a reference object; any other value stands for itself. -/
def target (document : Node) (node : Node) : Except Failure Node :=
  match node.get? "$ref" with
  | some ref => resolve document ref
  | none => .ok node

theorem target_of_get?_eq_none {document node : Node} (h : node.get? "$ref" = none) :
    target document node = .ok node := by rw [target, h]

theorem walk_append (node : Node) (front back : List String) :
    walk node (front ++ back) =
      match walk node front with
      | .ok next => walk next back
      | .error fault => .error fault := by
  induction front generalizing node with
  | nil => rfl
  | cons segment rest ih =>
    simp only [List.cons_append, walk]
    cases step node segment with
    | ok next => exact ih next
    | error fault => rfl

end OpenApi.Reference
