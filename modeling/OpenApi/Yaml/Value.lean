import OpenApi.Document.Node
import OpenApi.Yaml.Merge
import OpenApi.Yaml.Scalar

/-
What the nodes of a YAML text stand for.

Scalars have their value as soon as they are met.  What lists and maps hold is found in the order in
which they are met, level by level from the root, so that of several nodes without a value the one
nearest to the root is reported.  A key has to be a scalar, since lists, maps and sets change and
cannot be looked up.
-/
namespace OpenApi.Yaml

/-- What a node stands for; the parts of a list or a map are given by their numbers. -/
inductive Meaning where
  | scalar (s : Scalar)
  | list (items : List Nat)
  | map (entries : List (Scalar × Nat))
  | set (members : List Scalar)
  | pairs (items : List (Nat × Nat))
  /-- It holds others, which have not been looked at. -/
  | pending
  deriving Inhabited

/-- The nodes of a text, and what those stand for that have been met. -/
structure Meanings where
  graph : Graph
  /-- The number of rounds that are enough for merging.  It holds for the graph as it was read, and
  merging adds nothing that asks for more rounds. -/
  mergeLimit : Nat
  known : Array (Option Meaning)
  /-- The pending nodes, last one first. -/
  waiting : List Nat := []

namespace Graph

/-- The text of a scalar.  A map may stand for a text, too: that of its entry for the value. -/
def textAt (g : Graph) : (fuel : Nat) → (i : Nat) → Except Fault String
  | 0, _ => .error .endless
  | fuel + 1, i =>
    match g.contentAt i with
    | .text s => .ok s
    | .list _ => .error .illFormed
    | .map entries =>
      match entries.find? fun (key, _) => g.tagAt key = .value with
      | some (_, source) => textAt g fuel source
      | none => .error .illFormed

def scalarAt (g : Graph) (i : Nat) : Except Fault Scalar := do
  let tag := g.tagAt i
  if [Tag.merge, Tag.value, Tag.unknown].contains tag then throw .illFormed
  let text ← g.textAt (g.size + 1) i
  if tag = .moment && g.isMapAt i then throw .compoundMoment
  scalarValue tag text

/-- Whether two nodes are the same key.  What is no number is the same key as itself only. -/
def sameKey (g : Graph) (a b : Nat × Scalar) : Bool :=
  match a.2, b.2 with
  | .float .nan, .float .nan =>
    let isWord (i : Nat) : Bool := match g.textAt (g.size + 1) i with
      | .ok text => isNanWord text
      | .error _ => false
    a.1 == b.1 || (isWord a.1 && isWord b.1)
  | s, t => s.same t

/-- Set the value at a key: in place if the key is there, else at the end. -/
def insertKey (g : Graph) (key : Nat × Scalar) (value : Nat) :
    List ((Nat × Scalar) × Nat) → List ((Nat × Scalar) × Nat)
  | [] => [(key, value)]
  | (k, v) :: rest =>
    if g.sameKey k key then (k, value) :: rest else (k, v) :: insertKey g key value rest

end Graph

namespace Meanings

/-- Meet a node: find its value if it is a scalar, else have it wait. -/
def meet (m : Meanings) (i : Nat) : Except Fault Meanings :=
  if (m.known[i]?.getD none).isSome then .ok m
  else if (m.graph.tagAt i).isCompound then
    .ok { m with known := m.known.setIfInBounds i (some .pending), waiting := i :: m.waiting }
  else
    (m.graph.scalarAt i).map fun s =>
      { m with known := m.known.setIfInBounds i (some (.scalar s)) }

/-- Meet the key and the value of an entry. -/
def meetPair (m : Meanings) (entry : Nat × Nat) : Except Fault Meanings := do
  (← m.meet entry.1).meet entry.2

/-- Meet an entry of a map, after others. -/
def meetEntry (state : Meanings × List ((Nat × Scalar) × Nat)) (entry : Nat × Nat) :
    Except Fault (Meanings × List ((Nat × Scalar) × Nat)) := do
  let m ← state.1.meet entry.1
  match m.known[entry.1]?.getD none with
  | some (.scalar s) =>
    let entries := m.graph.insertKey (entry.1, s) entry.2 state.2
    return (← m.meet entry.2, entries)
  | _ => throw .illFormed

/-- Meet the entries of a map, with those that are merged into it. -/
def meetEntries (m : Meanings) (i : Nat) : Except Fault (Meanings × List (Scalar × Nat)) := do
  if !m.graph.isMapAt i then throw .illFormed
  let graph ← Graph.merge m.mergeLimit i m.graph
  let (m, entries) ← (graph.entriesAt i).foldlM meetEntry ({ m with graph := graph }, [])
  return (m, entries.map fun ((_, s), value) => (s, value))

/-- The items of a list, which other nodes do not have. -/
def itemsAt (m : Meanings) (i : Nat) : Except Fault (List Nat) :=
  match m.graph.contentAt i with
  | .list items => .ok items
  | _ => .error .illFormed

/-- Meet the only entry of an item, after others. -/
def meetItem (state : Meanings × List (Nat × Nat)) (item : Nat) :
    Except Fault (Meanings × List (Nat × Nat)) :=
  match state.1.graph.entriesAt item with
  | [entry] => (state.1.meetPair entry).map fun m => (m, state.2 ++ [entry])
  | _ => .error .illFormed

/-- What a node that waits stands for, and the nodes that are met on the way. -/
def look (m : Meanings) (i : Nat) : Except Fault (Meanings × Meaning) :=
  match m.graph.tagAt i with
  | .list => do
    let items ← m.itemsAt i
    return (← items.foldlM meet m, .list items)
  | .orderedMap | .pairs => do
    let (m, items) ← (← m.itemsAt i).foldlM meetItem (m, [])
    return (m, .pairs items)
  | .set => do
    let (m, entries) ← m.meetEntries i
    return (m, .set (entries.map (·.1)))
  | _ => do
    let (m, entries) ← m.meetEntries i
    return (m, .map entries)

/-- Look at a node that waits. -/
def settle (m : Meanings) (i : Nat) : Except Fault Meanings := do
  let (m, meaning) ← m.look i
  return { m with known := m.known.setIfInBounds i (some meaning) }

/-- Look at the nodes that wait, and at those that are met then.  Each round is one level. -/
def settleAll : (rounds : Nat) → Meanings → Except Fault Meanings
  | 0, m => .ok m
  | rounds + 1, m =>
    if m.waiting.isEmpty then .ok m
    else do
      settleAll rounds (← m.waiting.reverse.foldlM settle { m with waiting := [] })

end Meanings

/-- What the nodes of a text stand for that can be reached from the root. -/
def Graph.meanings (g : Graph) (root : Nat) : Except Fault (Array (Option Meaning)) := do
  let empty : Meanings :=
    { graph := g, mergeLimit := g.mergeLimit, known := Array.replicate g.size none }
  let start ← empty.meet root
  return (← start.settleAll (g.size + 1)).known

/-! ### The tree -/

/-- The value that has been found for a node, if it has been. -/
def valueAt (values : Array (Option Node)) (i : Nat) : Option Node := values[i]?.getD none

def pairAt (values : Array (Option Node)) (item : Nat × Nat) : Option Node :=
  match valueAt values item.1, valueAt values item.2 with
  | some first, some second => some (.pair first second)
  | _, _ => none

def entryAt (values : Array (Option Node)) (entry : Scalar × Nat) : Option (Scalar × Node) :=
  (valueAt values entry.2).map fun value => (entry.1, value)

/-- The value of a node whose parts have values; nothing if one of them has none. -/
def Meaning.node? (values : Array (Option Node)) : Meaning → Option Node
  | .scalar s => some (.scalar s)
  | .list items => (items.mapM (valueAt values)).map .list
  | .map entries => (entries.mapM (entryAt values)).map .map
  | .set members => some (.set members)
  | .pairs items => (items.mapM (pairAt values)).map .list
  | .pending => none

/-- Find the values of the nodes below a number that have none yet, the last node first. -/
def fill (meanings : Array (Option Meaning)) : Nat → Array (Option Node) → Array (Option Node)
  | 0, values => values
  | i + 1, values =>
    fill meanings i <|
      match valueAt values i, meanings[i]?.getD none with
      | none, some meaning =>
        match meaning.node? values with
        | some node => values.setIfInBounds i (some node)
        | none => values
      | _, _ => values

/-- The values of all nodes that do not contain themselves, and of those below them. -/
def fillAll (meanings : Array (Option Meaning)) (root : Nat) :
    (rounds : Nat) → Array (Option Node) → Array (Option Node)
  | 0, values => values
  | rounds + 1, values =>
    if (valueAt values root).isSome then values
    else
      let next := fill meanings meanings.size values
      if next.countP Option.isSome = values.countP Option.isSome then next
      else fillAll meanings root rounds next

/-- Unfold the nodes without a value by one level. -/
def deepen (meanings : Array (Option Meaning)) (values : Array (Option Node))
    (unfolded : Array (Option Node)) : Array (Option Node) :=
  meanings.mapIdx fun i meaning =>
    match valueAt values i with
    | some node => some node
    | none => meaning.bind (·.node? unfolded)

/-- A value that contains itself is unfolded so many levels deep. -/
def unfolding : Nat := 1000

def treeOf (meanings : Array (Option Meaning)) (root : Nat) : Node :=
  let values := fillAll meanings root (meanings.size + 1) (meanings.map fun _ => none)
  match valueAt values root with
  | some node => node
  | none =>
    let start := values.map fun value => some (value.getD .endless)
    let unfolded := unfolding.repeat (deepen meanings values) start
    (valueAt unfolded root).getD .endless

/-- The document that a YAML text holds; null if it holds none. -/
def read (cs : List Char) : Except Fault Node := do
  let (graph, root) ← Graph.ofTokens? (tokens cs)
  match root with
  | none => return .null
  | some root => return treeOf (← graph.meanings root) root

end OpenApi.Yaml
