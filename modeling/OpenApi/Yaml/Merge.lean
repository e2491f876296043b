import OpenApi.Yaml.Graph

/-
Merging maps into others.

A map may have entries whose key asks for the entries of another map, or of a list of maps.  They
are put before its own entries, which therefore have the last word; of the maps in a list the first
ones count most and come last.  Merging changes the graph: a map that is merged into others has been
merged itself before.
-/
namespace OpenApi.Yaml.Graph

/-- The entries of a map; none of other nodes. -/
def entriesAt (g : Graph) (i : Nat) : List (Nat × Nat) :=
  match g.contentAt i with
  | .map entries => entries
  | _ => []

def isMapAt (g : Graph) (i : Nat) : Bool :=
  match g.contentAt i with
  | .map _ => true
  | _ => false

def setEntries (i : Nat) (entries : List (Nat × Nat)) (g : Graph) : Graph :=
  g.setContent i (.map entries)

/-- Take the first entry that asks for other entries from a list of entries. -/
def takeMerge? (g : Graph) : List (Nat × Nat) → Option (Nat × List (Nat × Nat))
  | [] => none
  | (key, source) :: rest =>
    if g.tagAt key = .merge then some (source, rest)
    else (takeMerge? g rest).map fun (found, others) => (found, (key, source) :: others)

/-- The sign for the value of a map is a text where the map stands for its entries. -/
def spellOutKeys (entries : List (Nat × Nat)) (g : Graph) : Graph :=
  entries.foldl (fun g (key, _) => if g.tagAt key = .value then g.setTag key .text else g) g

def entryCount (g : Graph) : Nat :=
  g.foldl (fun n vertex => match vertex.content with
    | .map entries => n + entries.length
    | _ => n) 0

def itemCount (g : Graph) : Nat :=
  g.foldl (fun n vertex => match vertex.content with
    | .list items => n + items.length
    | _ => n) 0

/-- The maps that a node stands for in the place of a source. -/
def sources (g : Graph) (source : Nat) : Option (List Nat) :=
  match g.contentAt source with
  | .map _ => some [source]
  | .list items => some items
  | .text _ => none

mutual

/-- The graph in which a map holds what it asks for.  Each round takes an entry that asks from some
map, and goes through one list at most.  No entry of this kind is ever added, which bounds the
rounds. -/
def merge : (fuel : Nat) → (map : Nat) → Graph → Except Fault Graph
  | 0, _, _ => .error .endless
  | fuel + 1, map, g => gather fuel map [] g

/-- Find the entries that a map asks for, after those found so far. -/
def gather : (fuel : Nat) → (map : Nat) → (found : List (Nat × Nat)) → Graph → Except Fault Graph
  | 0, _, _, _ => .error .endless
  | fuel + 1, map, found, g =>
    let own := g.entriesAt map
    match g.takeMerge? own with
    | none =>
      let g := g.spellOutKeys own
      .ok (if found.isEmpty then g else g.setEntries map (found ++ own))
    | some (source, rest) =>
      match g.sources source with
      | none => .error .illFormed
      | some maps =>
        match mergeAll fuel maps (g.setEntries map rest) with
        | .error fault => .error fault
        | .ok (more, g) => gather fuel map (found ++ more) g

/-- The entries of maps that are asked for, the last map first. -/
def mergeAll : (fuel : Nat) → (maps : List Nat) → Graph →
    Except Fault (List (Nat × Nat) × Graph)
  | 0, _, _ => .error .endless
  | _, [], g => .ok ([], g)
  | fuel + 1, map :: rest, g =>
    if !g.isMapAt map then .error .illFormed
    else
      match merge fuel map g with
      | .error fault => .error fault
      | .ok g =>
        let own := g.entriesAt map
        match mergeAll fuel rest g with
        | .error fault => .error fault
        | .ok (later, g) => .ok (later ++ own, g)

end

/-- The number of rounds that are enough for merging in a graph. -/
def mergeLimit (g : Graph) : Nat := (g.entryCount + 1) * (g.itemCount + 4)

end OpenApi.Yaml.Graph
