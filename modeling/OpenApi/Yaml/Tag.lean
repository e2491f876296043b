/-
What the nodes of a YAML text are meant as.
-/
namespace OpenApi.Yaml

inductive Tag where
  | null
  | bool
  | int
  | float
  | moment
  | text
  | bytes
  | list
  | map
  | set
  /-- A list of maps with one entry each. -/
  | orderedMap
  | pairs
  /-- The key of values that are merged into a map. -/
  | merge
  /-- The key of the value that a map stands for. -/
  | value
  /-- A tag without a meaning. -/
  | unknown
  deriving DecidableEq, Repr, Inhabited

/-- What the standard tags begin with. -/
def standardTags : String := "tag:yaml.org,2002:"

def knownTags : List (String × Tag) :=
  [("null", .null), ("bool", .bool), ("int", .int), ("float", .float), ("timestamp", .moment),
    ("str", .text), ("binary", .bytes), ("seq", .list), ("map", .map), ("set", .set),
    ("omap", .orderedMap), ("pairs", .pairs), ("merge", .merge), ("value", .value)]

namespace Tag

def ofName (name : String) : Tag :=
  ((knownTags.find? fun (known, _) => standardTags ++ known == name).map (·.2)).getD .unknown

/-- Tags of nodes that hold others: what is wrong inside them is found later than what is wrong
beside them. -/
def isCompound : Tag → Bool
  | .list | .map | .set | .orderedMap | .pairs => true
  | _ => false

end Tag
end OpenApi.Yaml
