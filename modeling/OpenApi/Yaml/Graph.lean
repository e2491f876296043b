import OpenApi.Yaml.Layout
import OpenApi.Yaml.Notation

/-
The nodes that the tokens of a YAML text describe.

An alias stands for a node that has been named before, or for one around it: the nodes of a text
form a graph, which may have cycles.  So they are numbered in the order in which they begin, and a
node that holds others holds their numbers.  Tags are resolved here.
-/
namespace OpenApi.Yaml

inductive Content where
  | text (s : String)
  | list (items : List Nat)
  | map (entries : List (Nat × Nat))
  deriving Inhabited

structure Vertex where
  tag : Tag
  content : Content
  deriving Inhabited

/-- The nodes of a text by their numbers. -/
abbrev Graph := Array Vertex

namespace Graph

def tagAt (g : Graph) (i : Nat) : Tag := (g[i]?.getD default).tag

def contentAt (g : Graph) (i : Nat) : Content := (g[i]?.getD default).content

def setTag (i : Nat) (tag : Tag) (g : Graph) : Graph := g.modify i ({ · with tag := tag })

def setContent (i : Nat) (content : Content) (g : Graph) : Graph :=
  g.modify i ({ · with content := content })

/-- The handles of tags and what they stand for. -/
abbrev Handles := List (String × String)

/-- Handles that need no directive. -/
def standardHandles : Handles := [("!", "!"), ("!!", standardTags)]

/-- Nodes that are nested deeper than this are refused. -/
def deepest : Nat := 480

/-- What has been read before a node: the handles of the document, its nodes so far, and the numbers
of those that have an anchor. -/
structure Context where
  handles : Handles
  nodes : Graph := #[]
  anchors : List (String × Nat) := []

/-- The state of the reading: the tokens that are left, and what is known. -/
abbrev Reading := StateT (List Token × Context) (Except Fault)

def fail : Reading α := throw .illFormed

/-- The next token, which stays where it is. -/
def peek : Reading (Option Token) := do
  match (← get).1 with
  | [] => return none
  | .broken fault :: _ => throw fault
  | token :: _ => return some token

def drop : Reading Unit := modify fun (tokens, context) => (tokens.drop 1, context)

/-- Take the next token if it is the given one, and tell whether it was. -/
def takeIf (token : Token) : Reading Bool := do
  if (← peek) == some token then
    drop
    return true
  else return false

/-- Take the next token, which has to be the given one. -/
def expect (token : Token) : Reading Unit := do
  unless ← takeIf token do fail

def nextIn (tokens : List Token) : Reading Bool := do
  match ← peek with
  | some token => return tokens.contains token
  | none => return false

def nameOf (name : TagName) : Reading String := do
  match name.handle with
  | none => return name.suffix
  | some handle =>
    match (← get).2.handles.find? (·.1 == handle) with
    | some (_, replacement) => return replacement ++ name.suffix
    | none => fail

def anchor? : Reading (Option String) := do
  match ← peek with
  | some (.anchor name) =>
    drop
    return some name
  | _ => return none

def tag? : Reading (Option TagName) := do
  match ← peek with
  | some (.tag name) =>
    drop
    return some name
  | _ => return none

/-- The anchor and the name of the tag of a node, in either order. -/
def properties : Reading (Option String × Option String) := do
  let before ← anchor?
  let tag ← tag?
  let anchor ← if before.isNone && tag.isSome then anchor? else pure before
  match tag with
  | none => return (anchor, none)
  | some name => return (anchor, some (← nameOf name))

def add (tag : Tag) (content : Content) : Reading Nat := do
  let (tokens, context) ← get
  let i := context.nodes.size
  set (tokens, { context with nodes := context.nodes.push ⟨tag, content⟩ })
  return i

/-- The node that an alias stands for. -/
def aliased (name : String) : Reading Nat := do
  match (← get).2.anchors.lookup name with
  | some i => return i
  | none => fail

/-- Give a node its anchor, if it has one. -/
def anchored (anchor : Option String) (i : Nat) : Reading Unit :=
  match anchor with
  | none => return ()
  | some name => modify fun (tokens, context) =>
      (tokens, { context with anchors := (name, i) :: context.anchors })

/-- No anchor is given twice. -/
def checkAnchor : Option String → Reading Unit
  | none => return ()
  | some name => do
    if ((← get).2.anchors.lookup name).isSome then fail

/-- The tag of a list or a map, which is the usual one if none is named. -/
def tagOr (usual : Tag) : Option String → Tag
  | none | some "!" => usual
  | some name => .ofName name

/-- The tag of a scalar.  The tag `!` asks for the meaning of a plain scalar. -/
def scalarTag (tag : Option String) (text : String) (isPlain : Bool) : Tag :=
  match tag with
  | some "!" => Notation.tagOf text
  | some name => .ofName name
  | none => if isPlain then Notation.tagOf text else .text

/-- A node that is left out. -/
def addEmpty : Reading Nat := add .null (.text "")

def addScalar (anchor tag : Option String) (text : String) (isPlain : Bool) : Reading Nat := do
  let i ← add (scalarTag tag text isPlain) (.text text)
  anchored anchor i
  return i

/-- Add a node that holds others, which are read when its number is known. -/
def addCompound (anchor : Option String) (tag : Tag) (start : Content)
    (inside : Reading Content) : Reading Nat := do
  let i ← add tag start
  anchored anchor i
  let content ← inside
  modify fun (tokens, context) =>
    (tokens, { context with nodes := setContent i content context.nodes })
  return i

/-- Where a node stands, which decides what it may be. -/
inductive Place where
  /-- Between brackets. -/
  | flow
  | block
  /-- After a key or a colon, where the items of a list need not be indented. -/
  | member
  deriving DecidableEq

/-- A node without content, which has to have a property. -/
def absent (anchor tag : Option String) : Reading Nat :=
  if anchor.isSome || tag.isSome then addScalar anchor tag "" true else fail

mutual

/-- The number of a node that is nested so many levels deep. -/
def node : (fuel : Nat) → (depth : Nat) → Place → Reading Nat
  | 0, _, _ => fail
  | fuel + 1, depth, place => do
    match ← peek with
    | some (.alias name) =>
      drop
      aliased name
    | _ =>
      let (anchor, tag) ← properties
      let _ ← peek
      checkAnchor anchor
      if depth > deepest then throw .endless
      content fuel (depth + 1) place anchor tag

/-- What stands after the properties of a node. -/
def content : (fuel : Nat) → (depth : Nat) → Place → (anchor tag : Option String) → Reading Nat
  | 0, _, _, _, _ => fail
  | fuel + 1, depth, place, anchor, tag => do
    let list (inside : Reading (List Nat)) :=
      addCompound anchor (tagOr .list tag) (.list []) (.list <$> inside)
    let map (inside : Reading (List (Nat × Nat))) :=
      addCompound anchor (tagOr .map tag) (.map []) (.map <$> inside)
    match ← peek with
    | some .item =>
      if place = .member then list (looseItems fuel depth) else absent anchor tag
    | some (.scalar text isPlain) =>
      drop
      addScalar anchor tag text isPlain
    | some .listOpen =>
      drop
      list (flowItems fuel depth true)
    | some .mapOpen =>
      drop
      map (flowEntries fuel depth true)
    | some .listIndent =>
      if place = .flow then absent anchor tag
      else
        drop
        list (blockItems fuel depth)
    | some .mapIndent =>
      if place = .flow then absent anchor tag
      else
        drop
        map (blockEntries fuel depth)
    | _ => absent anchor tag

/-- A node, or nothing if one of the given tokens stands here. -/
def nodeUnless : (fuel : Nat) → (depth : Nat) → Place → List Token → Reading Nat
  | 0, _, _, _ => fail
  | fuel + 1, depth, place, ends => do
    if ← nextIn ends then addEmpty else node fuel depth place

def blockItems : (fuel : Nat) → (depth : Nat) → Reading (List Nat)
  | 0, _ => fail
  | fuel + 1, depth => do
    if ← takeIf .item then
      let first ← nodeUnless fuel depth .block [.item, .dedent]
      return first :: (← blockItems fuel depth)
    else
      expect .dedent
      return []

/-- The items of a list that is indented as its parent is, and has no end of its own. -/
def looseItems : (fuel : Nat) → (depth : Nat) → Reading (List Nat)
  | 0, _ => fail
  | fuel + 1, depth => do
    if ← takeIf .item then
      let first ← nodeUnless fuel depth .block [.item, .key, .value, .dedent]
      return first :: (← looseItems fuel depth)
    else return []

def blockEntries : (fuel : Nat) → (depth : Nat) → Reading (List (Nat × Nat))
  | 0, _ => fail
  | fuel + 1, depth => do
    if ← takeIf .key then
      let key ← nodeUnless fuel depth .member [.key, .value, .dedent]
      let value ←
        if ← takeIf .value then nodeUnless fuel depth .member [.key, .value, .dedent]
        else addEmpty
      return (key, value) :: (← blockEntries fuel depth)
    else
      expect .dedent
      return []

/-- A key between brackets, after its mark, and its value. -/
def flowEntry : (fuel : Nat) → (depth : Nat) → (closing : Token) → Reading (Nat × Nat)
  | 0, _, _ => fail
  | fuel + 1, depth, closing => do
    let key ← nodeUnless fuel depth .flow [.value, .comma, closing]
    let value ←
      if ← takeIf .value then nodeUnless fuel depth .flow [.comma, closing] else addEmpty
    return (key, value)

/-- The items of a list between brackets; an entry of a map there is a map of its own. -/
def flowItems : (fuel : Nat) → (depth : Nat) → (isFirst : Bool) → Reading (List Nat)
  | 0, _, _ => fail
  | fuel + 1, depth, isFirst => do
    if ← takeIf .listClose then return []
    else
      unless isFirst do expect .comma
      if ← takeIf .listClose then return []
      else if ← takeIf .key then
        let entry := (fun e => Content.map [e]) <$> flowEntry fuel (depth + 1) .listClose
        let item ← addCompound none .map (.map []) entry
        return item :: (← flowItems fuel depth false)
      else
        let item ← node fuel depth .flow
        return item :: (← flowItems fuel depth false)

def flowEntries : (fuel : Nat) → (depth : Nat) → (isFirst : Bool) → Reading (List (Nat × Nat))
  | 0, _, _ => fail
  | fuel + 1, depth, isFirst => do
    if ← takeIf .mapClose then return []
    else
      unless isFirst do expect .comma
      if ← takeIf .mapClose then return []
      else if ← takeIf .key then
        let entry ← flowEntry fuel depth .mapClose
        return entry :: (← flowEntries fuel depth false)
      else
        let key ← node fuel depth .flow
        let value ← addEmpty
        return (key, value) :: (← flowEntries fuel depth false)

end

/-- The directives before a document, and the handles that they define. -/
def directives : (limit : Nat) → (versioned : Bool) → Handles → Reading Handles
  | 0, _, handles => return handles
  | limit + 1, versioned, handles => do
    match ← peek with
    | some (.directive d) =>
      drop
      match d with
      | .version major =>
        if versioned || major != 1 then fail else directives limit true handles
      | .tag handle replacement =>
        if handles.any (·.1 == handle) then fail
        else directives limit versioned ((handle, replacement) :: handles)
      | .other => directives limit versioned handles
    | _ => return handles

/-- The directives before a document, and the mark of its beginning. -/
def beginning (limit : Nat) : Reading Handles := do
  let handles ← directives limit false []
  expect .documentStart
  return handles

/-- Skip the markers at the end of a document. -/
def skipEnds : (limit : Nat) → Reading Unit
  | 0 => return ()
  | limit + 1 => do
    if ← takeIf .documentEnd then skipEnds limit

/-- The node of a document whose beginning is marked; it may be left out. -/
def marked (limit : Nat) : Reading Nat := do
  let handles ← beginning limit
  modify fun (tokens, _) => (tokens, { handles := handles ++ standardHandles })
  match ← peek with
  | none | some (.directive _) | some .documentStart | some .documentEnd => addEmpty
  | some _ => node limit 1 .block

/-- The root of the document of a text, if there is one; there may not be a second. -/
def document (limit : Nat) : Reading (Option Nat) := do
  let root ← match ← peek with
    | none => pure none
    | some (.directive _) | some .documentStart => some <$> marked limit
    | some _ => some <$> node limit 1 .block
  skipEnds limit
  if (← peek).isSome then
    let _ ← beginning limit
    fail
  else return root

/-- The nodes that a list of tokens describes and the number of the root, if there is a document.
Reading a node takes at most four steps for each of its tokens. -/
def ofTokens? (tokens : List Token) : Except Fault (Graph × Option Nat) :=
  match document (4 * tokens.length + 8) (tokens, { handles := standardHandles }) with
  | .ok (root, _, context) => .ok (context.nodes, root)
  | .error fault => .error fault

end Graph
end OpenApi.Yaml
