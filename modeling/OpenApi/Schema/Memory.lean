import OpenApi.Schema.Build

/-
Building models one after the other, with a memory.

Many models are built from one description, and much of what they need is the same: the targets of
references, and the discriminators of definitions.  Both are looked up once and remembered.  The
memory also holds the references that are just being followed.  They are taken out again when what
they lead to has been built, or has failed.

A request that fails leaves the memory as it is at that moment, and the next one goes on with it.

Building goes down to a depth that is computed from the description and the schema.  It follows no
reference that it is following already, so nothing lies deeper.
-/
namespace OpenApi.Schema

/-- What is kept from one request to the next. -/
structure Memory where
  /-- The references that are being followed, the last one first. -/
  following : List String := []
  /-- The references that have been looked up, with their targets. -/
  targets : List (String × Node) := []
  /-- The names whose discriminators have been looked for, with what was found. -/
  discriminators : List (String × Option Node) := []

namespace Memory

def keepTarget (ref : String) (target : Node) (memory : Memory) : Memory :=
  { memory with targets := (ref, target) :: memory.targets }

def keepDiscriminator (name : String) (found : Option Node) (memory : Memory) : Memory :=
  { memory with discriminators := (name, found) :: memory.discriminators }

def follow (ref : String) (memory : Memory) : Memory :=
  { memory with following := ref :: memory.following }

/-- Without the reference that was followed last. -/
def unfollow (memory : Memory) : Memory := { memory with following := memory.following.tail }

end Memory

/-- A computation with a memory, which it leaves behind even if it fails. -/
abbrev Remembering (α : Type) := ExceptT Failure (StateM Memory) α

namespace Remembering

def plainly {α : Type} (outcome : Except Failure α) : Remembering α := ExceptT.mk (pure outcome)

/-- What a reference stands for.  Only what is found is remembered. -/
def resolve (scope : Scope) (ref : Node) : Remembering Node :=
  match ref with
  | .str s => do
    match (← get).targets.lookup s with
    | some target => return target
    | none =>
      let target ← plainly (Reference.resolve scope.document (.str s))
      modify (Memory.keepTarget s target)
      return target
  | other => plainly (Reference.resolve scope.document other)

def target (scope : Scope) (node : Node) : Remembering Node :=
  match node.get? "$ref" with
  | some ref => resolve scope ref
  | none => return node

def discriminator? (scope : Scope) (name : String) : Remembering (Option Node) := do
  match (← get).discriminators.lookup name with
  | some found => return found
  | none =>
    let found := scope.discriminator? name
    modify (Memory.keepDiscriminator name found)
    return found

/-- Do something while a reference is being followed. -/
def whileFollowing {α : Type} (ref : String) (action : Remembering α) : Remembering α :=
  fun memory =>
    let (outcome, after) := action (memory.follow ref)
    (outcome, after.unfollow)

section
variable (scope : Scope) (build : Node → Remembering Model)

def element (node : Node) : Remembering (Model × Option Model) :=
  match node.get? "$ref" with
  | some ref => do
    let _ ← resolve scope ref
    let use ← plainly (scope.typeOf ref .null)
    return ({ toTypeText := use.toTypeText, imports := use.imports }, none)
  | none => do
    let element ← build node
    return (element, some element)

/-- The properties that a member of a composition has to offer for promotion. -/
def offered (member : Node) : Remembering (List Model) :=
  match member.get? "$ref" with
  | some (.str ref) => do
    if ref ∈ (← get).following then return []
    let schema ← resolve scope (.str ref)
    let owner ← whileFollowing ref (build schema)
    return owner.properties
  | some other => do
    let _ ← resolve scope other
    return []
  | none => do
    let owner ← build member
    return owner.properties

/-- The candidates for promotion in a composition, if it requires anything. -/
def promotable (schema : Node) (members : List Node) : Remembering (List Model) :=
  if (requiredNames schema).isEmpty then return []
  else do
    let offers ← members.mapM (offered scope build)
    return offers.flatten

def context (schema : Node) (parent : String) : Remembering PropertyContext := do
  let found ← if parent.isEmpty then pure none else discriminator? scope parent
  return { required := requiredNames schema, parent := parent, discriminator := found }

def property (context : PropertyContext) (entry : Scalar × Node) : Remembering Model := do
  let name ← plainly entry.1.written
  let isRequired := Node.listHas name context.required
  match ← plainly (context.valueOf scope name) with
  | some value => return asProperty name isRequired (fixedProperty entry.2 value)
  | none => do
    let model ← build entry.2
    return asProperty name isRequired model

def declared (schema : Node) (parent : String) : Remembering (List Model) :=
  match schema.get? "properties" with
  | some (.map entries) => do
    let context ← context scope schema parent
    entries.mapM (property scope build context)
  | _ => return []

def byShape (schema : Node) (name : String) (isDefinition : Bool) (found : Shape) :
    Remembering Model :=
  let model := plainModel schema name isDefinition
  match found with
  | .reference ref => do
    let _ ← resolve scope ref
    let use ← plainly (scope.typeOf ref .null)
    plainly (withDefault schema (withType { model with kind := .reference } use))
  | .enumeration type members =>
    plainly (withDefault schema
      { model with kind := .enumeration, type := type, base := type, enumerators := members })
  | .array items => do
    let (element, link) ← element scope build items
    plainly (withDefault schema (withElement model .array element link))
  | .dictionary values => do
    let (element, link) ← element scope build values
    plainly (withDefault schema (withElement model .dictionary element link))
  | .composition kind members => do
    let children ← members.mapM build
    let found ← promotable scope build schema members
    let own ← declared scope build schema name
    return withMembers model kind children (promote (requiredNames schema) found ++ own)
  | .record => do
    let properties ← declared scope build schema name
    plainly (withDefault schema (withProperties model properties))
  | .generic type => do
    let use ← plainly (scope.typeOf type (schema.get "format"))
    plainly (withDefault schema (withType model use))
  | .unknown => return model

end

def buildTo (scope : Scope) :
    (depth : Nat) → (schema : Node) → (name : String) → (isDefinition : Bool) → Remembering Model
  | 0, _, _, _ => throw (.malformed .endless)
  | depth + 1, schema, name, isDefinition => do
    let found ← plainly (shape schema)
    byShape scope (fun part => buildTo scope depth part "" false) schema name isDefinition found

/-- How far down building can go: through the whole description for each reference that can be
followed, and through the schema. -/
def reach (scope : Scope) (schema : Node) : Nat :=
  (known scope schema).length * scope.document.size + schema.size

def build (scope : Scope) (schema : Node) (name : String) (isDefinition : Bool) :
    Remembering Model :=
  buildTo scope (reach scope schema) schema name isDefinition

end Remembering

/-! ### Requests -/

inductive Request where
  | build (schema : Node) (name : String) (isDefinition : Bool)
  | resolve (ref : Node)
  | target (node : Node)

inductive Answer where
  | model (model : Model)
  | node (node : Node)

namespace Request

def perform (scope : Scope) : Request → Remembering Answer
  | .build schema name isDefinition => do
    return .model (← Remembering.build scope schema name isDefinition)
  | .resolve ref => return .node (← Remembering.resolve scope ref)
  | .target node => return .node (← Remembering.target scope node)

/-- The outcomes of requests, one after the other, and the memory that they leave behind. -/
def performAll (scope : Scope) (memory : Memory) :
    List Request → List (Except Failure Answer) × Memory
  | [] => ([], memory)
  | request :: rest =>
    let (outcome, after) := (request.perform scope).run memory
    let (outcomes, last) := performAll scope after rest
    (outcome :: outcomes, last)

end Request
end OpenApi.Schema
