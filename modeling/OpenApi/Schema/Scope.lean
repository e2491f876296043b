import OpenApi.Occurrence
import OpenApi.TypeUse

/-
What a schema is read against: the description it stands in, and its dialect.
-/
namespace OpenApi

namespace Node

mutual

/-- The texts of all references in a value, at any depth. -/
def references : Node → List String
  | .scalar _ => []
  | .list items => referencesOfItems items
  | .map entries => referencesOfEntries entries
  | .set _ => []
  | .pair x y => x.references ++ y.references
  | .endless => []

def referencesOfItems : List Node → List String
  | [] => []
  | x :: xs => x.references ++ referencesOfItems xs

def referencesOfEntries : Entries → List String
  | [] => []
  | (k, v) :: rest =>
    (if k = .str "$ref" then v.str?.toList else []) ++ v.references ++ referencesOfEntries rest

end

theorem references_subset_of_mem {items : List Node} {v : Node} (h : v ∈ items) :
    ∀ r ∈ v.references, r ∈ referencesOfItems items := by
  induction items with
  | nil => cases h
  | cons x xs ih =>
    intro r hr
    simp only [referencesOfItems, List.mem_append]
    rcases List.mem_cons.mp h with rfl | h
    · exact .inl hr
    · exact .inr (ih h r hr)

theorem references_subset_of_mem_entries {entries : Entries} {e : Scalar × Node}
    (h : e ∈ entries) : ∀ r ∈ e.2.references, r ∈ referencesOfEntries entries := by
  induction entries with
  | nil => cases h
  | cons x rest ih =>
    intro r hr
    simp only [referencesOfEntries, List.mem_append]
    rcases List.mem_cons.mp h with rfl | h
    · exact .inl (.inr hr)
    · exact .inr (ih h r hr)

theorem OccursIn.references_subset {part whole : Node} (h : part.OccursIn whole) :
    ∀ r ∈ part.references, r ∈ whole.references := by
  induction h with
  | whole => exact fun r hr => hr
  | item mem _ ih =>
    intro r hr
    simp only [references]
    exact references_subset_of_mem mem r (ih r hr)
  | entry mem _ ih =>
    intro r hr
    simp only [references]
    exact references_subset_of_mem_entries mem r (ih r hr)

theorem references_subset_of_get? {key : String} {node v : Node} (h : node.get? key = some v) :
    ∀ r ∈ v.references, r ∈ node.references := (occursIn_of_get? h).references_subset

theorem mem_references_of_get? {node : Node} {ref : String}
    (h : node.get? "$ref" = some (.str ref)) : ref ∈ node.references := by
  have entry : ∀ {entries : Entries}, Entries.get? "$ref" entries = some (.str ref) →
      ref ∈ referencesOfEntries entries := by
    intro entries
    induction entries with
    | nil => simp [Entries.get?]
    | cons e rest ih =>
      obtain ⟨k, v⟩ := e
      intro h
      simp only [Entries.get?] at h
      simp only [referencesOfEntries, List.mem_append]
      split at h
      · rename_i hk
        cases h
        exact .inl (.inl (by simp [hk, str?]))
      · exact .inr (ih h)
  cases node with
  | map entries =>
    simp only [references]
    exact entry h
  | _ => simp [get?] at h

end Node

/-- What a reference stands for has no references but those of the description. -/
theorem Reference.references_subset_of_resolve {document ref target : Node}
    (h : resolve document ref = .ok target) :
    ∀ r ∈ target.references, r ∈ document.references :=
  (occursIn_of_resolve h).references_subset

/-- A description and its dialect. -/
structure Scope where
  document : Node
  dialect : Dialect

namespace Scope

def typeOf (scope : Scope) (value format : Node) : Except Failure TypeUse :=
  TypeUse.ofNode scope.dialect value format

/-- The name in a reference, without the namespace that it lies in. -/
def localName (scope : Scope) (ref : String) : String :=
  Name.withoutNamespace scope.dialect.namespaces ref

/-- Whether a value is a reference to the definition with a name. -/
def refersTo (scope : Scope) (name : String) (node : Node) : Bool :=
  match node.get "$ref" with
  | .str ref => scope.localName ref == name
  | _ => false

/-- The discriminator of a definition that has one, and is a choice with the named definition
among its members. -/
def discriminatorOf? (scope : Scope) (name : String) (definition : Node) : Option Node :=
  match definition.get "discriminator", definition.get "oneOf" with
  | .map entries, .list members =>
    if members.any (scope.refersTo name) then some (.map entries) else none
  | _, _ => none

theorem discriminatorOf?_eq (scope : Scope) (name : String) (definition : Node) :
    scope.discriminatorOf? name definition =
      (definition.get "discriminator").entries?.bind fun entries =>
        (definition.get "oneOf").items?.bind fun members =>
          if members.any (scope.refersTo name) then some (.map entries) else none := by
  unfold discriminatorOf?
  cases definition.get "discriminator" with
  | map entries => cases definition.get "oneOf" <;> rfl
  | _ => rfl

/-- The first discriminator that tells the named definition from others. -/
def discriminator? (scope : Scope) (name : String) : Option Node :=
  (scope.dialect.schemas scope.document).findSome? fun (_, definition) =>
    scope.discriminatorOf? name definition

/-- The keys of a mapping under which the named definition is chosen. -/
def keysFor (scope : Scope) (name : String) (mapping : Node) : Except Failure (List String) :=
  match mapping with
  | .map entries =>
    (entries.filter fun (_, target) => target.str?.any (scope.localName · == name)).mapM
      fun (key, _) => key.written
  | _ => .ok []

/-- The value by which a discriminator chooses the named definition: the last key that stands for
it, or its name. -/
def fixedValue (scope : Scope) (name : String) (discriminator : Node) : Except Failure String :=
  (scope.keysFor name (discriminator.get "mapping")).map (·.getLast?.getD name)

end Scope
end OpenApi
