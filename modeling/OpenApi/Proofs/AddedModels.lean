import OpenApi.Proofs.AddedDefinitions
import OpenApi.Proofs.Correspondence
import OpenApi.Proofs.Inherited

/-
Models in a description that has grown.

A model depends on its schema, on what the references below it lead to, and on the discriminator of
its name.  All of these stay as they were, so each schema corresponds to itself
(`corresponds_grows`), and every model that could be built is built again.  The references that are
met on the way are references of the description all the time.
-/
namespace OpenApi

/-- Whether all references in a value are references of a description. -/
def RefersWithin (document node : Node) : Prop := ∀ r ∈ node.references, r ∈ document.references

theorem RefersWithin.of_occursIn {document node part : Node} (h : RefersWithin document node)
    (hocc : part.OccursIn node) : RefersWithin document part :=
  fun r hr => h r (hocc.references_subset r hr)

theorem refersWithin_empty (document : Node) : RefersWithin document (.map []) := by
  intro r hr
  simp [Node.references, Node.referencesOfEntries] at hr

theorem references_filter_subset (p : Scalar × Node → Bool) (entries : Entries) :
    ∀ r ∈ Node.referencesOfEntries (entries.filter p), r ∈ Node.referencesOfEntries entries := by
  induction entries with
  | nil => exact fun _ h => h
  | cons e rest ih =>
    obtain ⟨key, value⟩ := e
    intro r hr
    rw [Node.referencesOfEntries, List.mem_append]
    by_cases hkept : p (key, value) = true
    · rw [List.filter_cons_of_pos hkept, Node.referencesOfEntries, List.mem_append] at hr
      exact hr.imp id (ih r)
    · rw [List.filter_cons_of_neg hkept] at hr
      exact .inr (ih r hr)

theorem inherited_refersWithin (document : Node) : Inherited (RefersWithin document) where
  part hocc h := h.of_occursIn hocc
  null := fun _ h => nomatch h
  empty := refersWithin_empty document
  inline := by
    intro node h
    cases node with
    | map entries => exact fun r hr => h r (references_filter_subset _ entries r hr)
    | scalar | list | set | pair | endless => exact h

namespace Grows

variable {dialect : Dialect} {document grown : Node}

theorem carries_resolve (h : Grows dialect document grown) {node ref : Node}
    (hnode : RefersWithin document node) (href : node.get? "$ref" = some ref) :
    Carries (Reference.resolve document ref) (Reference.resolve grown ref) := by
  cases ref with
  | scalar s =>
    cases s with
    | str text => exact h.resolve text (hnode text (Node.mem_references_of_get? href))
    | null | bool | int | float | moment | bytes => exact fun _ => id
  | list | map | set | pair | endless => exact fun _ => id

end Grows

/-- What has a property, and is the same afterwards. -/
structure Kept {α : Type} (P : α → Prop) (a b : α) : Prop where
  holds : P a
  eq : b = a

namespace Schema

variable {dialect : Dialect} {document grown : Node}

theorem sameReference_kept {schema ref : Node} (h : RefersWithin document schema)
    (href : schema.get? "$ref" = some ref) :
    SameReference (Kept (· ∈ document.references)) ref ref := by
  by_cases hkind : ref.kind = .str
  · obtain ⟨text, rfl⟩ := Node.exists_text_of_kind hkind
    exact .text ⟨h text (Node.mem_references_of_get? href), rfl⟩
  · exact .noText hkind hkind

theorem sameShape_kept {schema : Node} (h : RefersWithin document schema) {found : Shape}
    (hs : shape schema = .ok found) :
    SameShape ⟨document, dialect⟩ ⟨grown, dialect⟩ (Kept (· ∈ document.references))
      (Kept (RefersWithin document)) schema schema found found := by
  have hpart (part : Node) (hp : part ∈ found.parts) : Kept (RefersWithin document) part part :=
    ⟨(inherited_refersWithin document).of_partsOf h (partsOf_shape hs) hp, rfl⟩
  cases shapeOf_shape hs with
  | reference href => exact .reference (sameReference_kept h href)
  | enumeration => exact .enumeration _ _
  | array _ => exact .array (hpart _ (List.mem_singleton_self _))
  | dictionary _ => exact .dictionary (hpart _ (List.mem_singleton_self _))
  | composition _ => exact .composition _ (List.forall₂_same.mpr hpart)
  | record => exact .record
  | generic _ => exact .generic rfl
  | unknown => exact .unknown

/-- A description and one that has grown out of it correspond, as far as the first one can be
resolved. -/
theorem corresponds_grows (h : Grows dialect document grown) :
    Correspondence ⟨document, dialect⟩ ⟨grown, dialect⟩ (Kept (· ∈ document.references))
      (Kept (RefersWithin document)) (fun _ => True) where
  eq_iff href hother := by rw [href.eq, hother.eq]
  resolve {ref ref'} href := by
    rw [href.eq]
    exact .of_carries (h.resolve ref href.holds) fun target htarget =>
      ⟨Reference.references_subset_of_resolve htarget, rfl⟩
  typeOf href _ := href.eq ▸ rfl
  reference {schema schema'} hschema := by
    rw [hschema.eq]
    cases href : schema.get? "$ref" with
    | none => exact .none
    | some ref => exact .some (sameReference_kept hschema.holds href)
  shaped {schema schema'} hschema := by
    rw [hschema.eq]
    exact .of_carries (Carries.refl _) fun found hs => sameShape_kept hschema.holds hs
  alike {schema schema'} hschema := by
    rw [hschema.eq]
    exact
      { plainModel := fun _ _ => rfl
        withDefault := fun _ => rfl
        isEmpty := rfl
        promote := fun _ => rfl
        listHas := fun _ => rfl
        valueOf := fun parent name => by
          have hfound : (Scope.mk grown dialect).discriminator? parent =
              ((Scope.mk document dialect).discriminator? parent).map id := by
            rw [h.discriminator, Option.map_id_fun, id]
          exact valueOf_eq hfound (fun _ _ => ⟨fun _ => rfl, rfl⟩) schema schema name }
  properties {schema schema'} hschema := by
    have own := inherited_refersWithin document
    rw [hschema.eq, List.forall₂_same]
    exact fun entry hentry =>
      ⟨rfl, own.of_mem_entries? (own.get hschema.holds "properties") hentry, rfl⟩

/-- Whatever model a description has for a schema, a description that has grown has it too. -/
theorem carries_build {schema : Node} (h : Grows dialect document grown)
    (hschema : RefersWithin document schema) (name : String) (isDefinition : Bool) :
    Carries (build ⟨document, dialect⟩ schema name isDefinition)
      (build ⟨grown, dialect⟩ schema name isDefinition) :=
  ((corresponds_grows h).build_inStep ⟨hschema, rfl⟩ name isDefinition).carries

end Schema
end OpenApi
