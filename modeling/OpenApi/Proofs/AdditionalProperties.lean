import OpenApi.Proofs.AddedModels
import OpenApi.Proofs.Shapes
import OpenApi.Proofs.Termination

/-
Two ways to allow any further properties: `true`, or a schema that says nothing.

An object with nothing but further properties is a dictionary, and its values are of any type either
way.  If it declares properties too, `true` leaves it to the rules for compositions and records,
which keep what is declared, while a schema still makes it a dictionary, whatever is declared.  That
is the one difference (`SpellingMatters`).  Schemas that are spelled in another way anywhere else,
at any depth, come to the same models, and so do schemas whose references lead to such
(`toOption_build_eq_iff_of_respelled`).
-/
namespace OpenApi.Schema

/-- Where the two ways come to different models: at an object that declares properties, if no
earlier rule says what it is. -/
structure SpellingMatters (schema schema' : Node) : Prop where
  flag : schema.get? "additionalProperties" = some (.bool true)
  nothing : schema'.get? "additionalProperties" = some (.map [])
  object : declaresType schema "object" = true
  properties : (schema.get "properties").isTruthy = true
  unreferenced : schema.get? "$ref" = none
  unlisted : listedMembers schema = .ok []
  undescribed : describedMembers schema = .ok []
  noItems : arrayItems? schema = none

mutual

/-- Schemas that differ at most in how they allow any further properties, at any depth, and nowhere
that it matters. -/
inductive Respelled : Node → Node → Prop where
  | same (schema : Node) : Respelled schema schema
  | map {entries entries' : Entries} (h : List.Forall₂ RespelledEntry entries entries')
    (like : ¬ SpellingMatters (.map entries) (.map entries')) :
    Respelled (.map entries) (.map entries')

/-- Entries of such schemas. -/
inductive RespelledEntry : Scalar × Node → Scalar × Node → Prop where
  | same (entry : Scalar × Node) : RespelledEntry entry entry
  /-- Only here `true` says the same: as an item, a member or a property it is no schema. -/
  | anything {key : String} (hkey : key = "additionalProperties") :
    RespelledEntry (.str key, .bool true) (.str key, .map [])
  | part {key : String} (hkey : key ∈ ["items", "additionalProperties"]) {part part' : Node}
    (h : Respelled part part') : RespelledEntry (.str key, part) (.str key, part')
  | members {key : String} (hkey : key ∈ ["oneOf", "anyOf", "allOf"]) {members members' : List Node}
    (h : List.Forall₂ Respelled members members') :
    RespelledEntry (.str key, .list members) (.str key, .list members')
  | properties {key : String} (hkey : key = "properties") {entries entries' : Entries}
    (h : List.Forall₂ RespelledProperty entries entries') :
    RespelledEntry (.str key, .map entries) (.str key, .map entries')

/-- Such schemas under one name. -/
inductive RespelledProperty : Scalar × Node → Scalar × Node → Prop where
  | mk (key : Scalar) {schema schema' : Node} (h : Respelled schema schema') :
    RespelledProperty (key, schema) (key, schema')

end

/-- Descriptions whose definitions are spelled in the two ways, and so is whatever the references
lead to that stand in them or in a schema that is read against them. -/
structure RespelledDocument (dialect : Dialect) (document document' schema : Node) : Prop where
  definitions : List.Forall₂ RespelledProperty (dialect.schemas document)
    (dialect.schemas document')
  resolve : ∀ ref ∈ document.references ++ schema.references,
    InStepUnless (fun _ => False) Respelled (Reference.resolve document (.str ref))
      (Reference.resolve document' (.str ref))

/-! ### The keywords of such schemas -/

/-- The keywords under which there are schemas. -/
def partKeywords : List String :=
  ["items", "additionalProperties", "oneOf", "anyOf", "allOf", "properties"]

/-- Schemas that say the same, their parts and their further properties apart. -/
structure SpelledAlike (schema schema' : Node) : Prop where
  get? (key : String) :
    Option.Rel (fun value value' => RespelledEntry (.str key, value) (.str key, value'))
      (schema.get? key) (schema'.get? key)
  isEdge : isEdge schema = isEdge schema'

theorem RespelledEntry.key_eq {entry entry' : Scalar × Node} (h : RespelledEntry entry entry') :
    entry.1 = entry'.1 := by
  cases h <;> rfl

section
variable {schema schema' : Node} {entries entries' : Entries}

theorem spelledAlike_refl (schema : Node) : SpelledAlike schema schema where
  get? key := by
    cases schema.get? key with
    | none => exact .none
    | some value => exact .some (.same _)
  isEdge := rfl

theorem spelledAlike_map (h : List.Forall₂ RespelledEntry entries entries') :
    SpelledAlike (.map entries) (.map entries') where
  get? key := by
    show Option.Rel _ (Entries.get? key entries) (Entries.get? key entries')
    induction h with
    | nil => exact .none
    | @cons e e' rest rest' he _ ih =>
      obtain ⟨k, value⟩ := e
      obtain ⟨k', value'⟩ := e'
      obtain rfl : k = k' := he.key_eq
      rw [Entries.get?, Entries.get?]
      by_cases hk : k = .str key
      · rw [if_pos hk, if_pos hk]
        exact .some (hk ▸ he)
      · rw [if_neg hk, if_neg hk]
        exact ih
  isEdge := by
    rw [Schema.isEdge, Schema.isEdge]
    induction h with
    | nil => rfl
    | @cons e e' rest rest' he _ ih =>
      rw [List.any_cons, List.any_cons]
      refine congrArg₂ or ?_ ih
      cases he with
      | same => rfl
      | anything => rfl
      | part _ h => cases h <;> rfl
      | members => rfl
      | properties => rfl

theorem Respelled.spelledAlike (h : Respelled schema schema') : SpelledAlike schema schema' := by
  cases h with
  | same => exact spelledAlike_refl schema
  | map h _ => exact spelledAlike_map h

theorem Respelled.isMap (h : Respelled schema schema') : schema.isMap = schema'.isMap := by
  cases h <;> rfl

end

theorem sameReference_refl (ref : Node) : SameReference Eq ref ref := by
  by_cases hkind : ref.kind = .str
  · obtain ⟨text, rfl⟩ := Node.exists_text_of_kind hkind
    exact .text rfl
  · exact .noText hkind hkind

section
variable {α β : Type} {r : α → α → Prop} {x x' y y' : Option α}

theorem rel_or (hx : Option.Rel r x x') (hy : x = none → Option.Rel r y y') :
    Option.Rel r (x.or y) (x'.or y') := by
  cases hx with
  | none => exact hy rfl
  | some hx => exact .some hx

theorem rel_map {r' : β → β → Prop} {f : α → β} (h : Option.Rel r x x')
    (hf : ∀ a a', r a a' → r' (f a) (f a')) : Option.Rel r' (x.map f) (x'.map f) := by
  cases h with
  | none => exact .none
  | some h => exact .some (hf _ _ h)

end

namespace SpelledAlike

variable {schema schema' : Node} {key : String}

section
variable (h : SpelledAlike schema schema')
include h

theorem get?_eq (hkey : key ∉ partKeywords) : schema.get? key = schema'.get? key := by
  have hrel := h.get? key
  generalize schema.get? key = found, schema'.get? key = found' at hrel ⊢
  cases hrel with
  | none => rfl
  | some he =>
    cases he with
    | same => rfl
    | anything hany => exact absurd (hany ▸ by decide) hkey
    | part hpart => exact absurd (List.mem_append_left _ hpart) hkey
    | members hmembers =>
      have hmem : key ∈ partKeywords := by
        simp only [List.mem_cons, List.not_mem_nil, or_false] at hmembers
        rcases hmembers with rfl | rfl | rfl <;> decide
      exact absurd hmem hkey
    | properties hproperties => exact absurd (hproperties ▸ by decide) hkey

theorem get_eq (hkey : key ∉ partKeywords) : schema.get key = schema'.get key := by
  rw [Node.get, Node.get, h.get?_eq hkey]

theorem sameKeywords : SameKeywords schema schema' := by
  have hplain : ∀ key ∈ plainKeywords, key ∉ partKeywords := by decide
  exact fun key hkey => h.get?_eq (hplain key hkey)

/-! ### The parts of such schemas -/

theorem items_rel : Option.Rel Respelled (schema.get? "items") (schema'.get? "items") := by
  have hrel := h.get? "items"
  generalize schema.get? "items" = found, schema'.get? "items" = found' at hrel ⊢
  cases hrel with
  | none => exact .none
  | some he =>
    cases he with
    | same => exact .some (.same _)
    | anything hkey => exact absurd hkey (by decide)
    | part _ hpart => exact .some hpart
    | members hkey => exact absurd hkey (by decide)
    | properties hkey => exact absurd hkey (by decide)

/-- What is declared is declared under the same names. -/
theorem properties_cases : schema.get? "properties" = schema'.get? "properties" ∨
    ∃ entries entries', schema.get? "properties" = some (.map entries) ∧
      schema'.get? "properties" = some (.map entries') ∧
      List.Forall₂ RespelledProperty entries entries' := by
  have hrel := h.get? "properties"
  generalize schema.get? "properties" = found, schema'.get? "properties" = found' at hrel ⊢
  cases hrel with
  | none => exact .inl rfl
  | some he =>
    cases he with
    | same => exact .inl rfl
    | anything hkey => exact absurd hkey (by decide)
    | part hkey => exact absurd hkey (by decide)
    | members hkey => exact absurd hkey (by decide)
    | properties _ hentries => exact .inr ⟨_, _, rfl, rfl, hentries⟩

theorem isTruthy_properties :
    (schema.get "properties").isTruthy = (schema'.get "properties").isTruthy := by
  rcases h.properties_cases with heq | ⟨entries, entries', hfound, hfound', hentries⟩
  · rw [Node.get, Node.get, heq]
  · rw [Node.get, Node.get, hfound, hfound']
    cases hentries <;> rfl

theorem isMap_properties :
    (schema.get "properties").isMap = (schema'.get "properties").isMap := by
  rcases h.properties_cases with heq | ⟨entries, entries', hfound, hfound', _⟩
  · rw [Node.get, Node.get, heq]
  · rw [Node.get, Node.get, hfound, hfound']
    rfl

theorem members_rel (hkey : key ∈ ["oneOf", "anyOf", "allOf"]) :
    Option.Rel (List.Forall₂ Respelled) ((schema.get? key).bind Node.items?)
      ((schema'.get? key).bind Node.items?) := by
  have hrel := h.get? key
  generalize schema.get? key = found, schema'.get? key = found' at hrel ⊢
  cases hrel with
  | none => exact .none
  | @some value value' he =>
    cases he with
    | same =>
      show Option.Rel _ value.items? value.items?
      cases value.items? with
      | none => exact .none
      | some members => exact .some (List.forall₂_same.mpr fun member _ => .same member)
    | anything hany => exact absurd hkey (hany ▸ by decide)
    | part hpart =>
      simp only [List.mem_cons, List.not_mem_nil, or_false] at hpart
      rcases hpart with rfl | rfl <;> exact absurd hkey (by decide)
    | members _ hmembers => exact .some hmembers
    | properties hproperties => exact absurd hkey (hproperties ▸ by decide)

theorem arrayItems?_rel : Option.Rel Respelled (arrayItems? schema) (arrayItems? schema') := by
  have hrel := h.items_rel
  rw [arrayItems?, arrayItems?, h.sameKeywords.declaresType_eq]
  generalize schema.get? "items" = found, schema'.get? "items" = found' at hrel ⊢
  by_cases harray : declaresType schema' "array" = true
  · rw [if_pos harray, if_pos harray]
    cases hrel with
    | none => exact .none
    | @some items items' hitems =>
      rw [Option.filter_some, Option.filter_some, hitems.isMap]
      by_cases hmap : items'.isMap = true
      · rw [if_pos hmap, if_pos hmap]
        exact .some hitems
      · rw [if_neg hmap, if_neg hmap]
        exact .none
  · rw [if_neg harray, if_neg harray]
    exact .none

/-- Dictionaries have values that are spelled in the two ways, where it does not matter. -/
theorem dictionaryValues?_rel
    (hlike : schema.get? "additionalProperties" = some (.bool true) →
      schema'.get? "additionalProperties" = some (.map []) →
      declaresType schema "object" = true → (schema.get "properties").isTruthy = false) :
    Option.Rel Respelled (dictionaryValues? schema) (dictionaryValues? schema') := by
  have hrefl (found : Option Node) : Option.Rel Respelled found found := by
    cases found with
    | none => exact .none
    | some values => exact .some (.same values)
  have hrel := h.get? "additionalProperties"
  rw [dictionaryValues?, dictionaryValues?, ← h.sameKeywords.declaresType_eq,
    ← h.isTruthy_properties]
  by_cases hobject : declaresType schema "object" = true
  · rw [if_pos hobject, if_pos hobject]
    generalize schema.get? "additionalProperties" = found,
      schema'.get? "additionalProperties" = found' at hrel hlike ⊢
    cases hrel with
    | none => exact .none
    | some he =>
      cases he with
      | same => exact hrefl _
      | anything =>
        dsimp only
        rw [hlike rfl rfl hobject]
        exact hrefl _
      | part _ hpart =>
        cases hpart with
        | same => exact hrefl _
        | map hentries hmap => exact .some (.map hentries hmap)
      | members hkey => exact absurd hkey (by decide)
      | properties hkey => exact absurd hkey (by decide)
  · rw [if_neg hobject, if_neg hobject]
    exact .none

theorem composed?_rel (hkey : key ∈ ["oneOf", "anyOf", "allOf"]) (kind : ModelKind) :
    Option.Rel (fun c c' => c.1 = c'.1 ∧ List.Forall₂ Respelled c.2 c'.2)
      (composed? schema key kind) (composed? schema' key kind) := by
  have hcomposed (schema : Node) : composed? schema key kind =
      (((schema.get? key).bind Node.items?).filter (!·.isEmpty)).map (kind, ·) := by
    unfold composed?
    cases schema.get? key with
    | none => rfl
    | some value =>
      cases value with
      | list members => cases members <;> rfl
      | scalar | map | set | pair | endless => rfl
  have hrel := h.members_rel hkey
  rw [hcomposed, hcomposed]
  generalize (schema.get? key).bind Node.items? = found,
    (schema'.get? key).bind Node.items? = found' at hrel ⊢
  cases hrel with
  | none => exact .none
  | some hmembers =>
    cases hmembers with
    | nil => exact .none
    | cons hmember hrest => exact .some ⟨rfl, .cons hmember hrest⟩

theorem composition?_rel :
    Option.Rel (fun c c' => c.1 = c'.1 ∧ List.Forall₂ Respelled c.2 c'.2)
      (composition? schema) (composition? schema') := by
  exact rel_or (h.composed?_rel (by decide) _) fun _ =>
    rel_or (h.composed?_rel (by decide) _) fun _ => h.composed?_rel (by decide) _

theorem isRecord_eq : isRecord schema = isRecord schema' := by
  rw [isRecord, isRecord, h.sameKeywords.declaresType_eq, Node.has, Node.has, h.get?_eq (by decide),
    h.isMap_properties]

end

variable {dialect : Dialect} {document document' : Node}

/-- The parts of such schemas tell the same shape, where the spelling does not matter. -/
theorem structure?_rel (h : SpelledAlike schema schema')
    (hlike : arrayItems? schema = none → schema.get? "additionalProperties" = some (.bool true) →
      schema'.get? "additionalProperties" = some (.map []) →
      declaresType schema "object" = true → (schema.get "properties").isTruthy = false) :
    Option.Rel (SameShape ⟨document, dialect⟩ ⟨document', dialect⟩ Eq Respelled schema schema')
      (structure? schema) (structure? schema') := by
  unfold structure?
  -- The rules are asked in their order, and only where those before them say nothing.
  refine rel_or (rel_map h.arrayItems?_rel fun _ _ => .array) fun hnone => ?_
  have hitems := Option.map_eq_none_iff.mp hnone
  have hvalues := h.dictionaryValues?_rel (hlike hitems)
  refine rel_or (rel_map hvalues fun _ _ => .dictionary) fun _ => ?_
  refine rel_or (rel_map h.composition?_rel ?_) fun _ => ?_
  · rintro ⟨kind, members⟩ ⟨kind', members'⟩ ⟨rfl, hmembers⟩
    exact .composition _ hmembers
  · rw [h.isRecord_eq, h.get?_eq (by decide)]
    by_cases hrecord : isRecord schema' = true
    · rw [if_pos hrecord]
      exact .some .record
    · rw [if_neg hrecord]
      cases schema'.get? "type" with
      | none => exact .none
      | some type =>
        refine .some (.generic ?_)
        rw [h.get_eq (by decide)]
        rfl

/-- So do all their keywords. -/
theorem shape_inStep (h : SpelledAlike schema schema') (hlike : ¬ SpellingMatters schema schema') :
    InStepUnless (fun _ => False)
      (SameShape ⟨document, dialect⟩ ⟨document', dialect⟩ Eq Respelled schema schema')
      (shape schema) (shape schema') := by
  rw [shape, shape, h.isEdge]
  by_cases hedge : Schema.isEdge schema' = true
  · rw [if_pos hedge, if_pos hedge]
    exact True.intro
  rw [if_neg hedge, if_neg hedge, innerShape, innerShape, ← h.get?_eq (by decide),
    ← h.sameKeywords.listedMembers_eq, ← h.sameKeywords.describedMembers_eq]
  cases href : schema.get? "$ref" with
  | some ref => exact SameShape.reference (sameReference_refl ref)
  | none =>
    dsimp only
    cases hlisted : listedMembers schema with
    | error failure => exact True.intro
    | ok listed =>
      cases listed with
      | cons member members => exact SameShape.enumeration _ _
      | nil =>
        cases hdescribed : describedMembers schema with
        | error failure => exact True.intro
        | ok described =>
          cases described with
          | cons member members => exact SameShape.enumeration _ _
          | nil =>
            have hrel : Option.Rel
                (SameShape ⟨document, dialect⟩ ⟨document', dialect⟩ Eq Respelled schema schema')
                (structure? schema) (structure? schema') :=
              h.structure?_rel fun hitems hflag hnothing hobject =>
                Bool.eq_false_iff.mpr fun hproperties => hlike
                  ⟨hflag, hnothing, hobject, hproperties, href, hlisted, hdescribed, hitems⟩
            generalize structure? schema = found, structure? schema' = found' at hrel ⊢
            cases hrel with
            | none => exact SameShape.unknown
            | some hsame => exact hsame

end SpelledAlike

/-! ### Schemas for which the spelling matters -/

/-- One of the two is a dictionary, the other one is not. -/
theorem SpellingMatters.kinds_ne {schema schema' : Node} (h : SpellingMatters schema schema')
    (halike : SpelledAlike schema schema') {found found' : Shape} (hs : shape schema = .ok found)
    (hs' : shape schema' = .ok found') : found.kind ≠ found'.kind := by
  have hvalues : dictionaryValues? schema = none := by
    rw [dictionaryValues?, if_pos h.object, h.flag]
    dsimp only
    rw [if_pos h.properties]
  have hvalues' : dictionaryValues? schema' = some (.map []) := by
    rw [dictionaryValues?, ← halike.sameKeywords.declaresType_eq, if_pos h.object, h.nothing]
  have hitems : arrayItems? schema' = none := by
    have hrel := halike.arrayItems?_rel
    rw [h.noItems] at hrel
    generalize arrayItems? schema' = found at hrel ⊢
    cases hrel
    rfl
  have hfound : found.kind ≠ .dictionary := by
    cases told_of_shape hs with
    | referenced href => exact nomatch href.symm.trans h.unreferenced
    | listed _ hlisted => exact nomatch hlisted.symm.trans h.unlisted
    | described _ _ hdescribed => exact nomatch hdescribed.symm.trans h.undescribed
    | structured _ _ _ heq =>
      have hrecord : isRecord schema = true := by
        rw [isRecord, h.object]
        rfl
      rw [heq, structure?, h.noItems, hvalues, if_pos hrecord]
      cases hcomposed : composition? schema with
      | none => exact nofun
      | some composed => exact kind_ne_of_composition? hcomposed (by decide)
  have hfound' : found'.kind = .dictionary := by
    cases told_of_shape hs' with
    | referenced href =>
      rw [← halike.get?_eq (by decide)] at href
      exact nomatch href.symm.trans h.unreferenced
    | listed _ hlisted =>
      rw [← halike.sameKeywords.listedMembers_eq] at hlisted
      exact nomatch hlisted.symm.trans h.unlisted
    | described _ _ hdescribed =>
      rw [← halike.sameKeywords.describedMembers_eq] at hdescribed
      exact nomatch hdescribed.symm.trans h.undescribed
    | structured _ _ _ heq =>
      rw [heq, structure?, hitems, hvalues']
      rfl
  exact fun heq => hfound (heq.trans hfound')

/-! ### Models -/

/-- A schema that is spelled in the two ways, with no references but those of some value. -/
def RespelledWithin (whole schema schema' : Node) : Prop :=
  RefersWithin whole schema ∧ Respelled schema schema'

section
variable {dialect : Dialect} {document document' whole schema schema' : Node}

theorem Respelled.shape_inStep (h : Respelled schema schema') :
    InStepUnless (fun _ => False)
      (SameShape ⟨document, dialect⟩ ⟨document', dialect⟩ Eq Respelled schema schema')
      (shape schema) (shape schema') := by
  refine h.spelledAlike.shape_inStep fun hmatters => ?_
  cases h with
  | same => exact nomatch hmatters.flag.symm.trans hmatters.nothing
  | map _ hlike => exact hlike hmatters

/-- The references in the parts of a shape are those of the schema. -/
theorem sameShape_within (hwithin : RefersWithin whole schema) {found found' : Shape}
    (hs : shape schema = .ok found)
    (h : SameShape ⟨document, dialect⟩ ⟨document', dialect⟩ Eq Respelled schema schema' found
      found') :
    SameShape ⟨document, dialect⟩ ⟨document', dialect⟩ (Kept (· ∈ whole.references))
      (RespelledWithin whole) schema schema' found found' := by
  have hpart (part : Node) (hp : part ∈ found.parts) : RefersWithin whole part :=
    (inherited_refersWithin whole).of_partsOf hwithin (partsOf_shape hs) hp
  cases h with
  | reference href =>
    cases href with
    | text heq =>
      subst heq
      cases shapeOf_shape hs with
      | reference hfound => exact .reference (sameReference_kept hwithin hfound)
    | noText kind kind' => exact .reference (.noText kind kind')
  | enumeration type members => exact .enumeration type members
  | array h => exact .array ⟨hpart _ (List.mem_singleton_self _), h⟩
  | dictionary h => exact .dictionary ⟨hpart _ (List.mem_singleton_self _), h⟩
  | composition kind h => exact .composition kind ((List.forall₂_and_left _ _).mpr ⟨hpart, h⟩)
  | record => exact .record
  | generic h => exact .generic h
  | unknown => exact .unknown

/-! ### Definitions -/

theorem refersTo_respelled (h : Respelled schema schema') (name : String) :
    (Scope.mk document dialect).refersTo name schema =
      (Scope.mk document' dialect).refersTo name schema' := by
  rw [Scope.refersTo, Scope.refersTo, h.spelledAlike.get_eq (by decide)]
  rfl

theorem discriminatorOf?_respelled (h : Respelled schema schema') (name : String) :
    (Scope.mk document dialect).discriminatorOf? name schema =
      (Scope.mk document' dialect).discriminatorOf? name schema' := by
  have hmembers := h.spelledAlike.members_rel (show "oneOf" ∈ ["oneOf", "anyOf", "allOf"] by decide)
  have hitems (schema : Node) : (schema.get "oneOf").items? =
      (schema.get? "oneOf").bind Node.items? := by
    rw [Node.get]
    cases schema.get? "oneOf" <;> rfl
  rw [Scope.discriminatorOf?_eq, Scope.discriminatorOf?_eq, h.spelledAlike.get_eq (by decide),
    hitems, hitems]
  generalize (schema.get? "oneOf").bind Node.items? = found,
    (schema'.get? "oneOf").bind Node.items? = found' at hmembers ⊢
  cases hmembers with
  | none => rfl
  | @some members members' hmembers =>
    have hany : members.any ((Scope.mk document dialect).refersTo name) =
        members'.any ((Scope.mk document' dialect).refersTo name) := by
      induction hmembers with
      | nil => rfl
      | cons hmember _ ih => rw [List.any_cons, List.any_cons, ih, refersTo_respelled hmember]
    simp only [Option.bind_some, hany]

end

namespace RespelledDocument

variable {dialect : Dialect} {document document' schema schema' : Node}

/-- A description is one that is spelled as itself. -/
theorem refl (dialect : Dialect) (document schema : Node) :
    RespelledDocument dialect document document schema where
  definitions := List.forall₂_same.mpr fun ⟨key, _⟩ _ => .mk key (.same _)
  resolve _ _ := .of_self fun target _ => .same target

/-- The definitions have the same discriminators. -/
theorem discriminator?_eq (h : RespelledDocument dialect document document' schema)
    (name : String) :
    (Scope.mk document' dialect).discriminator? name =
      (Scope.mk document dialect).discriminator? name := by
  have hdefinitions := h.definitions
  unfold Scope.discriminator?
  dsimp only
  generalize dialect.schemas document = definitions,
    dialect.schemas document' = definitions' at hdefinitions
  induction hdefinitions with
  | nil => rfl
  | cons hproperty _ ih =>
    cases hproperty with
    | mk key hdefinition =>
      rw [List.findSome?_cons, List.findSome?_cons, ih,
        ← discriminatorOf?_respelled hdefinition name]

theorem corresponds (h : RespelledDocument dialect document document' schema) :
    Correspondence ⟨document, dialect⟩ ⟨document', dialect⟩
      (Kept (· ∈ (Node.list [document, schema]).references))
      (RespelledWithin (.list [document, schema])) (fun _ => False) where
  eq_iff href hother := by rw [href.eq, hother.eq]
  resolve {ref ref'} href := by
    have hknown : ref ∈ document.references ++ schema.references := by
      have hmem := href.holds
      simpa only [Node.references, Node.referencesOfItems, List.append_nil] using hmem
    rw [href.eq]
    refine (h.resolve ref hknown).imp fun target target' htarget hsame => ⟨?_, hsame⟩
    intro r hr
    have hmem := Reference.references_subset_of_resolve htarget r hr
    exact Node.references_subset_of_mem List.mem_cons_self r hmem
  typeOf href _ := href.eq ▸ rfl
  reference {part part'} hpart := by
    rw [← hpart.2.spelledAlike.get?_eq (by decide)]
    cases href : part.get? "$ref" with
    | none => exact .none
    | some ref => exact .some (sameReference_kept hpart.1 href)
  shaped {part part'} hpart := hpart.2.shape_inStep.imp fun _ _ hs => sameShape_within hpart.1 hs
  alike {part part'} hpart := by
    refine hpart.2.spelledAlike.sameKeywords.alike fun parent name => ?_
    have hfound : (Scope.mk document' dialect).discriminator? parent =
        ((Scope.mk document dialect).discriminator? parent).map id := by
      rw [h.discriminator?_eq, Option.map_id_fun, id]
    exact valueOf_eq hfound (fun _ _ => ⟨fun _ => rfl, rfl⟩) part part' name
  properties {part part'} hpart := by
    have own := inherited_refersWithin (.list [document, schema])
    have hwithin (entry : Scalar × Node)
        (he : entry ∈ (part.get "properties").entries?.getD []) :=
      own.of_mem_entries? (own.get hpart.1 "properties") he
    rcases hpart.2.spelledAlike.properties_cases with
      heq | ⟨entries, entries', hfound, hfound', hall⟩
    · have hsame : part'.get "properties" = part.get "properties" := by
        rw [Node.get, Node.get, heq]
      rw [hsame]
      exact List.forall₂_same.mpr fun entry he => ⟨rfl, hwithin entry he, .same _⟩
    · rw [Node.get, hfound] at hwithin
      rw [Node.get, hfound, Node.get, hfound']
      refine List.Forall₂.imp ?_ ((List.forall₂_and_left _ _).mpr ⟨hwithin, hall⟩)
      rintro _ _ ⟨hentry, hproperty⟩
      cases hproperty with
      | mk key hsame => exact ⟨rfl, hentry, hsame⟩

/-- Schemas that are spelled in the two ways come to the same model, wherever it does not matter. -/
theorem build_inStep (h : RespelledDocument dialect document document' schema)
    (hschema : Respelled schema schema') (name : String) (isDefinition : Bool) :
    InStep id (build ⟨document, dialect⟩ schema name isDefinition)
      (build ⟨document', dialect⟩ schema' name isDefinition) := by
  have hwithin : RefersWithin (.list [document, schema]) schema :=
    Node.references_subset_of_mem (List.mem_cons_of_mem _ (List.mem_singleton_self _))
  exact (h.corresponds.build_inStep ⟨hwithin, hschema⟩ name isDefinition).inStep

end RespelledDocument

/-- So do schemas of one description. -/
theorem Respelled.build_inStep {schema schema' : Node} (h : Respelled schema schema')
    (scope : Scope) (name : String) (isDefinition : Bool) :
    InStep id (build scope schema name isDefinition) (build scope schema' name isDefinition) :=
  (RespelledDocument.refl scope.dialect scope.document schema).build_inStep h name isDefinition

/-- Where the spelling matters, the two have no model in common. -/
theorem SpellingMatters.ne_ok {scope scope' : Scope} {schema schema' : Node} {name : String}
    {isDefinition : Bool} {model : Model} (h : SpellingMatters schema schema')
    (halike : SpelledAlike schema schema')
    (hmodel : build scope schema name isDefinition = .ok model) :
    build scope' schema' name isDefinition ≠ .ok model := by
  intro hmodel'
  have hbuilt : Job.built scope ⟨[], schema, name, isDefinition⟩ = .ok model := hmodel
  have hbuilt' : Job.built scope' ⟨[], schema', name, isDefinition⟩ = .ok model := hmodel'
  obtain ⟨found, hfound, hkind⟩ := Job.shape_of_built hbuilt
  obtain ⟨found', hfound', hkind'⟩ := Job.shape_of_built hbuilt'
  exact h.kinds_ne halike hfound hfound' (hkind.symm.trans hkind')

/-- Whether any further properties are allowed by `true` or by a schema that says nothing makes no
difference at any depth, except where one of the two ways drops the properties that are declared;
there both have the same models only if they have none. -/
theorem toOption_build_eq_iff_of_respelled {dialect : Dialect} {document document' : Node}
    {entries entries' : Entries}
    (hdocument : RespelledDocument dialect document document' (.map entries))
    (hentries : List.Forall₂ RespelledEntry entries entries') (name : String)
    (isDefinition : Bool) :
    (build ⟨document, dialect⟩ (.map entries) name isDefinition).toOption =
        (build ⟨document', dialect⟩ (.map entries') name isDefinition).toOption ↔
      (SpellingMatters (.map entries) (.map entries') →
        (build ⟨document, dialect⟩ (.map entries) name isDefinition).toOption = none ∧
          (build ⟨document', dialect⟩ (.map entries') name isDefinition).toOption = none) := by
  by_cases hmatters : SpellingMatters (.map entries) (.map entries')
  · have hne := fun model => @SpellingMatters.ne_ok ⟨document, dialect⟩ ⟨document', dialect⟩ _ _
      name isDefinition model hmatters (spelledAlike_map hentries)
    generalize build ⟨document, dialect⟩ (.map entries) name isDefinition = built,
      build ⟨document', dialect⟩ (.map entries') name isDefinition = built' at hne ⊢
    cases built with
    | ok model =>
      refine ⟨fun heq => ?_, fun hnone => nomatch (hnone hmatters).1⟩
      cases built' with
      | ok model' => exact absurd (congrArg Except.ok (Option.some.inj heq).symm) (hne model rfl)
      | error failure => cases heq
    | error failure => exact ⟨fun heq _ => ⟨rfl, heq.symm⟩, fun hnone => (hnone hmatters).2.symm⟩
  · have hsame := hdocument.build_inStep (.map hentries hmatters) name isDefinition
    exact ⟨fun _ h => absurd h hmatters, fun _ => hsame.toOption_eq⟩

/-- A crate takes over what a definition declares, and both have objects with further properties. -/
def crateDocument (further : Node) : Node := .map
  [(.str "components", .map [(.str "schemas", .map [(.str "Bag", bag)])])]
where
  labels : Node := .map [(.str "type", .str "object"), (.str "additionalProperties", further)]
  bag : Node := .map [(.str "properties", .map [(.str "labels", labels)])]

def crate (further : Node) : Entries :=
  [(.str "allOf", .list [.map [(.str "$ref", .str "#/components/schemas/Bag")]]),
    (.str "required", .list [.str "labels"]),
    (.str "properties", .map [(.str "extra", crateDocument.labels further)])]

theorem respelled_labels :
    Respelled (crateDocument.labels (.bool true)) (crateDocument.labels (.map [])) := by
  refine .map (.cons (.same _) (.cons (.anything rfl) .nil)) fun h => ?_
  have hproperties := h.properties
  cases hproperties

theorem respelled_bag : Respelled (crateDocument.bag (.bool true)) (crateDocument.bag (.map [])) :=
  .map (.cons (.properties rfl (.cons (.mk _ respelled_labels) .nil)) .nil) fun h => nomatch h.flag

theorem respelledDocument_crate : RespelledDocument .v3 (crateDocument (.bool true))
    (crateDocument (.map [])) (.map (crate (.bool true))) where
  definitions := .cons (.mk _ respelled_bag) .nil
  resolve ref href := by
    have hsegments : Reference.segments? "#/components/schemas/Bag" =
        some ["components", "schemas", "Bag"] := by decide +kernel
    have hbag (further : Node) : Reference.resolve (crateDocument further)
        (.str "#/components/schemas/Bag") = .ok (crateDocument.bag further) := by
      rw [Reference.resolve, hsegments]
      rfl
    have hone : ref = "#/components/schemas/Bag" := by
      simpa [crateDocument, crate, crateDocument.bag, crateDocument.labels, Node.references,
        Node.referencesOfEntries, Node.referencesOfItems, Node.str?] using href
    rw [hone, hbag, hbag]
    exact respelled_bag

theorem respelled_crate :
    List.Forall₂ RespelledEntry (crate (.bool true)) (crate (.map [])) :=
  .cons (.same _) (.cons (.same _)
    (.cons (.properties rfl (.cons (.mk _ respelled_labels) .nil)) .nil))

theorem toOption_build_crate : RespelledDocument .v3 (crateDocument (.bool true))
      (crateDocument (.map [])) (.map (crate (.bool true))) ∧
    List.Forall₂ RespelledEntry (crate (.bool true)) (crate (.map [])) ∧
    ∃ model, (build ⟨crateDocument (.bool true), .v3⟩ (.map (crate (.bool true))) "Crate"
        true).toOption = some model ∧
      (build ⟨crateDocument (.map []), .v3⟩ (.map (crate (.map []))) "Crate" true).toOption =
        some model := by
  have hok : (build ⟨crateDocument (.bool true), .v3⟩ (.map (crate (.bool true))) "Crate"
      true).isOk = true := by
    rw [build_eq fun _ => .error (.malformed .endless)]
    decide +kernel
  obtain ⟨model, hmodel⟩ := Except.exists_of_isOk hok
  have heq := (toOption_build_eq_iff_of_respelled respelledDocument_crate respelled_crate "Crate"
    true).mpr fun h => nomatch h.flag
  have hsome := congrArg Except.toOption hmodel
  exact ⟨respelledDocument_crate, respelled_crate, model, hsome, heq.symm.trans hsome⟩

/-- An object that declares a property besides its further properties. -/
def labelled (further : Node) : Entries :=
  [(.str "type", .str "object"), (.str "additionalProperties", further),
    (.str "properties", .map [(.str "name", .map [(.str "type", .str "string")])])]

theorem kind_labelled : ((build ⟨.map [], .v3⟩ (.map (labelled (.bool true))) "" false).toOption.map
      (·.kind), (build ⟨.map [], .v3⟩ (.map (labelled (.map []))) "" false).toOption.map (·.kind)) =
    (some .record, some .dictionary) := by
  rw [build_eq fun _ => .error (.malformed .endless)]
  decide +kernel

/-- With a schema that says nothing, an object is a dictionary whatever it declares. -/
theorem not_toOption_build_eq_of_respelled : ¬ ∀ (dialect : Dialect) (document : Node)
    (entries entries' : Entries), List.Forall₂ RespelledEntry entries entries' →
      ∀ (name : String) (isDefinition : Bool),
        (build ⟨document, dialect⟩ (.map entries) name isDefinition).toOption =
          (build ⟨document, dialect⟩ (.map entries') name isDefinition).toOption := by
  intro h
  have heq := h .v3 (.map []) (labelled (.bool true)) (labelled (.map []))
    (.cons (.same _) (.cons (.anything rfl) (.cons (.same _) .nil))) "" false
  have hkinds := kind_labelled
  rw [heq, Prod.mk.injEq] at hkinds
  cases hkinds.1.symm.trans hkinds.2

end OpenApi.Schema
