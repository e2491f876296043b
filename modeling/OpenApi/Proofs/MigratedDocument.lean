import OpenApi.Proofs.Entries
import OpenApi.Proofs.InStep
import OpenApi.Proofs.MovedReferences
import OpenApi.Proofs.Numerals
import OpenApi.Proofs.Resolution

/-
A description after it has been rewritten.

Its definitions stand at another place, and the references to them name this place, so a reference
leads to the rewritten definition if it led to one before, and nowhere if it led nowhere
(`resolve_str_inStep`).  Discriminators are looked up in the definitions and tell them apart by the
names in references, which stay the same.
-/
namespace OpenApi.Migration

open Entries Reference

/-! ### Rearranged entries -/

/-- A member of a description that does not move. -/
theorem get?_arrangeDocument {key : String}
    (h : key ∉ ["swagger", "openapi", "definitions", "components"]) (entries : Entries) :
    Entries.get? key (arrangeDocument entries) = Entries.get? key entries := by
  have hopenapi : Scalar.str "openapi" ≠ .str key := by
    rintro ⟨⟩
    exact h (by decide)
  have hcomponents : Scalar.str "components" ≠ .str key := by
    rintro ⟨⟩
    exact h (by decide)
  have hkept (value : Node) :
      (!hasKey ["swagger", "openapi", "definitions"] (.str key, value)) = true := by
    have hout : key ∉ ["swagger", "openapi", "definitions"] := fun hmem =>
      h (List.mem_append_left ["components"] hmem)
    simpa [hasKey] using hout
  rw [arrangeDocument, List.cons_append, Entries.get?, if_neg hopenapi, get?_append,
    get?_filter _ _ _ hkept]
  cases Entries.get? "definitions" entries with
  | none => exact Option.or_none
  | some definitions =>
    rw [Entries.get?, if_neg hcomponents]
    exact Option.or_none

theorem get?_components (entries : Entries) (h : Entries.get? "components" entries = none) :
    Entries.get? "components" (arrangeDocument entries) =
      (Entries.get? "definitions" entries).map (single "schemas") := by
  rw [arrangeDocument, List.cons_append, Entries.get?, if_neg (by decide), get?_append,
    get?_filter _ _ _ fun _ => rfl, h]
  cases Entries.get? "definitions" entries with
  | none => rfl
  | some definitions => rfl

/-- The members of a description after it has been rewritten. -/
def moved (root : Entries) : Entries := arrangeDocument (migrateEntries .document root)

theorem migrate_document (root : Entries) :
    migrate .document (.map root) = .map (moved root) := by
  rw [migrate]
  rfl

section
variable {root : Entries}

theorem get?_moved {key : String}
    (h : key ∉ ["swagger", "openapi", "definitions", "components"]) (root : Entries) :
    Entries.get? key (moved root) =
      (Entries.get? key root).map (migrate (Place.child .document (.str key))) := by
  rw [moved, get?_arrangeDocument h, get?_migrateEntries]

theorem Migratable.get?_eq_none (h : Migratable (.map root)) {key : String}
    (hkey : key ∈ ["schemes", "host", "basePath", "servers", "components"]) :
    Entries.get? key root = none :=
  Node.get?_eq_none_of_not_has (List.all_eq_true.mp h.regular.allowed key hkey)

theorem Migratable.get?_components (h : Migratable (.map root)) :
    Entries.get? "components" (moved root) =
      ((Entries.get? "definitions" root).map (migrate .definitions)).map (single "schemas") := by
  have hnone : Entries.get? "components" (migrateEntries .document root) = none := by
    rw [get?_migrateEntries, h.get?_eq_none (by decide), Option.map_none]
  rw [moved, Migration.get?_components _ hnone, get?_migrateEntries]
  rfl

theorem detect_moved (root : Entries) : Dialect.detect (.map (moved root)) = .ok .v3 := by
  have hmarker : Dialect.marker (moved root) = .str "3.0.0" := by
    have hswagger : Entries.get? "swagger" (moved root) = none := by
      rw [moved, arrangeDocument, List.cons_append, Entries.get?, if_neg (by decide), get?_append,
        get?_filter_eq_none _ _ _ fun _ => rfl]
      cases Entries.get? "definitions" (migrateEntries .document root) with
      | none => rfl
      | some definitions => rfl
    rw [Dialect.marker, hswagger]
    rfl
  have hversion : Dialect.ofVersion? "3.0.0" = some .v3 := by decide +kernel
  rw [Dialect.detect, Dialect.members_bind, hmarker]
  dsimp only
  rw [hversion]

/-! ### References -/

/-- A definition is found under the same key as before, or at the same index. -/
theorem step_inStep (node : Node) (key : String) :
    InStep (migrate .schema) (step node key) (step (migrate .definitions node) key) := by
  cases node with
  | map entries =>
    rw [migrate_map rfl, step, step, get?_migrateEntries]
    cases Entries.get? key entries with
    | none => exact True.intro
    | some value => exact (rfl : migrate .schema value = migrate .schema value)
  | list items =>
    have hitem : (Numeral.signed? key.toList).bind (item? (migrateItems .schema items)) =
        ((Numeral.signed? key.toList).bind (item? items)).map (migrate .schema) := by
      cases Numeral.signed? key.toList with
      | none => rfl
      | some index =>
        rw [migrateItems_eq]
        exact item?_map _ items index
    have hmoved : migrate .definitions (.list items) = .list (migrateItems .schema items) := by
      rw [migrate]
      rfl
    rw [hmoved, step, step, hitem]
    cases (Numeral.signed? key.toList).bind (item? items) with
    | none => exact True.intro
    | some value => exact (rfl : migrate .schema value = migrate .schema value)
  | scalar s =>
    rw [migrate_scalar (by decide)]
    exact True.intro
  | _ => exact True.intro

theorem walk_single (node : Node) (key : String) : walk node [key] = step node key := by
  rw [walk]
  cases step node key <;> rfl

theorem walk_definitions (root : Entries) (key : String) :
    walk (.map root) (Dialect.v2.schemasPath ++ [key]) =
      match Entries.get? "definitions" root with
      | some definitions => step definitions key
      | none => .error (.missingKey "definitions") := by
  show walk (.map root) ["definitions", key] = _
  rw [walk, step]
  cases Entries.get? "definitions" root with
  | none => rfl
  | some definitions => exact walk_single definitions key

theorem Migratable.walk_schemas (h : Migratable (.map root)) (key : String) :
    walk (.map (moved root)) (Dialect.v3.schemasPath ++ [key]) =
      match Entries.get? "definitions" root with
      | some definitions => step (migrate .definitions definitions) key
      | none => .error (.missingKey "components") := by
  show walk (.map (moved root)) ["components", "schemas", key] = _
  rw [walk, step, h.get?_components]
  cases Entries.get? "definitions" root with
  | none => rfl
  | some definitions => exact walk_single (migrate .definitions definitions) key

/-- A reference to a definition leads to the rewritten definition, if it leads anywhere. -/
theorem Migratable.resolve_str_inStep (h : Migratable (.map root)) {ref : String}
    (hlocal : isLocal ref = true) :
    InStep (migrate .schema) (resolve (.map root) (.str ref))
      (resolve (.map (moved root)) (.str (movedText ref))) := by
  obtain ⟨segment, hold, hnew⟩ := exists_names_of_isLocal hlocal
  rw [resolve, resolve, hold.segments?_eq, hnew.segments?_eq]
  dsimp only
  rw [walk_definitions, h.walk_schemas]
  cases Entries.get? "definitions" root with
  | none => exact True.intro
  | some definitions =>
    have hstep := step_inStep definitions (String.ofList (decode segment))
    dsimp only
    rcases hstep.cases with ⟨target, hfound, hfound'⟩ | ⟨fault, fault', hfound, hfound'⟩
    · rw [hfound, hfound']
      exact (rfl : migrate .schema target = migrate .schema target)
    · rw [hfound, hfound']
      exact True.intro

/-- What a reference is: a text for a definition, or nothing that leads anywhere. -/
theorem isLocal_or_kind_ne {ref : Node} (h : Regular .reference ref) :
    (∃ text, ref = .str text ∧ isLocal text = true) ∨ ref.kind ≠ .str := by
  by_cases hkind : ref.kind = .str
  · obtain ⟨text, rfl⟩ := Node.exists_text_of_kind hkind
    exact .inl ⟨text, rfl, h.allowed⟩
  · exact .inr hkind

/-- A definition that is looked up is as the rewriting asks, and so is the key it is found under. -/
theorem regular_of_step {definitions target : Node} {key : String}
    (h : Regular .definitions definitions) (hstep : step definitions key = .ok target) :
    Regular .schema target ∧ isUnmarked key.toList = true := by
  unfold step at hstep
  split at hstep
  · rename_i entries
    split at hstep
    · rename_i value hvalue
      cases hstep
      exact ⟨h.entry hvalue, h.isUnmarked_key (Node.mem_of_get?_entries hvalue)⟩
    · cases hstep
  · split at hstep
    · rename_i items value hvalue
      cases hstep
      obtain ⟨index, hindex, hitem⟩ := Option.bind_eq_some_iff.mp hvalue
      refine ⟨(regular_list_iff.mp h).2 _ (mem_of_item? hitem), isUnmarked_iff.mpr ⟨?_, ?_⟩⟩
      · exact Numeral.not_mem_of_signed? (by decide +kernel) (by decide) (by decide) hindex
      · exact Numeral.not_mem_of_signed? (by decide +kernel) (by decide) (by decide) hindex
    · cases hstep
  · cases hstep

theorem regular_of_resolve_str (hroot : Regular .document (.map root)) {ref : String}
    {segment : List Char} {target : Node} (hnames : Names .v2 ref segment)
    (h : resolve (.map root) (.str ref) = .ok target) :
    Regular .schema target ∧ isUnmarked (decode segment) = true := by
  rw [resolve, hnames.segments?_eq] at h
  dsimp only at h
  rw [walk_definitions] at h
  cases hfound : Entries.get? "definitions" root with
  | none =>
    rw [hfound] at h
    cases h
  | some definitions =>
    rw [hfound] at h
    have hregular : Regular .definitions definitions := hroot.entry hfound
    dsimp only at h
    split at h
    · rename_i node hstep
      cases h
      have hboth := regular_of_step hregular hstep
      rw [String.toList_ofList] at hboth
      exact hboth
    · cases h

/-- What a reference leads to is as the rewriting asks. -/
theorem Migratable.regular_of_resolve (h : Migratable (.map root)) {ref : String} {target : Node}
    (hlocal : isLocal ref = true) (hresolve : resolve (.map root) (.str ref) = .ok target) :
    Regular .schema target := by
  obtain ⟨segment, hnames, _⟩ := exists_names_of_isLocal hlocal
  exact (regular_of_resolve_str h.regular hnames hresolve).1

end

/-! ### Names and types in references -/

/-- A description in Swagger 2, and the rewritten description in OpenAPI 3. -/
def before (root : Entries) : Scope := ⟨.map root, .v2⟩

def after (root : Entries) : Scope := ⟨.map (moved root), .v3⟩

section
variable {root : Entries}

theorem Migratable.typeOf_movedText (h : Migratable (.map root)) {ref : String} {target : Node}
    (hlocal : isLocal ref = true) (hresolve : resolve (.map root) (.str ref) = .ok target) :
    (after root).typeOf (.str (movedText ref)) .null = (before root).typeOf (.str ref) .null := by
  obtain ⟨segment, hold, hnew⟩ := exists_names_of_isLocal hlocal
  have hkey := (regular_of_resolve_str h.regular hold hresolve).2
  show Except.ok (TypeUse.ofToken .v3 (movedText ref).toList) =
    Except.ok (TypeUse.ofToken .v2 ref.toList)
  rw [hnew.ofToken_eq hold hkey]

theorem localName_movedText {ref : String} (h : isLocal ref = true) :
    (after root).localName (movedText ref) = (before root).localName ref := by
  obtain ⟨segment, hold, hnew⟩ := exists_names_of_isLocal h
  show String.ofList (Name.withoutNamespaces Dialect.v3.namespaces (movedText ref).toList) =
    String.ofList (Name.withoutNamespaces Dialect.v2.namespaces ref.toList)
  rw [hnew.withoutNamespaces_eq, hold.withoutNamespaces_eq]

/-- The type of a token without marks. -/
theorem typeOf_type {type : Node} (h : Regular .type type) (format : Node) :
    (after root).typeOf type format = (before root).typeOf type format := by
  show TypeUse.ofNode .v3 type format = TypeUse.ofNode .v2 type format
  unfold TypeUse.ofNode
  split
  · rfl
  · rfl
  · rename_i token _
    rw [TypeUse.ofText_of_isUnmarked .v2 h.allowed]
  · rfl

/-! ### Discriminators -/

theorem refersTo_of_kind_ne {scope : Scope} {node : Node} (h : (node.get "$ref").kind ≠ .str)
    (name : String) : scope.refersTo name node = false := by
  unfold Scope.refersTo
  split
  · rename_i ref heq
    rw [heq] at h
    exact absurd rfl h
  · rfl

theorem refersTo_migrate {node : Node} (h : Regular .schema node) (name : String) :
    (after root).refersTo name (migrate .schema node) = (before root).refersTo name node := by
  have hget : (migrate .schema node).get "$ref" = migrate .reference (node.get "$ref") :=
    get_migrate rfl "$ref" node
  have href : Regular .reference (node.get "$ref") := h.get "$ref"
  rcases isLocal_or_kind_ne href with ⟨text, htext, hlocal⟩ | hkind
  · rw [Scope.refersTo, Scope.refersTo, hget, htext, migrate_reference]
    dsimp only
    rw [localName_movedText hlocal]
  · rw [refersTo_of_kind_ne hkind, refersTo_of_kind_ne (by rwa [hget, kind_migrate])]

theorem discriminatorOf?_migrate {definition : Node} (h : Regular .schema definition)
    (name : String) :
    (after root).discriminatorOf? name (migrate .schema definition) =
      ((before root).discriminatorOf? name definition).map (migrate .discriminator) := by
  have hentries : ((migrate .schema definition).get "discriminator").entries? =
      (definition.get "discriminator").entries?.map (migrateEntries .discriminator) := by
    rw [get_migrate rfl]
    exact entries?_migrate rfl _
  have hmembers : ((migrate .schema definition).get "oneOf").items? =
      (definition.get "oneOf").items?.map (List.map (migrate .schema)) := by
    rw [get_migrate rfl]
    exact items?_migrate .members _
  rw [Scope.discriminatorOf?_eq, Scope.discriminatorOf?_eq, hentries, hmembers]
  cases (definition.get "discriminator").entries? with
  | none => rfl
  | some entries =>
    cases hitems : (definition.get "oneOf").items? with
    | none => rfl
    | some members =>
      have hmember (member : Node) (hmem : member ∈ members) : Regular .schema member :=
        (h.get "oneOf").of_mem_items? (by rwa [hitems])
      have hany : (members.map (migrate .schema)).any ((after root).refersTo name) =
          members.any ((before root).refersTo name) := by
        rw [List.any_map, Bool.eq_iff_iff, List.any_eq_true, List.any_eq_true]
        refine exists_congr fun member => and_congr_right fun hmem => ?_
        rw [Function.comp_apply, refersTo_migrate (hmember member hmem)]
      show (if (members.map (migrate .schema)).any ((after root).refersTo name) then _ else none) =
        Option.map _
          (if members.any ((before root).refersTo name) then some (Node.map entries) else none)
      rw [hany]
      by_cases hrefers : members.any ((before root).refersTo name) = true
      · rw [if_pos hrefers, if_pos hrefers, Option.map_some, migrate_map rfl]
      · rw [if_neg hrefers, if_neg hrefers, Option.map_none]

/-- The definitions are those of the description, each rewritten. -/
theorem Migratable.schemas_after (h : Migratable (.map root)) :
    (after root).dialect.schemas (after root).document =
      migrateEntries .definitions (Dialect.schemas .v2 (.map root)) := by
  show ((((Node.map (moved root)).get "components").get "schemas").entries?.getD []) =
    migrateEntries .definitions (((Node.map root).get "definitions").entries?.getD [])
  have hcomponents : (Node.map (moved root)).get "components" =
      (((Entries.get? "definitions" root).map (migrate .definitions)).map
        (single "schemas")).getD .null := by
    rw [Node.get, Node.get?, h.get?_components]
  have hdefinitions : (Node.map root).get "definitions" =
      (Entries.get? "definitions" root).getD .null := rfl
  rw [hcomponents, hdefinitions]
  cases Entries.get? "definitions" root with
  | none => rfl
  | some definitions =>
    show (migrate .definitions definitions).entries?.getD [] =
      migrateEntries .definitions (definitions.entries?.getD [])
    rw [entries?_migrate rfl]
    cases definitions.entries? <;> rfl

theorem Migratable.regular_of_mem_schemas (h : Migratable (.map root)) {e : Scalar × Node}
    (he : e ∈ Dialect.schemas .v2 (.map root)) : Regular .schema e.2 :=
  (h.regular.get "definitions").of_mem_entries? he

theorem Migratable.discriminator?_migrate (h : Migratable (.map root)) (name : String) :
    (after root).discriminator? name =
      ((before root).discriminator? name).map (migrate .discriminator) := by
  have hfound (entries : Entries) (hentries : ∀ e ∈ entries, Regular .schema e.2) :
      (migrateEntries .definitions entries).findSome?
          (fun e => (after root).discriminatorOf? name e.2) =
        (entries.findSome? fun e => (before root).discriminatorOf? name e.2).map
          (migrate .discriminator) := by
    induction entries with
    | nil => rfl
    | cons e rest ih =>
      rw [List.forall_mem_cons] at hentries
      have hfirst : (after root).discriminatorOf? name
          (migrate (Place.child .definitions e.1) e.2) = _ :=
        discriminatorOf?_migrate hentries.1 name
      rw [migrateEntries, List.findSome?_cons, List.findSome?_cons, ih hentries.2, hfirst]
      cases (before root).discriminatorOf? name e.2 <;> rfl
  rw [Scope.discriminator?, Scope.discriminator?, h.schemas_after]
  exact hfound _ fun e he => h.regular_of_mem_schemas he

theorem Migratable.regular_of_discriminator? (h : Migratable (.map root)) {name : String}
    {discriminator : Node} (hfound : (before root).discriminator? name = some discriminator) :
    Regular .discriminator discriminator := by
  obtain ⟨e, he, hmatch⟩ := List.exists_of_findSome?_eq_some hfound
  have hof : (before root).discriminatorOf? name e.2 = some discriminator := hmatch
  have hregular : Regular .discriminator (e.2.get "discriminator") :=
    (h.regular_of_mem_schemas he).get "discriminator"
  rw [Scope.discriminatorOf?_eq] at hof
  obtain ⟨entries, hentries, hof⟩ := Option.bind_eq_some_iff.mp hof
  obtain ⟨members, _, hof⟩ := Option.bind_eq_some_iff.mp hof
  split at hof
  · cases hof
    exact Node.eq_map_of_entries? hentries ▸ hregular
  · cases hof

/-- Whether a value of a mapping stands for the named definition. -/
theorem str?_any_migrate {target : Node} (h : Regular .reference target) (name : String) :
    (migrate .reference target).str?.any ((after root).localName · == name) =
      target.str?.any ((before root).localName · == name) := by
  have hnone {node : Node} (hkind : node.kind ≠ .str) : node.str? = none := by
    unfold Node.str?
    split
    · exact absurd rfl hkind
    · rfl
  rcases isLocal_or_kind_ne h with ⟨text, rfl, hlocal⟩ | hkind
  · rw [migrate_reference]
    show ((after root).localName (movedText text) == name) =
      ((before root).localName text == name)
    rw [localName_movedText hlocal]
  · rw [hnone hkind, hnone (by rwa [kind_migrate]), Option.any_none, Option.any_none]

theorem keysFor_migrate {mapping : Node} (h : Regular .mapping mapping) (name : String) :
    (after root).keysFor name (migrate .mapping mapping) =
      (before root).keysFor name mapping := by
  cases mapping with
  | map entries =>
    -- The same entries are chosen before and after, and only their keys are kept.
    have hentries := (regular_map_iff.mp h).2
    rw [migrate_map rfl, Scope.keysFor, Scope.keysFor]
    clear h
    induction entries with
    | nil => rw [migrateEntries, List.filter_nil, List.filter_nil]
    | cons e rest ih =>
      rw [List.forall_mem_cons] at hentries
      obtain ⟨key, target⟩ := e
      have hchild : Place.child .mapping key = .reference := rfl
      have htarget : Regular .reference target := hchild ▸ hentries.1
      rw [migrateEntries, hchild]
      simp only [List.filter_cons, str?_any_migrate htarget name]
      by_cases hkept : target.str?.any ((before root).localName · == name) = true
      · rw [if_pos hkept, if_pos hkept, List.mapM_cons, List.mapM_cons, ih hentries.2]
      · rw [if_neg hkept, if_neg hkept, ih hentries.2]
  | scalar s =>
    rw [migrate_scalar (by decide)]
    rfl
  | _ => rfl

theorem fixedValue_migrate {discriminator : Node} (h : Regular .discriminator discriminator)
    (name : String) :
    (after root).fixedValue name (migrate .discriminator discriminator) =
      (before root).fixedValue name discriminator := by
  have hmapping : (migrate .discriminator discriminator).get "mapping" =
      migrate .mapping (discriminator.get "mapping") := get_migrate rfl _ _
  rw [Scope.fixedValue, Scope.fixedValue, hmapping, keysFor_migrate (h.get "mapping")]

end

end OpenApi.Migration
