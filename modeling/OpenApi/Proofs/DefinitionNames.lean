import Mathlib.Data.List.Pairwise
import OpenApi.Proofs.CamelCase
import OpenApi.Proofs.Inventory
import OpenApi.Proofs.MovedReferences
import OpenApi.Proofs.Numerals
import OpenApi.Proofs.OwnProperties

/-
Which definitions share a name.

Operations of one name are numbered, models are not.  The model of a definition is named by its key:
the key is read as a type token, what remains of it is made an identifier, and a reserved word gets
an underscore.  Keys that come to the same in this are named alike (`NamedAlike`), and the models of
a client have different names exactly when no two of its keys are.  The schemas and the parameters
of a description are two maps, so a key may also occur in both.

A key that is an identifier already stays as it is, unless it is a primitive type.  Among such keys
only a reserved word is named like another key: itself with an underscore.
-/
namespace OpenApi

/-! ### Names apart from reserved words -/

namespace Name

/-- Whether two names are the same when reserved words are avoided. -/
def SameAvoided (s t : String) : Prop :=
  s = t ∨ s ∈ reserved ∧ t = s ++ "_" ∨ t ∈ reserved ∧ s = t ++ "_"

theorem append_not_mem_reserved : ∀ word ∈ reserved, word ++ "_" ∉ reserved := by decide +kernel

theorem avoidReserved_eq_iff {s t : String} :
    avoidReserved s = avoidReserved t ↔ SameAvoided s t := by
  constructor
  · intro h
    unfold avoidReserved at h
    by_cases hs : s ∈ reserved
    · rw [if_pos hs] at h
      by_cases ht : t ∈ reserved
      · rw [if_pos ht] at h
        exact .inl ((String.append_left_inj "_").mp h)
      · rw [if_neg ht] at h
        exact .inr (.inl ⟨hs, h.symm⟩)
    · rw [if_neg hs] at h
      by_cases ht : t ∈ reserved
      · rw [if_pos ht] at h
        exact .inr (.inr ⟨ht, h⟩)
      · rw [if_neg ht] at h
        exact .inl h
  · have hword {word : String} (hw : word ∈ reserved) :
        avoidReserved word = avoidReserved (word ++ "_") := by
      rw [avoidReserved, if_pos hw, avoidReserved_eq_self_iff.mpr (append_not_mem_reserved word hw)]
    rintro (rfl | ⟨hs, rfl⟩ | ⟨ht, rfl⟩)
    · rfl
    · exact hword hs
    · exact (hword ht).symm

/-- Whether a name is an identifier, and no primitive type. -/
structure IsTypeName (s : String) : Prop where
  head : ∃ c rest, s.toList = c :: rest ∧ isHead c = true
  tail : s.toList.all isTail = true
  special : Dialect.primitive? s = none

theorem isBlank_of_isTail {c : Char} (h : isTail c = true) : Text.isBlank c = false := by
  have hcode : 36 ≤ c.toNat ∧ c.toNat ≤ 122 := by
    rw [isTail, Bool.or_eq_true, Bool.or_eq_true, beq_iff_eq, beq_iff_eq] at h
    rcases h with (h | rfl) | rfl
    · have hrange := toNat_of_isAlphanum h
      omega
    · decide
    · decide
  unfold Text.isBlank
  simp only [Bool.or_eq_false_iff, Bool.and_eq_false_iff, decide_eq_false_iff_not, beq_eq_false_iff_ne]
  omega

theorem squeeze_of_all {keep : Char → Bool} {mark : Char} {cs : List Char}
    (h : ∀ c ∈ cs, keep c = true) : squeeze keep mark cs = cs := by
  induction cs with
  | nil => rfl
  | cons c rest ih =>
    rw [List.forall_mem_cons] at h
    rw [squeeze, if_pos h.1, ih h.2]

theorem IsTypeName.not_mem {s : String} {c : Char} (h : IsTypeName s) (hc : isTail c = false) :
    c ∉ s.toList := by
  intro hmem
  rw [List.all_eq_true.mp h.tail c hmem] at hc
  cases hc

end Name

namespace TypeUse

theorem ofDefinition_of_isTypeName {name : String} (h : Name.IsTypeName name) :
    ofDefinition name.toList = { ofName name with imports := [name] } := by
  obtain ⟨c, rest, hcons, hhead⟩ := h.head
  have hrest : ∀ d ∈ rest, Name.isTail d = true := fun d hd =>
    List.all_eq_true.mp h.tail d (hcons ▸ List.mem_cons_of_mem c hd)
  have hchars : String.ofList (Name.typeChars name.toList) = name := by
    rw [hcons, Name.typeChars_cons hhead, Name.squeeze_of_all hrest, ← hcons, String.ofList_toList]
  have hname : ¬ name.isEmpty = true := by
    rw [String.isEmpty_iff, ← String.toList_inj, hcons]
    exact List.cons_ne_nil c rest
  rw [ofDefinition, hchars]
  exact if_neg hname

theorem base_of_isTypeName {dialect : Dialect} {key : String} (h : Name.IsTypeName key) :
    (ofToken dialect key.toList).base = key := by
  have hunmarked : Migration.isUnmarked key.toList = true :=
    Migration.isUnmarked_iff.mpr ⟨h.not_mem (by decide), h.not_mem (by decide)⟩
  have htrim : Text.trim key.toList = key.toList :=
    Text.trimBy_eq_self fun c hc => Name.isBlank_of_isTail (List.all_eq_true.mp h.tail c hc)
  have hprimitive : Dialect.primitive? (String.ofList key.toList) = none := by
    rw [String.ofList_toList, h.special]
  rw [ofToken_of_not_primitive hprimitive, plainToken_of_isUnmarked hunmarked, htrim,
    ofPlain_of_not_mem (h.not_mem (by decide)), ofDefinition_of_isTypeName h]
  rfl

end TypeUse

/-! ### Keys -/

/-- The keys of everything that has a model of its own: schemas, and parameters with a schema. -/
def definedKeys (scope : Scope) : List Scalar :=
  (declaredSchemas scope ++ declaredParameters scope).map (·.1)

/-- Whether the definitions with two keys have the same name. -/
def NamedAlike (dialect : Dialect) (a b : Scalar) : Prop :=
  ∃ text text', a.text? = some text ∧ b.text? = some text' ∧
    Name.SameAvoided (TypeUse.ofToken dialect text.toList).base
      (TypeUse.ofToken dialect text'.toList).base

section
variable {scope : Scope} {a b : Scalar} {name name' : String} {entry : Scalar × Node}
  {model : Model}

theorem modelName_eq_ok_iff : modelName scope a = .ok name ↔ ∃ text, a.text? = some text ∧
    Name.avoidReserved (TypeUse.ofToken scope.dialect text.toList).base = name := by
  rw [modelName, Except.map_eq_ok_iff]
  simp only [Scalar.written_eq_ok_iff]
  rfl

theorem name_eq_iff_namedAlike (ha : modelName scope a = .ok name)
    (hb : modelName scope b = .ok name') : name = name' ↔ NamedAlike scope.dialect a b := by
  obtain ⟨text, htext, rfl⟩ := modelName_eq_ok_iff.mp ha
  obtain ⟨text', htext', rfl⟩ := modelName_eq_ok_iff.mp hb
  rw [Name.avoidReserved_eq_iff]
  constructor
  · exact fun h => ⟨text, text', htext, htext', h⟩
  · rintro ⟨_, _, h, h', hsame⟩
    cases htext.symm.trans h
    cases htext'.symm.trans h'
    exact hsame

theorem NamedAlike.symm {dialect : Dialect} (h : NamedAlike dialect a b) :
    NamedAlike dialect b a := by
  obtain ⟨text, text', htext, htext', hsame⟩ := h
  refine ⟨text', text, htext', htext, ?_⟩
  rcases hsame with heq | hword | hword
  · exact .inl heq.symm
  · exact .inr (.inr hword)
  · exact .inr (.inl hword)

theorem namedAlike_of_isTypeName {s t : String} {dialect : Dialect} (hs : Name.IsTypeName s)
    (ht : Name.IsTypeName t) :
    NamedAlike dialect (.str s) (.str t) ↔ Name.SameAvoided s t := by
  constructor
  · rintro ⟨_, _, h, h', hsame⟩
    cases h
    cases h'
    rw [TypeUse.base_of_isTypeName hs, TypeUse.base_of_isTypeName ht] at hsame
    exact hsame
  · intro hsame
    refine ⟨s, t, rfl, rfl, ?_⟩
    rw [TypeUse.base_of_isTypeName hs, TypeUse.base_of_isTypeName ht]
    exact hsame

/-! ### Models -/

theorem modelName_of_definitionModel (h : definitionModel scope entry = .ok model) :
    modelName scope entry.1 = .ok model.name := by
  obtain ⟨name, hname, h⟩ := Except.bind_eq_ok_iff.mp h
  have hbuilt : Schema.Job.built scope ⟨[], entry.2, name, true⟩ = .ok model := h
  rw [hname, Schema.Job.name_of_built hbuilt]

theorem modelName_of_sharedParameterModel (h : sharedParameterModel scope entry = .ok model) :
    modelName scope entry.1 = .ok model.name := by
  obtain ⟨name, hname, h⟩ := Except.bind_eq_ok_iff.mp h
  obtain ⟨before, hbuild, h⟩ := Except.bind_eq_ok_iff.mp h
  have hbuilt : Schema.Job.built scope ⟨[], entry.2.get "schema", name, true⟩ = .ok before := hbuild
  cases h
  rw [hname]
  exact congrArg _ (Schema.Job.name_of_built hbuilt).symm

end

namespace Client

variable {shop : Workshop} {root : Entries} {models : List Model} {client : Client}
  {dialect : Dialect}

/-- Every key gives a model its name, and there are no other models. -/
theorem MadeFrom.exists_names (made : client.MadeFrom shop root models) : ∃ names,
    List.Forall₂ (fun key name => modelName shop.toScope key = .ok name) (definedKeys shop.toScope)
        names ∧
      names.Perm (client.models.map Model.name) := by
  obtain ⟨schemas, parameters, hschemas, hparameters, hperm⟩ := made.exists_models
  refine ⟨(schemas ++ parameters).map Model.name, ?_, hperm.map Model.name⟩
  rw [definedKeys, List.forall₂_map_left_iff, List.forall₂_map_right_iff]
  refine List.rel_append (hschemas.imp ?_) (hparameters.imp ?_)
  · rintro entry model ⟨built, hbuilt, rfl⟩
    rw [Model.name_tidy]
    exact modelName_of_definitionModel hbuilt
  · rintro entry model ⟨built, hbuilt, rfl⟩
    rw [Model.name_tidy]
    exact modelName_of_sharedParameterModel hbuilt

theorem nodup_names_iff_pairwise {scope : Scope} {keys : List Scalar} {names : List String}
    (h : List.Forall₂ (fun key name => modelName scope key = .ok name) keys names) :
    names.Nodup ↔ keys.Pairwise fun a b => ¬ NamedAlike scope.dialect a b := by
  have hmap : keys.map (modelName scope) = names.map .ok := by
    rw [← List.forall₂_eq_eq_eq, List.forall₂_map_left_iff, List.forall₂_map_right_iff]
    exact h
  have hnodup : names.Nodup ↔ (keys.map (modelName scope)).Nodup := by
    rw [hmap, List.nodup_map_iff fun _ _ => Except.ok.inj]
  have hnamed {key : Scalar} (hkey : key ∈ keys) : ∃ name, modelName scope key = .ok name :=
    Except.exists_of_mapM (Except.mapM_eq_ok_iff.mpr h) hkey
  rw [hnodup, List.nodup_iff_pairwise_ne, List.pairwise_map]
  refine List.Pairwise.iff_of_mem fun {a b} ha hb => ?_
  obtain ⟨name, hname⟩ := hnamed ha
  obtain ⟨name', hname'⟩ := hnamed hb
  rw [ne_eq, hname, hname', Except.ok.injEq, name_eq_iff_namedAlike hname hname']

theorem pairwise_not_namedAlike_iff {keys : List Scalar}
    (h : ∀ key ∈ keys, ∃ s, key = .str s ∧ Name.IsTypeName s) :
    (keys.Pairwise fun a b => ¬ NamedAlike dialect a b) ↔
      keys.Nodup ∧ ∀ word ∈ Name.reserved, .str word ∈ keys → .str (word ++ "_") ∉ keys := by
  have halike {s t : String} (hs : .str s ∈ keys) (ht : .str t ∈ keys) :
      NamedAlike dialect (.str s) (.str t) ↔ Name.SameAvoided s t := by
    obtain ⟨_, heq, hname⟩ := h _ hs
    cases heq
    obtain ⟨_, heq, hname'⟩ := h _ ht
    cases heq
    exact namedAlike_of_isTypeName hname hname'
  constructor
  · intro hpairs
    have hsymm : Std.Symm fun a b => ¬ NamedAlike dialect a b :=
      ⟨fun a b hab hba => hab hba.symm⟩
    refine ⟨hpairs.imp_of_mem fun {a b} ha _ hab heq => ?_, fun word hword hmem hmem' => ?_⟩
    · obtain ⟨s, rfl, _⟩ := h a ha
      subst heq
      exact hab ((halike ha ha).mpr (.inl rfl))
    · have hne : Scalar.str word ≠ .str (word ++ "_") := by
        intro heq
        have happend := (Scalar.str.inj heq).symm.trans (String.append_empty).symm
        exact absurd ((String.append_right_inj word).mp happend) (by decide)
      exact hpairs.forall hmem hmem' hne ((halike hmem hmem').mpr (.inr (.inl ⟨hword, rfl⟩)))
  · rintro ⟨hnodup, hwords⟩
    refine hnodup.pairwise_of_forall_ne fun a ha b hb hne hab => ?_
    obtain ⟨s, rfl, _⟩ := h a ha
    obtain ⟨t, rfl, _⟩ := h b hb
    rcases (halike ha hb).mp hab with rfl | ⟨hword, rfl⟩ | ⟨hword, rfl⟩
    · exact hne rfl
    · exact hwords s hword ha hb
    · exact hwords t hword hb ha

/-- Which clients have models with different names: those of whose definitions no two are named
alike.  If all keys are identifiers and no primitive types, it is enough that they differ and that
none is a reserved word which another one is with an underscore. -/
theorem nodup_names_models_iff {preferences : Preferences} {document : Node}
    (h : (resolve preferences document).client = .ok client) :
    ∃ dialect, Dialect.detect document = .ok dialect ∧
      ((client.models.map Model.name).Nodup ↔
        (definedKeys ⟨document, dialect⟩).Pairwise fun a b => ¬ NamedAlike dialect a b) ∧
      ((∀ key ∈ definedKeys ⟨document, dialect⟩, ∃ s, key = .str s ∧ Name.IsTypeName s) →
        ((client.models.map Model.name).Nodup ↔
          (definedKeys ⟨document, dialect⟩).Nodup ∧ ∀ word ∈ Name.reserved,
            .str word ∈ definedKeys ⟨document, dialect⟩ →
              .str (word ++ "_") ∉ definedKeys ⟨document, dialect⟩)) := by
  obtain ⟨dialect, root, models, hdetect, made⟩ := exists_madeFrom_of_resolve h
  obtain ⟨names, hnames, hperm⟩ := made.exists_names
  have hiff := hperm.nodup_iff.symm.trans (nodup_names_iff_pairwise hnames)
  exact ⟨dialect, hdetect, hiff, fun hkeys => hiff.trans (pairwise_not_namedAlike_iff hkeys)⟩

theorem nodup_names_taggedDocument : ∃ client,
    (resolve {} taggedDocument).client = .ok client ∧ (client.models.map Model.name).Nodup := by
  obtain ⟨client, hclient⟩ := Except.exists_of_isOk resolve_taggedDocument
  obtain ⟨dialect, hdetect, _, hiff⟩ := nodup_names_models_iff hclient
  have hdialect : Dialect.detect taggedDocument = .ok .v3 := rfl
  cases hdialect.symm.trans hdetect
  have hkeys : definedKeys ⟨taggedDocument, .v3⟩ = [.str "Pet", .str "limit"] := rfl
  have hpet : Name.IsTypeName "Pet" := ⟨⟨'P', ['e', 't'], rfl, by decide⟩, by decide, by decide⟩
  have hlimit : Name.IsTypeName "limit" :=
    ⟨⟨'l', ['i', 'm', 'i', 't'], rfl, by decide⟩, by decide, by decide⟩
  refine ⟨client, hclient, (hiff ?_).mpr ?_⟩
  · rw [hkeys]
    exact List.forall_mem_cons.mpr ⟨⟨"Pet", rfl, hpet⟩,
      List.forall_mem_singleton.mpr ⟨"limit", rfl, hlimit⟩⟩
  · rw [hkeys]
    decide +kernel

/-- A description with two definitions whose keys come to the same identifier. -/
def dottedDocument : Node := .map
  [(.str "openapi", .str "3.0.0"), (.str "paths", .map []),
    (.str "components", .map [(.str "schemas", .map
      [(.str "Foo.Bar", .map [(.str "type", .str "object")]),
        (.str "Foo_Bar", .map [(.str "type", .str "object")])])])]

theorem resolve_dottedDocument : (resolve {} dottedDocument).client.isOk = true := by
  rw [@client_resolve_eq {} dottedDocument .v3 _ rfl rfl]
  delta definitionModels definitionModel sharedParameterModel
  rw [Schema.build_eq fun _ => .error (.malformed .endless)]
  decide +kernel

theorem not_nodup_names_models : ¬ ∀ (preferences : Preferences) (document : Node) (client : Client),
    (resolve preferences document).client = .ok client →
      (client.models.map Model.name).Nodup := by
  intro h
  obtain ⟨client, hclient⟩ := Except.exists_of_isOk resolve_dottedDocument
  obtain ⟨dialect, root, models, hdetect, made⟩ := exists_madeFrom_of_resolve hclient
  obtain ⟨names, hnames, hperm⟩ := made.exists_names
  have hdialect : Dialect.detect dottedDocument = .ok .v3 := rfl
  cases hdialect.symm.trans hdetect
  have hnodup := hperm.nodup_iff.mpr (h {} dottedDocument client hclient)
  have hpairs := (nodup_names_iff_pairwise hnames).mp hnodup
  have hkeys : definedKeys ⟨dottedDocument, .v3⟩ = [.str "Foo.Bar", .str "Foo_Bar"] := rfl
  have halike : NamedAlike .v3 (.str "Foo.Bar") (.str "Foo_Bar") :=
    ⟨"Foo.Bar", "Foo_Bar", rfl, rfl, .inl (by decide +kernel)⟩
  rw [hkeys] at hpairs
  exact List.rel_of_pairwise_cons hpairs List.mem_cons_self halike

end Client
end OpenApi
