import OpenApi.Client.Resolve
import OpenApi.Proofs.Spelling
import OpenApi.Proofs.Termination
import OpenApi.Proofs.TypeTokens

/-
Whether a reference is named as the definition that it leads to.

The model of a reference takes its type from the text of the reference, and the model of a
definition its name from the key.  Both read a type token, but the two tokens are not the same text,
and only the name of the definition is kept apart from reserved words.  This file says for every key
and every reference to it when they agree nevertheless.

The references that lead to a definition can be spelled in many ways.  Where the path to the
definitions is written out and the key is percent-escaped at most, the two tokens come to the same
(`spelledAlike_of_plain`).  The escapes of slashes and tildes are undone when the reference is
looked up, but not when its type is read, so a name that is written with one of them never agrees
(`type_ne_of_hasEscape`).
-/
namespace OpenApi

namespace TypeUse

variable {dialect : Dialect} {ref key : String} {written : List Char}

/-- Of a reference to a definition the text for the key is left. -/
theorem withoutNamespaces_of_trim {cs : List Char}
    (h : Text.trim cs = (Reference.schemasNamespace dialect).toList ++ written)
    (hwhole : '/' ∉ written) : Name.withoutNamespaces dialect.namespaces cs = written := by
  have hmem : Reference.schemasNamespace dialect ∈ dialect.namespaces := by
    cases dialect <;> exact List.mem_cons_self
  exact withoutNamespaces_of_mem hmem h fun start hs hp =>
    hwhole (hp.subset (mem_namespaces_slash hs))

theorem plainToken_of_writesOut (h : Reference.WritesOut dialect ref written) :
    plainToken dialect ref.toList = Text.Percent.decode written := by
  rw [plainToken, withoutNamespaces_of_trim (h.trimmed.trans h.text) h.whole]

/-- A key that is read as it stands. -/
structure PlainKey (dialect : Dialect) (key : String) : Prop where
  unescaped : '%' ∉ key.toList
  trimmed : Text.trim key.toList = key.toList
  outside : ∀ start ∈ dialect.namespaces, ¬ start.toList <+: key.toList

theorem PlainKey.plainToken_eq (h : PlainKey dialect key) :
    plainToken dialect key.toList = key.toList := by
  rw [plainToken, Name.withoutNamespaces, h.trimmed,
    Name.foldl_dropStart_of_not_prefix h.outside, Text.Percent.decode_of_not_mem h.unescaped]

/-- Whether a reference and a key come to the same plain token. -/
def SpelledAlike (dialect : Dialect) (ref key : String) : Prop :=
  plainToken dialect ref.toList = plainToken dialect key.toList

/-- Primitive types that stand for themselves, under names that are not reserved. -/
def selfNamed : List String := ["any", "boolean", "number", "string"]

/-- Whether the name of a definition is what its key says: the key is no other primitive type, takes
no argument and is not reserved. -/
def KeepsName (dialect : Dialect) (key : String) : Prop :=
  key ∈ selfNamed ∨
    Dialect.primitive? key = none ∧ IsName dialect (plainToken dialect key.toList) ∧
      (ofToken dialect key.toList).base ∉ Name.reserved

/-- Whether the type of a reference is the name of the definition with a key.  If the two are not
spelled alike, the escaped base of the one may still happen to be the type of the other. -/
def NamesDefinition (dialect : Dialect) (ref key : String) : Prop :=
  SpelledAlike dialect ref key ∧ KeepsName dialect key ∨
    ¬ SpelledAlike dialect ref key ∧
      (ofToken dialect ref.toList).type = Name.avoidReserved (ofToken dialect key.toList).base

theorem type_eq_iff_of_mem_primitives : ∀ dialect ∈ [Dialect.v2, Dialect.v3],
    ∀ e ∈ Dialect.primitives,
      ((ofPlain dialect (plainToken dialect e.1.toList)).type = Name.avoidReserved e.2 ↔
        e.1 ∈ selfNamed) := by
  decide +kernel

theorem type_eq_iff_of_primitive {meaning : String} (h : (key, meaning) ∈ Dialect.primitives) :
    (ofPlain dialect (plainToken dialect key.toList)).type = Name.avoidReserved meaning ↔
      key ∈ selfNamed :=
  type_eq_iff_of_mem_primitives dialect (by cases dialect <;> decide) (key, meaning) h

theorem ofToken_of_reference {rest : List Char} (h : ref.toList = '#' :: rest) :
    ofToken dialect ref.toList = ofPlain dialect (plainToken dialect ref.toList) := by
  refine ofToken_of_not_primitive ?_
  rw [String.ofList_toList]
  exact Dialect.primitive?_of_mem (c := '#') (by decide) (h ▸ List.mem_cons_self)

/-- Spelled alike, the type is the name exactly when the name is kept. -/
theorem type_eq_iff_of_spelledAlike {rest : List Char} (h : ref.toList = '#' :: rest)
    (halike : SpelledAlike dialect ref key) :
    (ofToken dialect ref.toList).type = Name.avoidReserved (ofToken dialect key.toList).base ↔
      KeepsName dialect key := by
  rw [ofToken_of_reference h, halike, KeepsName]
  cases hprimitive : Dialect.primitive? key with
  | some meaning =>
    have hmem := Dialect.mem_primitives_of_primitive? hprimitive
    have hkey : ofToken dialect key.toList = ofName meaning := by
      refine ofToken_of_primitive ?_
      rw [String.ofList_toList, hprimitive]
    rw [hkey]
    show _ = Name.avoidReserved meaning ↔ _
    rw [type_eq_iff_of_primitive hmem]
    exact ⟨.inl, fun h => h.resolve_right fun h => nomatch h.1⟩
  | none =>
    have hkey : ofToken dialect key.toList = ofPlain dialect (plainToken dialect key.toList) := by
      refine ofToken_of_not_primitive ?_
      rw [String.ofList_toList, hprimitive]
    rw [hkey, type_ofPlain_eq_iff]
    constructor
    · exact fun h => .inr ⟨rfl, h⟩
    · rintro (hself | h)
      · have hprimitives : ∀ name ∈ selfNamed, Dialect.primitive? name ≠ none := by decide
        exact absurd hprimitive (hprimitives key hself)
      · exact h.2

theorem type_eq_iff_namesDefinition {rest : List Char} (h : ref.toList = '#' :: rest) :
    (ofToken dialect ref.toList).type = Name.avoidReserved (ofToken dialect key.toList).base ↔
      NamesDefinition dialect ref key := by
  unfold NamesDefinition
  by_cases halike : SpelledAlike dialect ref key
  · rw [type_eq_iff_of_spelledAlike h halike]
    exact ⟨fun hkeeps => .inl ⟨halike, hkeeps⟩, fun h =>
      (h.resolve_right fun h => h.1 halike).2⟩
  · exact ⟨fun heq => .inr ⟨halike, heq⟩, fun h => (h.resolve_left fun h => halike h.1).2⟩

/-- A reference that writes out the path and escapes no slash or tilde is spelled like the key. -/
theorem spelledAlike_of_plain (hkey : PlainKey dialect key)
    (hwritten : Reference.WritesOut dialect ref written)
    (hs : Reference.segments? ref = some (dialect.schemasPath ++ [key]))
    (h : ¬ Reference.HasEscape written) : SpelledAlike dialect ref key := by
  rw [SpelledAlike, hkey.plainToken_eq, plainToken_of_writesOut hwritten,
    Reference.key_of_writesOut hwritten hs, Reference.decode_of_not_hasEscape h]

/-- A name that is written with an escaped slash or tilde: the type keeps the digits of the escape,
and the name of the definition has none of them. -/
theorem type_ne_of_hasEscape {c : Char} {rest : List Char} (hkey : PlainKey dialect key)
    (hwritten : Reference.WritesOut dialect ref (c :: rest))
    (hs : Reference.segments? ref = some (dialect.schemasPath ++ [key]))
    (hhead : Name.isHead c = true) (hpercent : '%' ∉ c :: rest) (hbracket : '[' ∉ c :: rest)
    (h : Reference.HasEscape (c :: rest)) :
    (ofToken dialect ref.toList).type ≠ Name.avoidReserved (ofToken dialect key.toList).base := by
  have hctilde : c ≠ '~' := by
    rintro rfl
    exact absurd hhead (by decide)
  have hunescape := Reference.key_eq_unescape hwritten hs hpercent
  have hcons : key.toList = c :: Reference.unescape rest := by
    rw [hunescape, Reference.unescape_cons hctilde]
  have htype : (ofToken dialect ref.toList).type = String.ofList (Name.typeChars (c :: rest)) := by
    have hplain : plainToken dialect ref.toList = c :: rest := by
      rw [plainToken_of_writesOut hwritten, Text.Percent.decode_of_not_mem hpercent]
    have hprimitive : Dialect.primitive? (String.ofList ref.toList) = none := by
      rw [String.ofList_toList]
      refine Dialect.primitive?_of_mem (c := '#') (by decide) ?_
      rw [hwritten.text]
      cases dialect <;> exact List.mem_cons_self
    exact (ofToken_of_name hprimitive hplain hhead hbracket).1
  have hbase : (ofToken dialect key.toList).base = String.ofList (Name.typeChars key.toList) := by
    have hprimitive : Dialect.primitive? (String.ofList key.toList) = none := by
      rw [String.ofList_toList]
      rcases Reference.mem_unescape_of_hasEscape h with hmem | hmem
      · exact Dialect.primitive?_of_mem (c := '/') (by decide) (hunescape ▸ hmem)
      · exact Dialect.primitive?_of_mem (c := '~') (by decide) (hunescape ▸ hmem)
    have hkeyBracket : '[' ∉ key.toList := by
      rw [hunescape]
      exact Reference.not_mem_unescape (by decide) hbracket
    rw [hcons] at hkeyBracket ⊢
    exact (ofToken_of_name (hcons ▸ hprimitive) (hcons ▸ hkey.plainToken_eq) hhead hkeyBracket).2
  intro heq
  have hcount : (ofToken dialect ref.toList).type.toList.countP Char.isAlphanum =
      (Name.avoidReserved (ofToken dialect key.toList).base).toList.countP Char.isAlphanum := by
    rw [heq]
  rw [htype, Name.countP_avoidReserved, hbase, String.toList_ofList, String.toList_ofList,
    Name.countP_typeChars hhead, hcons, Name.countP_typeChars hhead, ← hcons, hunescape] at hcount
  have hlt := Reference.countP_unescape_lt h
  omega

end TypeUse

/-! ### The two models -/

namespace Schema

open Reference TypeUse

section
variable {scope : Scope} {job : Job} {reference definition : Model} {key ref : String}
  {schema : Node}

theorem shape_eq_reference {ref : Node} {found : Shape} (h : schema.get? "$ref" = some ref)
    (hs : shape schema = .ok found) : found = .reference ref := by
  unfold shape at hs
  split at hs
  · cases hs
  · rw [innerShape, h] at hs
    exact (Except.ok.inj hs).symm

/-- The model of a reference has the type that the reference is read as. -/
theorem type_built_of_reference (href : job.schema.get? "$ref" = some (.str ref))
    (h : Job.built scope job = .ok reference) :
    reference.type = (TypeUse.ofToken scope.dialect ref.toList).type := by
  have hshape {found : Shape} (hs : shape job.schema = .ok found) :
      found = .reference (.str ref) := shape_eq_reference href hs
  rw [Job.built_eq] at h
  cases Job.rule_of_run h with
  | reference shaped _ typed done =>
    cases hshape shaped
    cases typed
    obtain ⟨literal, rfl⟩ := Job.withDefault_eq_ok done
    rfl
  | enumeration shaped _ => cases hshape shaped
  | container shaped _ _ =>
    rcases shaped with ⟨shaped, _⟩ | ⟨shaped, _⟩ <;> cases hshape shaped
  | composition shaped _ _ _ => cases hshape shaped
  | record shaped _ _ => cases hshape shaped
  | generic shaped _ _ => cases hshape shaped
  | unknown shaped => cases hshape shaped

/-- The model of a definition has the base of its key, kept apart from reserved words. -/
theorem name_definitionModel (h : definitionModel scope (.str key, schema) = .ok definition) :
    definition.name = Name.avoidReserved (TypeUse.ofToken scope.dialect key.toList).base := by
  obtain ⟨name, hname, h⟩ := Except.bind_eq_ok_iff.mp h
  cases hname
  have hbuilt : Job.built scope ⟨[], schema, _, true⟩ = .ok definition := h
  exact Job.name_of_built hbuilt

/-- When the type of a reference is the name of the definition that it leads to: for every key and
reference, for references without escapes of slashes and tildes, and never for names with one. -/
theorem type_eq_name_iff (hs : segments? ref = some (scope.dialect.schemasPath ++ [key]))
    (hreference : Job.built scope job = .ok reference)
    (href : job.schema.get? "$ref" = some (.str ref))
    (hdefinition : definitionModel scope (.str key, schema) = .ok definition) :
    (Entries.get? key (scope.dialect.schemas scope.document) = some schema →
      Reference.resolve scope.document (.str ref) = .ok schema) ∧
    (reference.type = definition.name ↔ NamesDefinition scope.dialect ref key) ∧
    (PlainKey scope.dialect key →
      (∀ written, WritesOut scope.dialect ref written → ¬ HasEscape written →
        (reference.type = definition.name ↔ KeepsName scope.dialect key)) ∧
      ∀ c rest, WritesOut scope.dialect ref (c :: rest) → HasEscape (c :: rest) →
        Name.isHead c = true → '%' ∉ c :: rest → '[' ∉ c :: rest →
          reference.type ≠ definition.name) := by
  rw [type_built_of_reference href hreference, name_definitionModel hdefinition]
  obtain ⟨rest, htext⟩ := exists_of_segments? hs
  refine ⟨resolve_of_segments hs, type_eq_iff_namesDefinition htext,
    fun hkey => ⟨fun written hwritten hescape => ?_, ?_⟩⟩
  · exact type_eq_iff_of_spelledAlike htext (spelledAlike_of_plain hkey hwritten hs hescape)
  · exact fun c rest hwritten hescape hhead hpercent hbracket =>
      type_ne_of_hasEscape hkey hwritten hs hhead hpercent hbracket hescape

end

/-- A description with a definition that has an ordinary name, and one that has a reserved one. -/
def classScope : Scope where
  document := .map [(.str "openapi", .str "3.0.0"), (.str "components", .map
    [(.str "schemas", .map [(.str "Pet", anything), (.str "class", anything)])])]
  dialect := .v3
where
  anything : Node := .map [(.str "type", .str "object")]

def classScope.referenceTo (ref : String) : Node := .map [(.str "$ref", .str ref)]

/-- The type of a reference and the name of the definition with the key, if both can be built. -/
def classScope.namesOf (ref key : String) : Option (String × String) := do
  let reference ← (build classScope (referenceTo ref) "" false).toOption
  let definition ← (definitionModel classScope (.str key, classScope.anything)).toOption
  return (reference.type, definition.name)

theorem exists_of_namesOf {ref key type name : String}
    (h : classScope.namesOf ref key = some (type, name)) :
    ∃ reference definition,
      build classScope (classScope.referenceTo ref) "" false = .ok reference ∧
        definitionModel classScope (.str key, classScope.anything) = .ok definition ∧
          reference.type = type ∧ definition.name = name := by
  unfold classScope.namesOf at h
  cases hreference : build classScope (classScope.referenceTo ref) "" false with
  | error failure =>
    rw [hreference] at h
    cases h
  | ok reference =>
    cases hdefinition : definitionModel classScope (.str key, classScope.anything) with
    | error failure =>
      rw [hreference, hdefinition] at h
      cases h
    | ok definition =>
      rw [hreference, hdefinition] at h
      cases h
      exact ⟨reference, definition, rfl, rfl, rfl, rfl⟩

theorem namesOf_class :
    classScope.namesOf "#/components/schemas/Pet" "Pet" = some ("Pet", "Pet") ∧
      classScope.namesOf "#/components/schemas/class" "class" = some ("class", "class_") := by
  delta classScope.namesOf definitionModel
  rw [build_eq fun _ => .error (.malformed .endless)]
  decide +kernel

theorem type_eq_name_pet : ∃ reference definition,
    build classScope (classScope.referenceTo "#/components/schemas/Pet") "" false =
        .ok reference ∧
      definitionModel classScope (.str "Pet", classScope.anything) = .ok definition ∧
        segments? "#/components/schemas/Pet" = some (classScope.dialect.schemasPath ++ ["Pet"]) ∧
          reference.type = definition.name := by
  obtain ⟨reference, definition, hreference, hdefinition, _⟩ := exists_of_namesOf namesOf_class.1
  have hs : segments? "#/components/schemas/Pet" =
      some (classScope.dialect.schemasPath ++ ["Pet"]) := by decide +kernel
  have hkey : PlainKey .v3 "Pet" := ⟨by decide, by decide, by decide⟩
  have hwritten : WritesOut .v3 "#/components/schemas/Pet" "Pet".toList :=
    ⟨by decide, by decide, by decide⟩
  have hescape : ¬ HasEscape "Pet".toList := by
    rw [HasEscape]
    decide
  have hkeeps : KeepsName .v3 "Pet" := by
    have hbrackets : brackets? (plainToken .v3 "Pet".toList) = none := by decide +kernel
    refine .inr ⟨by decide, ?_, by decide +kernel⟩
    rw [IsName, hbrackets]
    trivial
  have hbuilt : Job.built classScope
      ⟨[], classScope.referenceTo "#/components/schemas/Pet", "", false⟩ = .ok reference :=
    hreference
  have hiff := type_eq_name_iff hs hbuilt rfl hdefinition
  exact ⟨reference, definition, hreference, hdefinition, hs,
    ((hiff.2.2 hkey).1 _ hwritten hescape).mpr hkeeps⟩

/-- A definition with a reserved name is kept apart from it, a reference to it is not. -/
theorem type_ne_name_class : ∃ reference definition,
    build classScope (classScope.referenceTo "#/components/schemas/class") "" false =
        .ok reference ∧
      definitionModel classScope (.str "class", classScope.anything) = .ok definition ∧
        segments? "#/components/schemas/class" =
          some (classScope.dialect.schemasPath ++ ["class"]) ∧
          reference.type ≠ definition.name := by
  obtain ⟨reference, definition, hreference, hdefinition, htype, hname⟩ :=
    exists_of_namesOf namesOf_class.2
  refine ⟨reference, definition, hreference, hdefinition, by decide +kernel, ?_⟩
  rw [htype, hname]
  decide

end Schema
end OpenApi
