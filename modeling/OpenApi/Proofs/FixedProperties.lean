import OpenApi.Proofs.DefinitionNames
import OpenApi.Proofs.OwnProperties

/-
The properties that discriminators fix.

A union is a definition with a discriminator and a list of choices.  In the model of a definition
that the union lists, the property that the discriminator is about has one value only: the last key
that the discriminator's mapping has for the definition, or else the name of the definition.

Which union lists a definition is looked up by the name of its model.  The references of the union
are only cut to compare them with it: they are neither decoded nor made identifiers.  So the lookup
finds what the references lead to where key, name and reference are spelled alike
(`fixed_of_union`), and nothing for a definition whose key is changed on the way to its name.
-/
namespace OpenApi

/-! ### Texts of types -/

namespace TypeUse

/-- Whether a text is not empty and has no mark of references in it. -/
def IsTypeText (s : String) : Prop := s ≠ "" ∧ '#' ∉ s.toList

section
variable {dialect : Dialect} {s t : String}

theorem IsTypeText.append (hs : IsTypeText s) (ht : '#' ∉ t.toList) : IsTypeText (s ++ t) := by
  constructor
  · intro h
    have hlist := congrArg String.toList h
    rw [String.toList_append] at hlist
    exact hs.1 (String.toList_inj.mp (List.append_eq_nil_iff.mp hlist).1)
  · rw [String.toList_append, List.mem_append, not_or]
    exact ⟨hs.2, ht⟩

theorem isTypeText_ofDefinition (cs : List Char) : IsTypeText (ofDefinition cs).base := by
  unfold ofDefinition
  dsimp only
  split
  · exact ⟨by decide, by decide⟩
  · rename_i hname
    refine ⟨fun h => hname (String.isEmpty_iff.mpr h), ?_⟩
    show '#' ∉ (String.ofList (Name.typeChars cs)).toList
    rw [String.toList_ofList]
    exact Name.not_mem_squeeze (by decide) (by decide) _

theorem isTypeText_applied {outer inner : TypeUse} (ho : IsTypeText outer.type)
    (hi : IsTypeText inner.type) (blank : Bool) :
    IsTypeText (applied outer inner blank).type ∧ IsTypeText (applied outer inner blank).base := by
  unfold applied
  by_cases harray : outer.type = "any[]"
  · rw [if_pos harray]
    exact ⟨hi.append (by decide), hi⟩
  · rw [if_neg harray]
    cases blank with
    | true => exact ⟨ho, ho⟩
    | false => exact ⟨((ho.append (by decide)).append hi.2).append (by decide), ho⟩

/-- A type has a text, whatever the token. -/
theorem isTypeText_ofToken (dialect : Dialect) (cs : List Char) :
    IsTypeText (ofToken dialect cs).type ∧ IsTypeText (ofToken dialect cs).base := by
  induction cs using tokenInduction dialect with
  | token cs ih =>
    cases hprimitive : Dialect.primitive? (String.ofList cs) with
    | some meaning =>
      have hall : ∀ e ∈ Dialect.primitives, e.2 ≠ "" ∧ '#' ∉ e.2.toList := by decide
      have hmeaning := hall _ (Dialect.mem_primitives_of_primitive? hprimitive)
      rw [ofToken_of_primitive hprimitive]
      exact ⟨hmeaning, hmeaning⟩
    | none =>
      rw [ofToken_of_not_primitive hprimitive]
      unfold ofPlain
      split
      · rename_i outer inner hbrackets
        rw [parts_of_brackets hprimitive hbrackets] at ih
        exact isTypeText_applied (ih outer (by simp)).1 (ih inner (by simp)).1 _
      · rw [type_ofDefinition]
        exact ⟨isTypeText_ofDefinition _, isTypeText_ofDefinition _⟩

theorem isTypeText_of_modelName {scope : Scope} {key : Scalar} {name : String}
    (h : modelName scope key = .ok name) : IsTypeText name := by
  obtain ⟨text, _, rfl⟩ := modelName_eq_ok_iff.mp h
  have hbase := (isTypeText_ofToken scope.dialect text.toList).2
  unfold Name.avoidReserved
  split
  · exact hbase.append (by decide)
  · exact hbase

end

end TypeUse

/-! ### Unions by what they lead to -/

namespace Scope

/-- Whether a text is a reference that leads to the definition with a key. -/
def leadsTo (scope : Scope) (key ref : String) : Bool :=
  Reference.segments? ref == some (scope.dialect.schemasPath ++ [key])

def isReference (suits : String → Bool) (node : Node) : Bool := (node.get "$ref").str?.any suits

/-- The discriminator of a definition that is a union with a suitable member. -/
def choiceOf? (suits : String → Bool) (definition : Node) : Option Node :=
  (definition.get "discriminator").entries?.bind fun entries =>
    (definition.get "oneOf").items?.bind fun members =>
      if members.any (isReference suits) then some (.map entries) else none

/-- The discriminator of the first union that leads to the definition with a key. -/
def union? (scope : Scope) (key : String) : Option Node :=
  (scope.dialect.schemas scope.document).findSome? fun (_, definition) =>
    choiceOf? (scope.leadsTo key) definition

/-- The keys of a mapping whose targets name the definition with a key, or lead to it. -/
def mappedKeys (scope : Scope) (key : String) (discriminator : Node) : List Scalar :=
  (((discriminator.get "mapping").entries?.getD []).filter fun (_, target) =>
    target.str?.any fun text => text == key || scope.leadsTo key text).map (·.1)

/-- Whether a discriminator chooses the definition with a key by a value. -/
def Chooses (scope : Scope) (key : String) (discriminator : Node) (value : String) : Prop :=
  match (scope.mappedKeys key discriminator).getLast? with
  | some found => found.text? = some value
  | none => value = key

/-- Whether a reference writes out the path to a definition and escapes nothing in its name. -/
def IsPlainReference (scope : Scope) (ref : String) : Prop :=
  ∃ segment, Reference.WritesOut scope.dialect ref segment ∧ segment ≠ [] ∧ '%' ∉ segment ∧
    '~' ∉ segment

/-- Whether a text names a definition by its key alone. -/
def IsBareName (name : String) : Prop := '#' ∉ name.toList ∧ Text.trim name.toList = name.toList

/-- Whether all unions of a description are spelled plainly. -/
structure PlainUnions (scope : Scope) : Prop where
  members : ∀ entry ∈ scope.dialect.schemas scope.document,
    ∀ member ∈ (entry.2.get "oneOf").items?.getD [], ∀ ref, member.get "$ref" = .str ref →
      scope.IsPlainReference ref
  targets : ∀ entry ∈ scope.dialect.schemas scope.document,
    ∀ target ∈ ((entry.2.get "discriminator").get "mapping").entries?.getD [], ∀ text,
      target.2 = .str text → scope.IsPlainReference text ∨ IsBareName text

section
variable {scope : Scope} {ref key name : String}

theorem findSome?_congr {α β : Type} {f g : α → Option β} {items : List α}
    (h : ∀ item ∈ items, f item = g item) : items.findSome? f = items.findSome? g := by
  induction items with
  | nil => rfl
  | cons item rest ih =>
    rw [List.findSome?_cons, List.findSome?_cons, h item List.mem_cons_self,
      ih fun other hother => h other (List.mem_cons_of_mem item hother)]

theorem exists_of_isPlainReference (h : scope.IsPlainReference ref) :
    ∃ name, scope.localName ref = name ∧
      Reference.segments? ref = some (scope.dialect.schemasPath ++ [name]) := by
  obtain ⟨segment, hwrites, hnonempty, hpercent, htilde⟩ := h
  have hnames : Reference.Names scope.dialect ref segment :=
    ⟨hwrites.text, hwrites.whole, hnonempty⟩
  have hescape : ¬ Reference.HasEscape segment := by
    rintro (hoccurs | hoccurs)
    · exact htilde ((Text.occurs_iff_isInfix.mp hoccurs).subset List.mem_cons_self)
    · exact htilde ((Text.occurs_iff_isInfix.mp hoccurs).subset List.mem_cons_self)
  have hdecode : Reference.decode segment = segment := by
    rw [Reference.decode_of_not_hasEscape hescape, Text.Percent.decode_of_not_mem hpercent]
  refine ⟨String.ofList segment, ?_, ?_⟩
  · show String.ofList (Name.withoutNamespaces scope.dialect.namespaces ref.toList) = _
    rw [TypeUse.withoutNamespaces_of_trim (hwrites.trimmed.trans hwrites.text) hwrites.whole]
  · rw [hnames.segments?_eq, hdecode]

theorem localName_eq_leadsTo (h : scope.IsPlainReference ref) :
    (scope.localName ref == key) = scope.leadsTo key ref := by
  obtain ⟨name, hlocal, hsegments⟩ := exists_of_isPlainReference h
  rw [leadsTo, hlocal, hsegments, Bool.eq_iff_iff, beq_iff_eq, beq_iff_eq, Option.some.injEq,
    List.append_cancel_left_eq, List.singleton_inj]

theorem localName_of_isBareName (h : IsBareName name) : scope.localName name = name := by
  have houtside : ∀ start ∈ scope.dialect.namespaces, ¬ start.toList <+: name.toList :=
    fun start hs hp => h.1 (hp.subset (TypeUse.mem_namespaces_mark hs))
  show String.ofList (Name.withoutNamespaces scope.dialect.namespaces name.toList) = name
  rw [Name.withoutNamespaces, h.2, Name.foldl_dropStart_of_not_prefix houtside,
    String.ofList_toList]

theorem leadsTo_of_isBareName (h : IsBareName name) : scope.leadsTo key name = false := by
  rw [leadsTo, beq_eq_false_iff_ne]
  intro hsegments
  obtain ⟨rest, htext⟩ := Reference.exists_of_segments? hsegments
  exact h.1 (htext ▸ List.mem_cons_self)

theorem localName_eq_names (hkey : '#' ∉ key.toList)
    (h : scope.IsPlainReference name ∨ IsBareName name) :
    (scope.localName name == key) = (name == key || scope.leadsTo key name) := by
  rcases h with h | h
  · have hne : (name == key) = false := by
      rw [beq_eq_false_iff_ne]
      rintro rfl
      obtain ⟨segment, hwrites, _⟩ := h
      obtain ⟨rest, htext, _⟩ := Reference.split_writesOut scope.dialect hwrites.whole
      rw [hwrites.text, htext] at hkey
      exact hkey List.mem_cons_self
    rw [hne, Bool.false_or, localName_eq_leadsTo h]
  · rw [localName_of_isBareName h, leadsTo_of_isBareName h, Bool.or_false]

theorem any_str?_congr {suits suits' : String → Bool} {node : Node}
    (h : ∀ text, node = .str text → suits text = suits' text) :
    node.str?.any suits = node.str?.any suits' := by
  unfold Node.str?
  split
  · rename_i text
    exact h text rfl
  · rfl

theorem refersTo_eq (name : String) :
    scope.refersTo name = isReference (scope.localName · == name) := by
  funext node
  unfold refersTo isReference Node.str?
  cases node.get "$ref" with
  | scalar s => cases s <;> rfl
  | _ => rfl

theorem discriminatorOf?_eq_choiceOf? (name : String) (definition : Node) :
    scope.discriminatorOf? name definition = choiceOf? (scope.localName · == name) definition := by
  unfold discriminatorOf? choiceOf?
  rw [refersTo_eq]
  cases definition.get "discriminator" with
  | map entries => cases definition.get "oneOf" <;> rfl
  | _ => rfl

theorem choiceOf?_congr {suits suits' : String → Bool} {definition : Node}
    (h : ∀ member ∈ (definition.get "oneOf").items?.getD [], ∀ ref, member.get "$ref" = .str ref →
      suits ref = suits' ref) : choiceOf? suits definition = choiceOf? suits' definition := by
  unfold choiceOf?
  congr 1
  funext entries
  cases hmembers : (definition.get "oneOf").items? with
  | none => rfl
  | some members =>
    rw [hmembers] at h
    have hany : members.any (isReference suits) = members.any (isReference suits') := by
      rw [Bool.eq_iff_iff, List.any_eq_true, List.any_eq_true]
      refine exists_congr fun member => and_congr_right fun hmember => ?_
      rw [isReference, isReference, any_str?_congr (h member hmember)]
    show (if members.any (isReference suits) = true then _ else _) = _
    rw [hany]
    rfl

/-- In a description with plain unions, the name of a definition finds what leads to it. -/
theorem PlainUnions.discriminator?_eq (plain : scope.PlainUnions) (key : String) :
    scope.discriminator? key = scope.union? key := by
  refine findSome?_congr fun entry hentry => ?_
  show scope.discriminatorOf? key entry.2 = choiceOf? (scope.leadsTo key) entry.2
  rw [discriminatorOf?_eq_choiceOf?]
  exact choiceOf?_congr fun member hmember ref href =>
    localName_eq_leadsTo (plain.members entry hentry member hmember ref href)

theorem exists_definition_of_union? {d : Node} (h : scope.union? key = some d) :
    ∃ entry ∈ scope.dialect.schemas scope.document, entry.2.get "discriminator" = d := by
  obtain ⟨entry, hentry, hd⟩ := List.exists_of_findSome?_eq_some h
  refine ⟨entry, hentry, ?_⟩
  obtain ⟨entries, hentries, hd⟩ := Option.bind_eq_some_iff.mp hd
  obtain ⟨members, _, hd⟩ := Option.bind_eq_some_iff.mp hd
  split at hd
  · cases hd
    exact Node.eq_map_of_entries? hentries
  · cases hd

/-! ### The value -/

theorem getLast?_of_mapM {keys : List Scalar} {names : List String}
    (h : keys.mapM Scalar.written = .ok names) :
    match keys.getLast? with
    | some last => ∃ name, last.text? = some name ∧ names.getLast? = some name
    | none => names.getLast? = none := by
  have hpairs := List.forall₂_reverse_iff.mpr (Except.mapM_eq_ok_iff.mp h)
  rw [List.getLast?_eq_head?_reverse, List.getLast?_eq_head?_reverse]
  generalize keys.reverse = front at hpairs
  generalize names.reverse = back at hpairs
  cases hpairs with
  | nil => rfl
  | cons hlast _ => exact ⟨_, Scalar.written_eq_ok_iff.mp hlast, rfl⟩

theorem PlainUnions.keysFor_eq {d : Node} (plain : scope.PlainUnions) (hkey : '#' ∉ key.toList)
    (hd : scope.union? key = some d) :
    scope.keysFor key (d.get "mapping") = (scope.mappedKeys key d).mapM Scalar.written := by
  obtain ⟨entry, hentry, rfl⟩ := exists_definition_of_union? hd
  have htargets := plain.targets entry hentry
  unfold keysFor mappedKeys
  generalize (entry.2.get "discriminator").get "mapping" = mapping at htargets
  cases mapping with
  | map entries =>
    have hfilter : entries.filter (fun e => e.2.str?.any (scope.localName · == key)) =
        entries.filter fun e => e.2.str?.any fun text => text == key || scope.leadsTo key text :=
      List.filter_congr fun e he => any_str?_congr fun text htext =>
        localName_eq_names hkey (htargets e he text htext)
    show (entries.filter fun e => e.2.str?.any (scope.localName · == key)).mapM _ = _
    rw [hfilter, List.mapM_map]
    rfl
  | _ => rfl

theorem PlainUnions.chooses {d : Node} {value : String} (plain : scope.PlainUnions)
    (hkey : '#' ∉ key.toList) (hd : scope.union? key = some d)
    (h : scope.fixedValue key d = .ok value) : scope.Chooses key d value := by
  rw [fixedValue, plain.keysFor_eq hkey hd] at h
  obtain ⟨names, hnames, hvalue⟩ := Except.map_eq_ok_iff.mp h
  have hlast := getLast?_of_mapM hnames
  unfold Chooses
  cases hfound : (scope.mappedKeys key d).getLast? with
  | none =>
    rw [hfound] at hlast
    rw [← hvalue, hlast]
    rfl
  | some last =>
    rw [hfound] at hlast
    obtain ⟨name, htext, hname⟩ := hlast
    rw [← hvalue, hname]
    exact htext

end

end Scope

/-! ### The property -/

namespace Schema

/-- Whether a property has one value only. -/
structure IsFixed (p : Model) (name value : String) : Prop where
  name_eq : p.name = Name.quoteUnlessBare name
  kind_eq : p.kind = .reference
  type_eq : p.type = "string"
  base_eq : p.base = "'" ++ value ++ "'"

section
variable {scope : Scope} {job : Job} {build : Job → Except Failure Model} {model p : Model}
  {entry : Scalar × Node} {d : Node} {key name : String}

/-- A declared property is fixed if the discriminator is about it, and built from its schema if not. -/
theorem property_cases (hjob : job.name ≠ "")
    (h : Job.property scope build job (propertyContext scope job.schema job.name) entry = .ok p) :
    ∃ name, entry.1.text? = some name ∧
      ((∃ d value, scope.discriminator? job.name = some d ∧ d.get "propertyName" = .str name ∧
          scope.fixedValue job.name d = .ok value ∧ IsFixed p name value) ∨
        (¬ ∃ d, scope.discriminator? job.name = some d ∧ d.get "propertyName" = .str name) ∧
          ∃ before, build (job.inner entry.2) = .ok before ∧
            p = asProperty name (Node.listHas name (requiredNames job.schema)) before) := by
  obtain ⟨name, hname, h⟩ := Except.bind_eq_ok_iff.mp h
  obtain ⟨found, hvalue, h⟩ := Except.bind_eq_ok_iff.mp h
  refine ⟨name, Scalar.written_eq_ok_iff.mp hname, ?_⟩
  have hcontext : (propertyContext scope job.schema job.name).discriminator =
      scope.discriminator? job.name := if_neg fun hempty => hjob (String.isEmpty_iff.mp hempty)
  unfold PropertyContext.valueOf at hvalue
  rw [hcontext] at hvalue
  have hbuilt (hfound : found = none) : ∃ before, build (job.inner entry.2) = .ok before ∧
      p = asProperty name (Node.listHas name (requiredNames job.schema)) before := by
    subst hfound
    obtain ⟨before, hbefore, rfl⟩ := Except.map_eq_ok_iff.mp h
    exact ⟨before, hbefore, rfl⟩
  cases hd : scope.discriminator? job.name with
  | none =>
    rw [hd] at hvalue
    exact .inr ⟨nofun, hbuilt (Except.ok.inj hvalue).symm⟩
  | some d =>
    rw [hd] at hvalue
    dsimp only at hvalue
    by_cases habout : (d.get "propertyName").isText name = true
    · rw [if_pos habout] at hvalue
      obtain ⟨value, hfixed, rfl⟩ := Except.map_eq_ok_iff.mp hvalue
      cases h
      exact .inl ⟨d, value, rfl, Node.isText_iff.mp habout, hfixed, rfl, rfl, rfl, rfl⟩
    · rw [if_neg habout] at hvalue
      refine .inr ⟨?_, hbuilt (Except.ok.inj hvalue).symm⟩
      rintro ⟨_, hsame, hother⟩
      cases hsame
      exact habout (Node.isText_iff.mpr hother)

/-- A model with properties of its own has one for each that its schema declares, after those that
are promoted. -/
theorem exists_own_of_built (h : Job.built scope job = .ok model) (hown : HasOwn job.schema) :
    ∃ promoted own, ownProperties model = promoted ++ own ∧
      List.Forall₂ (fun entry p => Job.property scope (Job.built scope) job
          (propertyContext scope job.schema job.name) entry = .ok p)
        ((job.schema.get "properties").entries?.getD []) own := by
  cases ownRule_of_built h with
  | record shaped declared kind_eq properties_eq =>
    rw [declared_eq] at declared
    refine ⟨[], _, ?_, Except.mapM_eq_ok_iff.mp declared⟩
    rw [ownProperties, kind_eq, properties_eq]
    rfl
  | composition _ _ declared kind_ne unnamed =>
    rw [declared_eq] at declared
    exact ⟨_, _, ownProperties_withMembers kind_ne unnamed, Except.mapM_eq_ok_iff.mp declared⟩
  | without shaped _ => exact absurd hown shaped

end

end Schema

open Schema

/-- What becomes of the properties that a definition declares, in a description whose unions are
spelled plainly.  One of them is fixed if a union leads to a definition whose key is the name of the
model; the others are built from their schemas.  An identifier is such a key itself, unless it is
reserved. -/
theorem fixed_of_union {scope : Scope} {key : Scalar} {schema : Node} {model : Model}
    (h : definitionModel scope (key, schema) = .ok model) (hown : HasOwn schema)
    (plain : scope.PlainUnions) :
    (∃ promoted own, ownProperties model = promoted ++ own ∧
      List.Forall₂ (fun entry p => ∃ name, entry.1.text? = some name ∧
          ((∃ d value, scope.union? model.name = some d ∧ d.get "propertyName" = .str name ∧
              scope.Chooses model.name d value ∧ IsFixed p name value) ∨
            (¬ ∃ d, scope.union? model.name = some d ∧ d.get "propertyName" = .str name) ∧
              ∃ before, build scope entry.2 "" false = .ok before ∧
                p = asProperty name (Node.listHas name (requiredNames schema)) before))
        ((schema.get "properties").entries?.getD []) own) ∧
    ∀ s, key = .str s → Name.IsTypeName s → s ∉ Name.reserved → model.name = s := by
  obtain ⟨name, hname, hbuild⟩ := Except.bind_eq_ok_iff.mp h
  have hbuilt : Job.built scope ⟨[], schema, name, true⟩ = .ok model := hbuild
  have hmodel : model.name = name := Job.name_of_built hbuilt
  rw [hmodel]
  obtain ⟨hnonempty, hmark⟩ := TypeUse.isTypeText_of_modelName hname
  constructor
  · obtain ⟨promoted, own, hproperties, hpairs⟩ := exists_own_of_built hbuilt hown
    refine ⟨promoted, own, hproperties, hpairs.imp fun entry p hp => ?_⟩
    obtain ⟨property, htext, hcases⟩ := property_cases hnonempty hp
    refine ⟨property, htext, ?_⟩
    rw [plain.discriminator?_eq] at hcases
    refine hcases.imp ?_ id
    rintro ⟨d, value, hd, habout, hvalue, hfixed⟩
    exact ⟨d, value, hd, habout, plain.chooses hmark hd hvalue, hfixed⟩
  · rintro s rfl hs hfree
    obtain ⟨text, htext, rfl⟩ := modelName_eq_ok_iff.mp hname
    cases htext
    rw [TypeUse.base_of_isTypeName hs, Name.avoidReserved_eq_self_iff.mpr hfree]

/-- A union of two records, one of which has a key that is no identifier. -/
def shapeScope : Scope where
  document := .map [(.str "openapi", .str "3.0.0"), (.str "paths", .map []),
    (.str "components", .map [(.str "schemas", .map
      [(.str "Shape", shape), (.str "Square", part), (.str "Shape.Circle", part)])])]
  dialect := .v3
where
  shape : Node := .map
    [(.str "oneOf", .list
        [.map [(.str "$ref", .str "#/components/schemas/Square")],
          .map [(.str "$ref", .str "#/components/schemas/Shape.Circle")]]),
      (.str "discriminator", .map
        [(.str "propertyName", .str "kind"),
          (.str "mapping", .map
            [(.str "square", .str "#/components/schemas/Square"),
              (.str "circle", .str "#/components/schemas/Shape.Circle")])])]
  part : Node := .map
    [(.str "type", .str "object"),
      (.str "properties", .map [(.str "kind", .map [(.str "type", .str "string")])])]

namespace shapeScope

theorem isPlainReference_square :
    shapeScope.IsPlainReference "#/components/schemas/Square" :=
  ⟨"Square".toList, ⟨rfl, by decide, by decide⟩, by decide, by decide, by decide⟩

theorem isPlainReference_circle :
    shapeScope.IsPlainReference "#/components/schemas/Shape.Circle" :=
  ⟨"Shape.Circle".toList, ⟨rfl, by decide, by decide⟩, by decide, by decide, by decide⟩

theorem plainUnions : shapeScope.PlainUnions := by
  have hschemas : shapeScope.dialect.schemas shapeScope.document =
      [(.str "Shape", shape), (.str "Square", part), (.str "Shape.Circle", part)] := rfl
  constructor
  · intro entry hentry member hmember ref href
    rw [hschemas] at hentry
    simp only [List.mem_cons, List.not_mem_nil, or_false] at hentry
    rcases hentry with rfl | rfl | rfl
    · rcases List.mem_cons.mp hmember with rfl | hmember
      · cases href
        exact isPlainReference_square
      · cases List.mem_singleton.mp hmember
        cases href
        exact isPlainReference_circle
    · cases hmember
    · cases hmember
  · intro entry hentry target htarget text htext
    rw [hschemas] at hentry
    simp only [List.mem_cons, List.not_mem_nil, or_false] at hentry
    rcases hentry with rfl | rfl | rfl
    · rcases List.mem_cons.mp htarget with rfl | htarget
      · cases htext
        exact .inl isPlainReference_square
      · cases List.mem_singleton.mp htarget
        cases htext
        exact .inl isPlainReference_circle
    · cases htarget
    · cases htarget

theorem exists_union? : ∀ key ∈ ["Square", "Shape.Circle"],
    ∃ d, shapeScope.union? key = some d ∧ d.get "propertyName" = .str "kind" := by
  intro key hkey
  have habout : ∀ key ∈ ["Square", "Shape.Circle"],
      (shapeScope.union? key).map (fun d => (d.get "propertyName").isText "kind") = some true := by
    decide +kernel
  obtain ⟨d, hd, hname⟩ := Option.map_eq_some_iff.mp (habout key hkey)
  exact ⟨d, hd, Node.isText_iff.mp hname⟩

/-- Whether the property of a record has one value only, if the record can be built. -/
def kinds (key : String) : Option (String × List ModelKind) :=
  (definitionModel shapeScope (.str key, part)).toOption.map fun model =>
    (model.name, (ownProperties model).map (·.kind))

theorem kinds_eq : kinds "Square" = some ("Square", [.reference]) ∧
    kinds "Shape.Circle" = some ("Shape_Circle", [.generic]) := by
  delta kinds definitionModel
  rw [Schema.build_eq fun _ => .error (.malformed .endless)]
  decide +kernel

theorem exists_of_kinds {key name : String} {found : List ModelKind}
    (h : kinds key = some (name, found)) : ∃ model,
      definitionModel shapeScope (.str key, part) = .ok model ∧ model.name = name ∧
        (ownProperties model).map (·.kind) = found := by
  obtain ⟨model, hmodel, hfound⟩ := Except.exists_of_toOption_map h
  cases hfound
  exact ⟨model, hmodel, rfl, rfl⟩

end shapeScope

open shapeScope in
theorem isFixed_square : ∃ model, definitionModel shapeScope (.str "Square", part) = .ok model ∧
    ∃ p ∈ ownProperties model, ∃ d value, shapeScope.union? "Square" = some d ∧
      shapeScope.Chooses "Square" d value ∧ IsFixed p "kind" value := by
  obtain ⟨model, hmodel, hname, _⟩ := exists_of_kinds kinds_eq.1
  obtain ⟨⟨promoted, own, hproperties, hpairs⟩, _⟩ := fixed_of_union hmodel (.inl rfl) plainUnions
  refine ⟨model, hmodel, ?_⟩
  have hentries : (part.get "properties").entries?.getD [] =
      [(.str "kind", .map [(.str "type", .str "string")])] := rfl
  rw [hentries, hname] at hpairs
  cases hpairs with
  | @cons _ p _ _ hp _ =>
    obtain ⟨property, htext, hcases⟩ := hp
    cases htext
    have hmem : p ∈ ownProperties model :=
      hproperties ▸ List.mem_append_right promoted List.mem_cons_self
    rcases hcases with ⟨d, value, hd, _, hchooses, hfixed⟩ | ⟨hnone, _⟩
    · exact ⟨p, hmem, d, value, hd, hchooses, hfixed⟩
    · exact absurd (exists_union? "Square" List.mem_cons_self) hnone

open shapeScope in
/-- The record whose key becomes another identifier is not found by its name. -/
theorem not_isFixed_of_union : ¬ ∀ (scope : Scope) (key name : String) (schema d : Node)
    (model : Model), definitionModel scope (.str key, schema) = .ok model →
      Entries.get? key (scope.dialect.schemas scope.document) = some schema → HasOwn schema →
        Declares schema name → scope.union? key = some d → d.get "propertyName" = .str name →
          ∃ p ∈ ownProperties model, ∃ value, scope.Chooses key d value ∧ IsFixed p name value := by
  intro h
  obtain ⟨model, hmodel, _, hkinds⟩ := exists_of_kinds kinds_eq.2
  obtain ⟨d, hd, hname⟩ := exists_union? "Shape.Circle" (List.mem_cons_of_mem _ List.mem_cons_self)
  have hdeclares : Declares part "kind" := ⟨_, List.mem_cons_self, rfl⟩
  obtain ⟨p, hp, value, _, hfixed⟩ :=
    h shapeScope "Shape.Circle" "kind" part d model hmodel rfl (.inl rfl) hdeclares hd hname
  have hkind : p.kind ∈ (ownProperties model).map (·.kind) := List.mem_map_of_mem hp
  rw [hkinds, hfixed.kind_eq] at hkind
  cases List.mem_singleton.mp hkind

end OpenApi
