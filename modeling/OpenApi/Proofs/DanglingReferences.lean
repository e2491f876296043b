import OpenApi.Proofs.Failures
import OpenApi.Proofs.OwnProperties
import OpenApi.Proofs.ReferenceNames

/-
References that lead nowhere.

A schema holds other schemas under several keywords, and any of them may hold a reference.  Building
does not read all of them.  The rule that matches a schema reads the parts it needs, and what stands
under other keywords beside them is left alone: the items of an enumeration, the properties of a
dictionary, the other two lists of a composition.  A property that a discriminator fixes has its
value from there, so its own schema is not read either.

Wherever building does read a schema, it also looks up the reference in it.  So one that leads
nowhere stops the resolution, however deep it stands (`exists_error_of_dangling`).
-/
namespace OpenApi
namespace Schema

/-- A way from a schema to a schema right below it. -/
inductive Way where
  | property (key : Scalar)
  | items
  | additional
  | member (kind : ModelKind)

def Way.Leads (schema part : Node) : Way → Prop
  | .property key => (key, part) ∈ (schema.get "properties").entries?.getD []
  | .items => part.isMap = true ∧ schema.get? "items" = some part
  | .additional => part.isMap = true ∧ schema.get? "additionalProperties" = some part
  | .member kind => ∃ keyword, (keyword, kind) ∈ compositions ∧
      part ∈ (schema.get keyword).items?.getD []

/-- Whether a schema is the whole or stands in it at any depth. -/
inductive Inside (part : Node) : Node → Prop where
  | whole : Inside part part
  | down {schema middle : Node} {way : Way} (leads : way.Leads schema middle)
      (rest : Inside part middle) : Inside part schema

/-- Whether the rule for a shape takes a way. -/
def Shape.takes : Shape → Way → Bool
  | .array _, .items => true
  | .dictionary _, .additional => true
  | .composition kind _, .member kind' => kind == kind'
  | .composition .., .property _ => true
  | .record, .property _ => true
  | _, _ => false

section
variable {schema part : Node} {kind : ModelKind} {members : List Node}

theorem keyword_unique {keyword keyword' : String} (h : (keyword, kind) ∈ compositions)
    (h' : (keyword', kind) ∈ compositions) : keyword = keyword' := by
  have hall : ∀ e ∈ compositions, ∀ e' ∈ compositions, e.2 = e'.2 → e.1 = e'.1 := by decide
  exact hall _ h _ h' rfl

theorem mem_members_of_leads (h : shape schema = .ok (.composition kind members))
    (leads : (Way.member kind).Leads schema part) : part ∈ members := by
  cases shapeOf_shape h with
  | composition found =>
    obtain ⟨keyword, hkeyword, hmembers⟩ := exists_keyword_of_composition? found
    obtain ⟨keyword', hkeyword', hpart⟩ := leads
    rw [← keyword_unique hkeyword hkeyword', Node.get, hmembers] at hpart
    exact hpart

theorem eq_items_of_leads {items : Node} (h : shape schema = .ok (.array items))
    (leads : Way.items.Leads schema part) : part = items := by
  cases shapeOf_shape h with
  | array found =>
    unfold arrayItems? at found
    split at found
    · have hitems := (Option.filter_eq_some_iff.mp found).1
      exact Option.some.inj (leads.2.symm.trans hitems)
    · cases found

theorem eq_values_of_leads {values : Node} (h : shape schema = .ok (.dictionary values))
    (leads : Way.additional.Leads schema part) : part = values := by
  obtain ⟨hmap, hpart⟩ := leads
  cases shapeOf_shape h with
  | dictionary found =>
    unfold dictionaryValues? at found
    rw [hpart] at found
    split at found
    · cases part with
      | map entries =>
        cases found
        rfl
      | endless => cases found
      | _ => cases hmap
    · cases found

end

namespace Job

def Fixes (scope : Scope) (job : Job) : Way → Prop
  | .property key => ∃ name value, key.written = .ok name ∧
      (propertyContext scope job.schema job.name).valueOf scope name = .ok (some value)
  | _ => False

/-- Whether building takes a way down from the schema of a job. -/
structure Takes (scope : Scope) (job : Job) (way : Way) : Prop where
  matched : ∃ found, shape job.schema = .ok found ∧ found.takes way = true
  free : ¬ job.Fixes scope way

/-- Whether a schema is that of a job or one that building reads on its way down from there. -/
inductive Reads (scope : Scope) (part : Node) : Job → Prop where
  | whole {job : Job} (same : job.schema = part) : Reads scope part job
  | down {job : Job} {way : Way} {middle : Node} (taken : job.Takes scope way)
      (leads : way.Leads job.schema middle) (rest : Reads scope part (job.inner middle)) :
      Reads scope part job

section
variable {scope : Scope} {job : Job} {model : Model} {way : Way} {part ref : Node}

/-- A model is built from what is read, or what is read is a reference that leads somewhere. -/
def Settled (scope : Scope) (job : Job) (part : Node) : Prop :=
  (∃ model, built scope (job.inner part) = .ok model) ∨
    ∃ ref target, part.get? "$ref" = some ref ∧ Reference.resolve scope.document ref = .ok target

theorem settled_of_element {item : Model} {link : Option Model}
    (h : element scope (built scope) job part = .ok (item, link)) : Settled scope job part := by
  unfold element at h
  split at h
  · rename_i ref href
    obtain ⟨target, htarget, _⟩ := Except.bind_eq_ok_iff.mp h
    exact .inr ⟨ref, target, href, htarget⟩
  · obtain ⟨model, hmodel, _⟩ := Except.bind_eq_ok_iff.mp h
    exact .inl ⟨model, hmodel⟩

theorem settled_of_declared {own : List Model} {key : Scalar}
    (h : declared scope (built scope) job = .ok own) (free : ¬ job.Fixes scope (.property key))
    (leads : (Way.property key).Leads job.schema part) : Settled scope job part := by
  rw [declared_eq] at h
  obtain ⟨p, hp⟩ := Except.exists_of_mapM h leads
  obtain ⟨name, hname, hp⟩ := Except.bind_eq_ok_iff.mp hp
  obtain ⟨value, hvalue, hp⟩ := Except.bind_eq_ok_iff.mp hp
  cases value with
  | some value => exact absurd ⟨name, value, hname, hvalue⟩ free
  | none =>
    obtain ⟨model, hmodel, _⟩ := Except.map_eq_ok_iff.mp hp
    exact .inl ⟨model, hmodel⟩

/-- What building reads right below a schema is settled when the schema is built. -/
theorem settled_of_rule (h : Rule scope (built scope) job model) (taken : job.Takes scope way)
    (leads : way.Leads job.schema part) : Settled scope job part := by
  obtain ⟨⟨found, hshape, htakes⟩, free⟩ := taken
  cases h with
  | container shaped hbuilt _ =>
    rcases shaped with ⟨shaped, _⟩ | ⟨shaped, _⟩
    · cases hshape.symm.trans shaped
      cases way with
      | items =>
        rw [eq_items_of_leads shaped leads]
        exact settled_of_element hbuilt
      | _ => cases htakes
    · cases hshape.symm.trans shaped
      cases way with
      | additional =>
        rw [eq_values_of_leads shaped leads]
        exact settled_of_element hbuilt
      | _ => cases htakes
  | composition shaped hmembers _ hdeclared =>
    cases hshape.symm.trans shaped
    cases way with
    | property key => exact settled_of_declared hdeclared free leads
    | member kind =>
      cases eq_of_beq htakes
      exact .inl (Except.exists_of_mapM hmembers (mem_members_of_leads shaped leads))
    | _ => cases htakes
  | record shaped hdeclared _ =>
    cases hshape.symm.trans shaped
    cases way with
    | property key => exact settled_of_declared hdeclared free leads
    | _ => cases htakes
  | reference shaped _ _ _ =>
    cases hshape.symm.trans shaped
    cases htakes
  | enumeration shaped _ =>
    cases hshape.symm.trans shaped
    cases htakes
  | generic shaped _ _ =>
    cases hshape.symm.trans shaped
    cases htakes
  | unknown shaped =>
    cases hshape.symm.trans shaped
    cases htakes

theorem eq_of_reads_reference {middle : Node} (href : middle.get? "$ref" = some ref)
    (h : Reads scope part (job.inner middle)) : part = middle := by
  cases h with
  | whole same => exact same.symm
  | down taken _ _ =>
    -- The rule for references takes no way down.
    obtain ⟨found, hshape, htakes⟩ := taken.matched
    cases shape_eq_reference href hshape
    cases htakes

/-- Every reference that is read leads somewhere, if the model is built. -/
theorem resolves_of_reads (h : built scope job = .ok model) (reads : Reads scope part job)
    (href : part.get? "$ref" = some ref) :
    ∃ target, Reference.resolve scope.document ref = .ok target := by
  induction reads generalizing model with
  | whole same =>
    subst same
    rw [built_eq] at h
    cases rule_of_run h with
    | reference shaped hfound _ _ =>
      cases shape_eq_reference href shaped
      exact ⟨_, hfound⟩
    | enumeration shaped _ => cases shape_eq_reference href shaped
    | container shaped _ _ =>
      rcases shaped with ⟨shaped, _⟩ | ⟨shaped, _⟩ <;> cases shape_eq_reference href shaped
    | composition shaped _ _ _ => cases shape_eq_reference href shaped
    | record shaped _ _ => cases shape_eq_reference href shaped
    | generic shaped _ _ => cases shape_eq_reference href shaped
    | unknown shaped => cases shape_eq_reference href shaped
  | down taken leads rest ih =>
    rw [built_eq] at h
    rcases settled_of_rule (rule_of_run h) taken leads with
      ⟨model, hmodel⟩ | ⟨ref', target, href', htarget⟩
    · exact ih hmodel
    · have hsame := eq_of_reads_reference href' rest
      rw [hsame, href'] at href
      cases href
      exact ⟨target, htarget⟩

end
end Job
end Schema

namespace Client

open Schema

variable {preferences : Preferences} {document : Node} {dialect : Dialect} {name : String}
  {entry : Scalar × Node} {part ref : Node}

theorem exists_built_of_definitionModels {scope : Scope} {models : List Model}
    (h : definitionModels scope = .ok models)
    (hentry : entry ∈ scope.dialect.schemas scope.document) : ∃ name model,
      modelName scope entry.1 = .ok name ∧
        Job.built scope ⟨[], entry.2, name, true⟩ = .ok model := by
  obtain ⟨schemas, hschemas, _⟩ := Except.bind_eq_ok_iff.mp h
  obtain ⟨model, hmodel⟩ := Except.exists_of_mapM hschemas hentry
  obtain ⟨name, hname, hbuilt⟩ := Except.bind_eq_ok_iff.mp hmodel
  exact ⟨name, model, hname, hbuilt⟩

theorem client_resolve_of_error {root : Entries} {failure : Failure} (rooted : document = .map root)
    (detected : Dialect.detect document = .ok dialect)
    (h : definitionModels ⟨document, dialect⟩ = .error failure) :
    (resolve preferences document).client = .error failure := by
  rw [client_resolve_eq rooted detected, h]
  rfl

/-- A reference that leads nowhere stops the resolution if building reads it in a definition.  In a
JSON document it is a reference that is reported. -/
theorem exists_error_of_dangling (preferences : Preferences)
    (detected : Dialect.detect document = .ok dialect)
    (hentry : entry ∈ dialect.schemas document)
    (hreads : ∀ name, modelName ⟨document, dialect⟩ entry.1 = .ok name →
      Job.Reads ⟨document, dialect⟩ part ⟨[], entry.2, name, true⟩)
    (href : part.get? "$ref" = some ref)
    (dangling : ¬ ∃ target, Reference.resolve document ref = .ok target) :
    ∃ failure, (resolve preferences document).client = .error failure ∧
      (document.isJson = true → ∃ text fault, failure = .unresolvable text fault) := by
  obtain ⟨root, hroot, _⟩ := Except.bind_eq_ok_iff.mp detected
  have rooted := Dialect.members_eq_ok_iff.mp hroot
  cases hmodels : definitionModels ⟨document, dialect⟩ with
  | ok models =>
    obtain ⟨name, model, hname, hbuilt⟩ := exists_built_of_definitionModels hmodels hentry
    exact absurd (Job.resolves_of_reads hbuilt (hreads name hname) href) dangling
  | error failure =>
    refine ⟨failure, client_resolve_of_error rooted detected hmodels, fun json => ?_⟩
    have hfails : FailsAmong (fun _ => False) (definitionModels ⟨document, dialect⟩) :=
      failsAmong_definitionModels rooted (rooted ▸ json)
    have hamong := hfails failure hmodels
    cases failure with
    | unresolvable text fault => exact ⟨text, fault, rfl⟩
    | unsupported marker => cases hamong
    | malformed cause => cases hamong

def paletteDocument (palette : Node) : Node := .map
  [(.str "openapi", .str "3.0.0"), (.str "paths", .map []),
    (.str "components", .map [(.str "schemas", .map [(.str "Palette", palette)])])]

def missingColor : Node := .map [(.str "$ref", .str "#/components/schemas/Missing")]

theorem resolve_missingColor (palette : Node) :
    ¬ ∃ target, Reference.resolve (paletteDocument palette)
      (.str "#/components/schemas/Missing") = .ok target := by
  rintro ⟨target, h⟩
  have hsegments : Reference.segments? "#/components/schemas/Missing" =
      some ["components", "schemas", "Missing"] := by decide +kernel
  rw [Reference.resolve, hsegments] at h
  cases h

def arrayOfMissing : Node := .map [(.str "type", .str "array"), (.str "items", missingColor)]

theorem exists_error_of_arrayOfMissing :
    Dialect.detect (paletteDocument arrayOfMissing) = .ok .v3 ∧
      (paletteDocument arrayOfMissing).isJson = true ∧
      ∃ text fault, (resolve {} (paletteDocument arrayOfMissing)).client =
        .error (.unresolvable text fault) := by
  have hdetect : Dialect.detect (paletteDocument arrayOfMissing) = .ok .v3 := rfl
  have hjson : (paletteDocument arrayOfMissing).isJson = true := by decide +kernel
  have hentry : (Scalar.str "Palette", arrayOfMissing) ∈
      Dialect.v3.schemas (paletteDocument arrayOfMissing) := List.mem_cons_self
  have hreads : ∀ name, modelName ⟨paletteDocument arrayOfMissing, .v3⟩ (.str "Palette") = .ok name →
      Job.Reads ⟨paletteDocument arrayOfMissing, .v3⟩ missingColor
        ⟨[], arrayOfMissing, name, true⟩ := by
    intro name _
    have htaken : Job.Takes ⟨paletteDocument arrayOfMissing, .v3⟩ ⟨[], arrayOfMissing, name, true⟩
        .items := ⟨⟨.array missingColor, rfl, rfl⟩, id⟩
    have hleads : Way.items.Leads arrayOfMissing missingColor := ⟨rfl, rfl⟩
    exact .down htaken hleads (.whole rfl)
  obtain ⟨failure, hclient, hfailure⟩ := exists_error_of_dangling {} hdetect hentry hreads rfl
    (resolve_missingColor arrayOfMissing)
  obtain ⟨text, fault, rfl⟩ := hfailure hjson
  exact ⟨hdetect, hjson, text, fault, hclient⟩

/-- The same array, as an enumeration. -/
def enumerationOfMissing : Node := .map
  [(.str "type", .str "array"), (.str "enum", .list [.str "red"]), (.str "items", missingColor)]

theorem resolve_enumerationOfMissing :
    (resolve {} (paletteDocument enumerationOfMissing)).client.isOk = true := by
  rw [@client_resolve_eq {} (paletteDocument enumerationOfMissing) .v3 _ rfl rfl]
  delta definitionModels definitionModel sharedParameterModel
  rw [Schema.build_eq fun _ => .error (.malformed .endless)]
  decide +kernel

/-- The items of an enumeration are not read, so a reference in them need not lead anywhere. -/
theorem not_error_of_inside : ¬ ∀ (preferences : Preferences) (document : Node) (dialect : Dialect)
    (entry : Scalar × Node) (part ref : Node), Dialect.detect document = .ok dialect →
      entry ∈ dialect.schemas document → Inside part entry.2 → part.get? "$ref" = some ref →
        (¬ ∃ target, Reference.resolve document ref = .ok target) →
          ∃ failure, (resolve preferences document).client = .error failure := by
  intro h
  have hleads : Way.items.Leads enumerationOfMissing missingColor := ⟨rfl, rfl⟩
  have hinside : Inside missingColor enumerationOfMissing := .down hleads .whole
  obtain ⟨failure, hfailure⟩ := h {} (paletteDocument enumerationOfMissing) .v3
    (.str "Palette", enumerationOfMissing) missingColor (.str "#/components/schemas/Missing") rfl
    List.mem_cons_self hinside rfl (resolve_missingColor enumerationOfMissing)
  have hok := resolve_enumerationOfMissing
  rw [hfailure] at hok
  cases hok

end Client
end OpenApi
