import OpenApi.Client.Dump
import OpenApi.Proofs.ModelSources

/-
Clients as plain values, part by part.

A property that passes from the parts of a value to the value (`Composes`) holds of a whole client
once it holds of its numbers: of the limits of its models and of the codes of its responses and
errors (`composes_client`).  The keys of each map are known, so the property may ask for distinct
keys.
-/
namespace OpenApi

namespace Model

/-- Whether a model is the whole or is written down in it: as a property, an enumeration or a link
at any depth. -/
inductive IsIn (part : Model) : Model → Prop where
  | whole : IsIn part part
  | property {m p : Model} (mem : p ∈ m.properties) (below : IsIn part p) : IsIn part m
  | enum {m e : Model} (mem : e ∈ m.enums) (below : IsIn part e) : IsIn part m
  | link {m l : Model} (linked : m.link = some l) (below : IsIn part l) : IsIn part m

/-- Whether all limits in a model have a property. -/
def LimitsHave (P : Node → Prop) (m : Model) : Prop :=
  ∀ part : Model, part.IsIn m → ∀ e ∈ Dump.constraints part.constraints, P e.2

end Model

/-- Whether all limits and codes of an operation have a property. -/
structure Operation.NumbersHave (P : Node → Prop) (o : Operation) : Prop where
  models : ∀ m ∈ o.models, m.LimitsHave P
  results : ∀ r ∈ o.results, P (.int r.code)
  errors : ∀ e ∈ o.errors, P (.int e.code)

/-- Whether all limits and codes of a client have a property. -/
structure Client.NumbersHave (P : Node → Prop) (c : Client) : Prop where
  models : ∀ m ∈ c.models, m.LimitsHave P
  operations : ∀ s ∈ c.services, ∀ o ∈ s.operations, o.NumbersHave P

namespace Dump

/-- Whether a property passes from the parts of a value to the value, if the keys of each map are
distinct texts. -/
structure Composes (P : Node → Prop) : Prop where
  str : ∀ s, P (.str s)
  bool : ∀ b, P (.bool b)
  list : ∀ {items : List Node}, (∀ x ∈ items, P x) → P (.list items)
  map : ∀ {entries : Entries} (keys : List String), keys.Nodup →
    (entries.map Prod.fst).Sublist (keys.map Scalar.str) → (∀ e ∈ entries, P e.2) →
    P (.map entries)

/-- Whether entries have some of the given keys, in their order, and values with a property. -/
structure Keyed (P : Node → Prop) (keys : List String) (entries : Entries) : Prop where
  keys : (entries.map Prod.fst).Sublist (keys.map Scalar.str)
  values : ∀ e ∈ entries, P e.2

section
variable {P : Node → Prop} {keys more : List String} {entries others : Entries}

theorem keyed_always (key : String) {value : Node} (h : P value) : Keyed P [key] (always key value) :=
  ⟨.refl _, List.forall_mem_singleton.mpr h⟩

theorem keyed_optional (key : String) {value : Option Node} (h : ∀ v ∈ value, P v) :
    Keyed P [key] (optional key value) := by
  cases value with
  | none => exact ⟨List.nil_sublist _, List.forall_mem_nil _⟩
  | some v => exact keyed_always key (h v rfl)

theorem Keyed.append (h : Keyed P keys entries) (h' : Keyed P more others) :
    Keyed P (keys ++ more) (entries ++ others) := by
  constructor
  · rw [List.map_append, List.map_append]
    exact h.keys.append h'.keys
  · exact fun e he => (List.mem_append.mp he).elim (h.values e) (h'.values e)

theorem Composes.ofKeyed (own : Composes P) (distinct : keys.Nodup) (h : Keyed P keys entries) :
    P (.map entries) :=
  own.map keys distinct h.keys h.values

theorem Composes.text? (own : Composes P) (s : Option String) : ∀ v ∈ text? s, P v := by
  intro v hv
  cases s with
  | none => cases hv
  | some s =>
    cases hv
    exact own.str s

theorem Composes.listMap (own : Composes P) {α : Type} {f : α → Node} (items : List α)
    (h : ∀ x ∈ items, P (f x)) : P (.list (items.map f)) :=
  own.list (List.forall_mem_map.mpr h)

theorem Composes.texts (own : Composes P) (items : List String) : P (texts items) :=
  own.listMap items fun s _ => own.str s

theorem Keyed.always (h : Keyed P keys entries) (key : String) {value : Node} (hvalue : P value) :
    Keyed P (keys ++ [key]) (entries ++ always key value) :=
  h.append (keyed_always key hvalue)

theorem Keyed.optional (h : Keyed P keys entries) (key : String) {value : Option Node}
    (hvalue : ∀ v ∈ value, P v) : Keyed P (keys ++ [key]) (entries ++ optional key value) :=
  h.append (keyed_optional key hvalue)

theorem composes_enumerator (own : Composes P) (e : Enumerator) : P (enumerator e) :=
  have hkeyed := (((keyed_always "name" (own.str e.name)).always "value" (own.str e.value)).always
    "type" (own.str e.type)).optional "description" (own.text? e.description)
  own.ofKeyed (by decide) hkeyed

/-- The keys of limits, as they follow one another. -/
def constraintKeys : List String :=
  ["format"] ++ ["maximum"] ++ ["exclusiveMaximum"] ++ ["minimum"] ++ ["exclusiveMinimum"] ++
    ["multipleOf"] ++ ["maxLength"] ++ ["minLength"] ++ ["pattern"] ++ ["maxItems"] ++
    ["minItems"] ++ ["uniqueItems"] ++ ["maxProperties"] ++ ["minProperties"]

theorem keys_constraints (c : Constraints) :
    ((constraints c).map Prod.fst).Sublist (constraintKeys.map Scalar.str) := by
  have hkeyed : Keyed (fun _ => True) constraintKeys (constraints c) := by
    unfold constraintKeys constraints
    iterate 13 refine Keyed.optional ?_ _ fun _ _ => trivial
    exact keyed_optional _ fun _ _ => trivial
  exact hkeyed.keys

end

def modelKeys : List String :=
  ["name"] ++ ["export"] ++ ["type"] ++ ["base"] ++ ["template"] ++ ["link"] ++ ["description"] ++
    ["deprecated"] ++ ["isDefinition"] ++ ["isReadOnly"] ++ ["isRequired"] ++ ["isNullable"] ++
    constraintKeys ++ ["default"] ++ ["enum"] ++ ["enums"] ++ ["properties"] ++ ["imports"]

theorem nodup_modelKeys : modelKeys.Nodup := by decide

mutual

/-- The entries of a model, once the property holds of its limits. -/
theorem keyed_modelEntries {P : Node → Prop} (own : Composes P) :
    (m : Model) → m.LimitsHave P → Keyed P modelKeys (modelEntries m)
  | { toTypeText := shape, name, kind, link, description, deprecated, isDefinition, isReadOnly,
      isRequired, isNullable, constraints := limits, default, enumerators, enums, properties,
      imports }, h => by
    have hown := h _ .whole
    have hlimits : Keyed P constraintKeys (constraints limits) := ⟨keys_constraints limits, hown⟩
    have hlink := composes_linked own link fun l hl part hpart => h part (.link hl hpart)
    have henums := composes_models own enums fun e he part hpart => h part (.enum he hpart)
    have hproperties :=
      composes_models own properties fun p hp part hpart => h part (.property hp hpart)
    have htype := (((keyed_always "name" (own.str name)).always "export" (own.str kind.name)).always
      "type" (own.str shape.type)).always "base" (own.str shape.base)
    have hhead := ((htype.optional "template" (own.text? shape.template)).optional
      "link" hlink).optional "description" (own.text? description)
    have hflags := ((((hhead.always "deprecated" (own.bool deprecated)).always
      "isDefinition" (own.bool isDefinition)).always "isReadOnly" (own.bool isReadOnly)).always
        "isRequired" (own.bool isRequired)).always "isNullable" (own.bool isNullable)
    have hvalues := ((hflags.append hlimits).optional "default" (own.text? default)).always
      "enum" (own.listMap enumerators fun e _ => composes_enumerator own e)
    rw [modelEntries]
    exact ((hvalues.always "enums" (own.list henums)).always
      "properties" (own.list hproperties)).always "imports" (own.texts imports)

theorem composes_models {P : Node → Prop} (own : Composes P) :
    (ms : List Model) → (∀ m ∈ ms, m.LimitsHave P) → ∀ x ∈ models ms, P x
  | [], _ => fun _ hx => nomatch hx
  | m :: ms, h => by
    have hm := keyed_modelEntries own m (h m List.mem_cons_self)
    have hms := composes_models own ms fun m hm => h m (List.mem_cons_of_mem _ hm)
    exact List.forall_mem_cons.mpr ⟨own.ofKeyed nodup_modelKeys hm, hms⟩

theorem composes_linked {P : Node → Prop} (own : Composes P) :
    (link : Option Model) → (∀ l, link = some l → l.LimitsHave P) → ∀ x ∈ linked link, P x
  | none, _ => nofun
  | some m, h => by
    have hm := keyed_modelEntries own m (h m rfl)
    intro x hx
    cases hx
    exact own.ofKeyed nodup_modelKeys hm

end

/-! ### Operations and clients -/

section
variable {P : Node → Prop}

theorem composes_parameter (own : Composes P) {p : Parameter} (h : p.toModel.LimitsHave P) :
    P (parameter p) := by
  have hkeyed := (((keyed_modelEntries own p.toModel h).always "in" (own.str p.location.name)).always
    "prop" (own.str p.wireName)).optional "mediaType" (own.text? p.mediaType)
  exact own.ofKeyed (by decide) hkeyed

theorem composes_response (own : Composes P) {r : Response} (h : r.toModel.LimitsHave P)
    (hcode : P (.int r.code)) : P (response r) := by
  have hkeyed := ((keyed_modelEntries own r.toModel h).always "in" (own.str r.source.name)).always
    "code" hcode
  exact own.ofKeyed (by decide) hkeyed

theorem composes_errorCase (own : Composes P) {e : ErrorCase} (hcode : P (.int e.code)) :
    P (errorCase e) :=
  have hkeyed := (keyed_always "code" hcode).always "description" (own.str e.description)
  own.ofKeyed (by decide) hkeyed

theorem composes_parameters (own : Composes P) {ps : List Parameter}
    (h : ∀ p ∈ ps, p.toModel.LimitsHave P) : P (parameters ps) :=
  own.listMap ps fun p hp => composes_parameter own (h p hp)

theorem composes_operation (own : Composes P) {o : Operation} (h : o.NumbersHave P) :
    P (operation o) := by
  have hparameters : ∀ p ∈ o.parameters, p.toModel.LimitsHave P := fun p hp =>
    h.models _ (List.mem_append_left _ (List.mem_append_left _ (List.mem_map_of_mem hp)))
  have hgroups : ∀ p ∈ o.groups.all, p.toModel.LimitsHave P := fun p hp =>
    h.models _ (List.mem_append_left _ (List.mem_append_right _ (List.mem_map_of_mem hp)))
  have hresults : ∀ r ∈ o.results, P (response r) := fun r hr =>
    composes_response own (h.models _ (List.mem_append_right _ (List.mem_map_of_mem hr)))
      (h.results r hr)
  have hbody : ∀ x ∈ o.groups.body.map parameter, P x := by
    intro x hx
    obtain ⟨p, hp, rfl⟩ := Option.map_eq_some_iff.mp hx
    exact composes_parameter own (hgroups p (List.mem_append_right _ (Option.mem_toList.mpr hp)))
  simp only [LocatedParameters.all, List.forall_mem_append] at hgroups
  obtain ⟨⟨⟨⟨⟨hpath, hquery⟩, hform⟩, hheader⟩, hcookie⟩, _⟩ := hgroups
  have hhead := (((keyed_always "service" (own.str o.service)).always "name" (own.str o.name)).optional
    "summary" (own.text? o.summary)).optional "description" (own.text? o.description)
  have hcall := (((hhead.always "deprecated" (own.bool o.deprecated)).always
    "method" (own.str o.method)).always "path" (own.str o.path)).always
      "parameters" (composes_parameters own hparameters)
  have hlocated := ((((hcall.always "parametersPath" (composes_parameters own hpath)).always
    "parametersQuery" (composes_parameters own hquery)).always
      "parametersForm" (composes_parameters own hform)).always
        "parametersHeader" (composes_parameters own hheader)).always
          "parametersCookie" (composes_parameters own hcookie)
  have hanswers := (((hlocated.optional "parametersBody" hbody).always
    "imports" (own.texts o.imports)).always "errors"
      (own.listMap o.errors fun e he => composes_errorCase own (h.errors e he))).always
        "results" (own.listMap o.results hresults)
  exact own.ofKeyed (by decide) (hanswers.optional "responseHeader" (own.text? o.responseHeader))

theorem composes_service (own : Composes P) {s : Service}
    (h : ∀ o ∈ s.operations, o.NumbersHave P) : P (service s) := by
  have hkeyed := ((keyed_always "name" (own.str s.name)).always "operations"
    (own.listMap s.operations fun o ho => composes_operation own (h o ho))).always
      "imports" (own.texts s.imports)
  exact own.ofKeyed (by decide) hkeyed

/-- A client has a property of its parts once its numbers have it. -/
theorem composes_client (own : Composes P) {c : Client} (h : c.NumbersHave P) : P (client c) := by
  have hkeyed := (((keyed_always "version" (own.str c.version)).always
    "server" (own.str c.server)).always "models"
      (own.list (composes_models own c.models h.models))).always "services"
        (own.listMap c.services fun s hs => composes_service own (h.operations s hs))
  exact own.ofKeyed (by decide) hkeyed

end

end Dump
end OpenApi
