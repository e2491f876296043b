import OpenApi.Proofs.ClientNodes
import OpenApi.Proofs.Imports
import OpenApi.Proofs.Numerals

/-
Where the numbers of a client come from.

The limits of a model are those of its schema as they stand there, and the schema is a part of the
description or of what a reference leads to.  The codes of responses are keys of the description or
are read from them.  So whatever all scalars of a description have in common is true of all scalars
of its client, if it is true of texts, flags and integers of usual length (`allScalars_client`).
-/
namespace OpenApi

/-- Whether all scalars in a value have a property, as values and as keys. -/
structure Node.AllScalars (Q : Scalar → Prop) (node : Node) : Prop where
  values : ∀ s, (Node.scalar s).OccursIn node → Q s
  keys : ∀ entries, (Node.map entries).OccursIn node → ∀ e ∈ entries, Q e.1

/-- Whether a property of scalars only depends on numbers, and is true of integers that can be
written. -/
structure Scalar.IsAboutNumbers (Q : Scalar → Prop) : Prop where
  null : Q .null
  bool : ∀ b, Q (.bool b)
  str : ∀ s, Q (.str s)
  int : ∀ n, Number.isLong n = false → Q (.int n)

section
variable {Q : Scalar → Prop}

theorem Node.AllScalars.of_occursIn {part whole : Node} (h : whole.AllScalars Q)
    (hpart : part.OccursIn whole) : part.AllScalars Q where
  values s hs := h.values s (hs.trans hpart)
  keys entries hentries := h.keys entries (hentries.trans hpart)

theorem Node.allScalars_scalar {s : Scalar} (h : Q s) : (Node.scalar s).AllScalars Q where
  values t ht := by
    cases ht
    exact h
  keys entries hentries := by cases hentries

theorem Node.allScalars_list {items : List Node} (h : ∀ x ∈ items, x.AllScalars Q) :
    (Node.list items).AllScalars Q where
  values s hs := by
    cases hs with
    | item mem below => exact (h _ mem).values s below
  keys entries hentries := by
    cases hentries with
    | item mem below => exact (h _ mem).keys entries below

theorem Node.allScalars_map {entries : Entries} (hkeys : ∀ e ∈ entries, Q e.1)
    (h : ∀ e ∈ entries, e.2.AllScalars Q) : (Node.map entries).AllScalars Q where
  values s hs := by
    cases hs with
    | entry mem below => exact (h _ mem).values s below
  keys more hmore := by
    cases hmore with
    | whole => exact hkeys
    | entry mem below => exact (h _ mem).keys more below

theorem inherited_allScalars (about : Scalar.IsAboutNumbers Q) :
    Inherited (Node.AllScalars Q) where
  part hpart h := h.of_occursIn hpart
  null := Node.allScalars_scalar about.null
  empty := Node.allScalars_map (List.forall_mem_nil _) (List.forall_mem_nil _)
  inline {node} h := by
    cases node with
    | map entries =>
      rw [Parameter.inlineSchema_eq]
      exact Node.allScalars_map
        (fun e he => h.keys entries .whole e (List.mem_of_mem_filter he))
        (fun e he => h.of_occursIn (.entry (List.mem_of_mem_filter he) .whole))
    | scalar | list | set | pair | endless => exact h

theorem composes_allScalars (about : Scalar.IsAboutNumbers Q) :
    Dump.Composes (Node.AllScalars Q) where
  str s := Node.allScalars_scalar (about.str s)
  bool b := Node.allScalars_scalar (about.bool b)
  list h := Node.allScalars_list h
  map keys _ hkeys h := by
    refine Node.allScalars_map (fun e he => ?_) h
    obtain ⟨key, _, hkey⟩ := List.mem_map.mp (hkeys.subset (List.mem_map_of_mem he))
    exact hkey ▸ about.str key

end

/-! ### Limits -/

namespace Dump
open Schema

variable {P : Node → Prop} {node : Node}

theorem eq_of_number? {value : Node} (h : value ∈ (number? node).map number) : value = node := by
  obtain ⟨n, hn, rfl⟩ := Option.map_eq_some_iff.mp h
  unfold number? at hn
  split at hn
  · cases hn
    rfl
  · cases hn
    rfl
  · cases hn

theorem eq_of_bound? {value : Node} (h : value ∈ (bound? node).map bound) : value = node := by
  obtain ⟨b, hb, rfl⟩ := Option.map_eq_some_iff.mp h
  unfold bound? at hb
  split at hb
  · cases hb
    rfl
  · obtain ⟨n, hn, rfl⟩ := Option.map_eq_some_iff.mp hb
    exact eq_of_number? (Option.map_eq_some_iff.mpr ⟨n, hn, rfl⟩)

theorem eq_of_int? {value : Node} (h : value ∈ (int? node).map Node.int) : value = node := by
  obtain ⟨n, hn, rfl⟩ := Option.map_eq_some_iff.mp h
  unfold int? at hn
  split at hn
  · cases hn
    rfl
  · cases hn

/-- The limits that a schema sets are texts, flags and parts of the schema. -/
theorem keyed_constraints (own : Composes P) (parts : ∀ key, P (node.get key)) :
    Keyed P constraintKeys (constraints (Schema.constraints node)) := by
  have hnumber (key : String) : ∀ v ∈ (number? (node.get key)).map number, P v :=
    fun v hv => eq_of_number? hv ▸ parts key
  have hbound (key : String) : ∀ v ∈ (bound? (node.get key)).map bound, P v :=
    fun v hv => eq_of_bound? hv ▸ parts key
  have hint (key : String) : ∀ v ∈ (int? (node.get key)).map Node.int, P v :=
    fun v hv => eq_of_int? hv ▸ parts key
  have hflag (b : Option Bool) : ∀ v ∈ b.map Node.bool, P v := by
    intro v hv
    obtain ⟨b, _, rfl⟩ := Option.map_eq_some_iff.mp hv
    exact own.bool b
  have hlimits := ((((((keyed_optional "format" (own.text? (node.get "format").str?)).optional
    "maximum" (hnumber "maximum")).optional
      "exclusiveMaximum" (hbound "exclusiveMaximum")).optional
        "minimum" (hnumber "minimum")).optional
          "exclusiveMinimum" (hbound "exclusiveMinimum")).optional
            "multipleOf" (hnumber "multipleOf"))
  have hlengths := ((((hlimits.optional "maxLength" (hint "maxLength")).optional
    "minLength" (hint "minLength")).optional
      "pattern" (own.text? (pattern? (node.get "pattern")))).optional
        "maxItems" (hint "maxItems")).optional "minItems" (hint "minItems")
  exact ((hlengths.optional "uniqueItems" (hflag (bool? (node.get "uniqueItems")))).optional
    "maxProperties" (hint "maxProperties")).optional "minProperties" (hint "minProperties")

end Dump

/-! ### Models -/

namespace Model

variable {P : Node → Prop} {m m' : Model}

/-- The limits in a model are its own and those in its parts. -/
theorem limitsHave_of_parts (own : ∀ e ∈ Dump.constraints m.constraints, P e.2)
    (properties : ∀ p ∈ m.properties, p.LimitsHave P) (enums : ∀ e ∈ m.enums, e.LimitsHave P)
    (link : ∀ l, m.link = some l → l.LimitsHave P) : m.LimitsHave P := by
  intro part hpart
  cases hpart with
  | whole => exact own
  | property mem below => exact properties _ mem part below
  | enum mem below => exact enums _ mem part below
  | link linked below => exact link _ linked part below

theorem LimitsHave.property (h : m.LimitsHave P) : ∀ p ∈ m.properties, p.LimitsHave P :=
  fun _ hp part hpart => h part (.property hp hpart)

theorem LimitsHave.enum (h : m.LimitsHave P) : ∀ e ∈ m.enums, e.LimitsHave P :=
  fun _ he part hpart => h part (.enum he hpart)

/-- Only limits, properties, enumerations and link matter. -/
theorem LimitsHave.congr (h : m.LimitsHave P) (hc : m'.constraints = m.constraints)
    (hp : m'.properties = m.properties) (he : m'.enums = m.enums) (hl : m'.link = m.link) :
    m'.LimitsHave P := by
  refine limitsHave_of_parts (hc ▸ h m .whole) (hp ▸ h.property) (he ▸ h.enum) ?_
  exact hl ▸ fun l hlink part hpart => h part (.link hlink hpart)

/-- A model without parts. -/
theorem limitsHave_of_leaf (own : ∀ e ∈ Dump.constraints m.constraints, P e.2)
    (hp : m.properties = []) (he : m.enums = []) (hl : m.link = none) : m.LimitsHave P := by
  refine limitsHave_of_parts own ?_ ?_ ?_
  · exact hp ▸ List.forall_mem_nil _
  · exact he ▸ List.forall_mem_nil _
  · exact hl ▸ fun l hlink => nomatch hlink

theorem constraints_tidy (m : Model) : m.tidy.constraints = m.constraints := by
  cases m
  rfl

theorem enums_tidy (m : Model) : m.tidy.enums = uniqueByName Model.name (m.enums.map tidy) := by
  rw [← tidyAll_eq_map]
  cases m
  rfl

/-- What is in a tidy model is a tidied part of the model. -/
theorem IsIn.of_tidy {part : Model} (h : part.IsIn m.tidy) :
    ∃ original : Model, original.IsIn m ∧ part = original.tidy := by
  generalize htidy : m.tidy = t at h
  induction h generalizing m with
  | whole => exact ⟨m, .whole, htidy.symm⟩
  | property mem _ ih =>
    rw [← htidy, properties_tidy] at mem
    obtain ⟨p, hp, rfl⟩ := List.mem_map.mp mem
    obtain ⟨original, hin, rfl⟩ := ih rfl
    exact ⟨original, .property hp hin, rfl⟩
  | enum mem _ ih =>
    rw [← htidy, enums_tidy] at mem
    obtain ⟨e, he, rfl⟩ := List.mem_map.mp (mem_of_mem_uniqueByName mem)
    obtain ⟨original, hin, rfl⟩ := ih rfl
    exact ⟨original, .enum he hin, rfl⟩
  | link linked _ ih =>
    rw [← htidy, link_tidy] at linked
    obtain ⟨l, hl, rfl⟩ := Option.map_eq_some_iff.mp linked
    obtain ⟨original, hin, rfl⟩ := ih rfl
    exact ⟨original, .link hl hin, rfl⟩

theorem LimitsHave.tidy (h : m.LimitsHave P) : m.tidy.LimitsHave P := by
  intro part hpart
  obtain ⟨original, hin, rfl⟩ := hpart.of_tidy
  exact constraints_tidy original ▸ h original hin

end Model

theorem Operation.NumbersHave.tidy {P : Node → Prop} {o : Operation} (h : o.NumbersHave P) :
    o.tidy.NumbersHave P where
  models m hm := by
    rw [models_tidy] at hm
    obtain ⟨original, horiginal, rfl⟩ := List.mem_map.mp hm
    exact (h.models original horiginal).tidy
  results r hr := by
    obtain ⟨original, horiginal, rfl⟩ := List.mem_map.mp hr
    exact h.results original horiginal
  errors := h.errors

/-! ### The rules of building -/

namespace Schema

section
variable {P : Node → Prop} {scope : Scope} {job next : Job} {model : Model}
  {children own found : List Model}

theorem Job.LeadsTo.inherit (inherited : Inherited P) (hdocument : P scope.document)
    (h : P job.schema) (hstep : Job.LeadsTo scope job next) : P next.schema := by
  cases hstep with
  | part _ source =>
    rcases source with hocc | rfl
    · exact inherited.part hocc h
    · exact inherited.empty
  | target _ _ found => exact inherited.part (Reference.occursIn_of_resolve found) hdocument

/-- The limits of a model are those of its schema before anything else is filled in. -/
theorem limitsHave_plain (composes : Dump.Composes P) (inherited : Inherited P) {schema : Node}
    (h : P schema) (name : String) (isDefinition : Bool) :
    ∀ e ∈ Dump.constraints (plainModel schema name isDefinition).constraints, P e.2 :=
  (Dump.keyed_constraints composes fun key => inherited.get h key).values

theorem limitsHave_of_mem_declared (composes : Dump.Composes P) (inherited : Inherited P)
    (h : P job.schema)
    (hsub : ∀ next ∈ job.declaredJobs, ∀ m, Job.built scope next = .ok m → m.LimitsHave P)
    (hdeclared : Job.declared scope (Job.built scope) job = .ok own) :
    ∀ p ∈ own, p.LimitsHave P := by
  intro p hp
  obtain ⟨name, isRequired, ⟨part, value, hpart, rfl⟩ | ⟨next, hnext, m, hm, rfl⟩⟩ :=
    Job.declared_cases hdeclared hp
  · have hplain := limitsHave_plain composes inherited (inherited.part hpart h) "" false
    exact Model.limitsHave_of_leaf hplain rfl rfl rfl
  · exact (hsub next hnext m hm).congr rfl rfl rfl rfl

theorem limitsHave_of_mem_promotable {members : List Node}
    (hsub : ∀ member ∈ members, ∀ next ∈ job.offeredJobs scope member, ∀ m,
      Job.built scope next = .ok m → m.LimitsHave P)
    (h : Job.promotable scope (Job.built scope) job members = .ok found) :
    ∀ c ∈ found, c.LimitsHave P := by
  intro c hc
  obtain ⟨member, hmember, next, hnext, owner, howner, hc⟩ := Job.exists_job_of_promotable h hc
  exact (hsub member hmember next hnext owner howner).property c hc

theorem limitsHave_of_mem_promote {required : List Node} {p : Model}
    (h : ∀ c ∈ found, c.LimitsHave P) (hp : p ∈ promote required found) : p.LimitsHave P := by
  obtain ⟨_, c, _, hc, _, _, rfl⟩ := exists_of_mem_promote hp
  exact (h c hc).congr rfl rfl rfl rfl

theorem limitsHave_of_mem_ownEnums {p e : Model} (h : p.LimitsHave P) (he : e ∈ ownEnums p) :
    e.LimitsHave P := by
  rcases List.mem_append.mp he with he | he
  · exact h.enum e he
  · split at he
    · exact List.mem_singleton.mp he ▸ h
    · cases he

theorem limitsHave_withProperties
    (hplain : ∀ e ∈ Dump.constraints model.constraints, P e.2) (h : ∀ p ∈ own, p.LimitsHave P)
    (hl : model.link = none) : (withProperties model own).LimitsHave P := by
  refine Model.limitsHave_of_parts hplain h (fun e he => ?_) fun l hlink => ?_
  · obtain ⟨p, hp, he⟩ := List.mem_flatMap.mp he
    exact limitsHave_of_mem_ownEnums (h p hp) he
  · exact absurd (hl.symm.trans hlink) (by simp)

theorem limitsHave_withMembers {kind : ModelKind}
    (hplain : ∀ e ∈ Dump.constraints model.constraints, P e.2)
    (hchildren : ∀ m ∈ children, m.LimitsHave P) (h : ∀ p ∈ own, p.LimitsHave P)
    (hl : model.link = none) : (withMembers model kind children own).LimitsHave P := by
  have hkept : ∀ m ∈ children.filter (!saysNothing ·), m.LimitsHave P :=
    fun m hm => hchildren m (List.mem_of_mem_filter hm)
  refine Model.limitsHave_of_parts hplain (fun p hp => ?_) (fun e he => ?_) fun l hlink => ?_
  · rcases List.mem_append.mp hp with hp | hp
    · exact hkept p hp
    · unfold ownRecord at hp
      split at hp
      · cases hp
      · rw [List.mem_singleton.mp hp]
        exact Model.limitsHave_of_parts (List.forall_mem_nil _) h (List.forall_mem_nil _)
          fun l hlink => nomatch hlink
  · rcases List.mem_append.mp he with he | he
    · obtain ⟨m, hm, he⟩ := List.mem_flatMap.mp he
      exact (hkept m hm).enum e he
    · obtain ⟨p, hp, he⟩ := List.mem_flatMap.mp he
      exact limitsHave_of_mem_ownEnums (h p hp) he
  · exact absurd (hl.symm.trans hlink) (by simp)

theorem limitsHave_withElement {kind : ModelKind} {item : Model} {link : Option Model}
    (hplain : ∀ e ∈ Dump.constraints model.constraints, P e.2)
    (h : link = none ∨ link = some item ∧ item.LimitsHave P) (hp : model.properties = [])
    (he : model.enums = []) : (withElement model kind item link).LimitsHave P := by
  refine Model.limitsHave_of_parts hplain ?_ ?_ fun l hlink => ?_
  · exact hp ▸ List.forall_mem_nil _
  · exact he ▸ List.forall_mem_nil _
  · rcases h with rfl | ⟨rfl, hitem⟩
    · cases hlink
    · cases hlink
      exact hitem

/-- A model keeps its limits when its default is filled in. -/
theorem limitsHave_withDefault {schema : Node} {m : Model} (h : m.LimitsHave P)
    (hdone : withDefault schema m = .ok model) : model.LimitsHave P := by
  obtain ⟨literal, rfl⟩ := Job.withDefault_eq_ok hdone
  exact h.congr rfl rfl rfl rfl

/-- The limits in every model that is built are limits of the schema and of the description. -/
theorem limitsHave_of_built (composes : Dump.Composes P) (inherited : Inherited P)
    (hdocument : P scope.document) (hschema : P job.schema) (h : Job.built scope job = .ok model) :
    model.LimitsHave P := by
  induction job using Job.induction scope generalizing model with
  | step job ih =>
    have hsub : ∀ next, Job.LeadsTo scope job next → ∀ m, Job.built scope next = .ok m →
        m.LimitsHave P := fun next hstep m hm =>
      ih next hstep (hstep.inherit inherited hdocument hschema) hm
    have hplain := limitsHave_plain composes inherited hschema job.name job.isDefinition
    rw [Job.built_eq] at h
    cases Job.rule_of_run h with
    | reference _ _ _ done =>
      refine limitsHave_withDefault (Model.limitsHave_of_leaf ?_ rfl rfl rfl) done
      exact hplain
    | enumeration _ done =>
      refine limitsHave_withDefault (Model.limitsHave_of_leaf ?_ rfl rfl rfl) done
      exact hplain
    | generic _ _ done =>
      refine limitsHave_withDefault (Model.limitsHave_of_leaf ?_ rfl rfl rfl) done
      exact hplain
    | unknown _ => exact Model.limitsHave_of_leaf hplain rfl rfl rfl
    | @container node kind item _ link shaped built done =>
      have hlink : link = none ∨ link = some item ∧ item.LimitsHave P := by
        rcases Job.element_cases built with hnone | ⟨hsome, next, hnext, hitem⟩
        · exact .inl hnone
        · have hstep : Job.LeadsTo scope job next := by
            rcases shaped with ⟨hs, _⟩ | ⟨hs, _⟩ <;>
              exact Job.leadsTo_of_mem_elementJobs hs (List.mem_singleton_self node) hnext
          exact .inr ⟨hsome, hsub next hstep item hitem⟩
      exact limitsHave_withDefault (limitsHave_withElement hplain hlink rfl rfl) done
    | @composition kind members children found own shaped built offered declared =>
      have hchildren : ∀ m ∈ children, m.LimitsHave P := by
        intro m hm
        obtain ⟨member, hmember, hbuilt⟩ := Except.exists_mem_of_mapM built hm
        exact hsub _ (Job.leadsTo_of_part shaped hmember) m hbuilt
      have hfound := limitsHave_of_mem_promotable (fun member hmember next hnext =>
        hsub next (Job.leadsTo_of_mem_offeredJobs shaped hmember hnext)) offered
      have hown := limitsHave_of_mem_declared composes inherited hschema (fun next hnext =>
        hsub next (Job.leadsTo_of_mem_declaredJobs hnext)) declared
      refine limitsHave_withMembers hplain hchildren (fun p hp => ?_) rfl
      rcases List.mem_append.mp hp with hp | hp
      · exact limitsHave_of_mem_promote hfound hp
      · exact hown p hp
    | record shaped declared done =>
      have hown := limitsHave_of_mem_declared composes inherited hschema (fun next hnext =>
        hsub next (Job.leadsTo_of_mem_declaredJobs hnext)) declared
      exact limitsHave_withDefault (limitsHave_withProperties hplain hown rfl) done

/-- The model of a schema in the description has limits of the description. -/
theorem limitsHave_of_build (composes : Dump.Composes P) (inherited : Inherited P) {schema : Node}
    {name : String} {isDefinition : Bool} (hdocument : P scope.document) (hschema : P schema)
    (h : build scope schema name isDefinition = .ok model) : model.LimitsHave P :=
  @limitsHave_of_built P scope ⟨[], schema, name, isDefinition⟩ model composes inherited hdocument
    hschema h

end
end Schema

/-! ### Operations -/

theorem Model.IsOfSchema.limitsHave {P : Node → Prop} {scope : Scope} {m : Model}
    (composes : Dump.Composes P) (inherited : Inherited P) (hdocument : P scope.document)
    (h : m.IsOfSchema scope P) : m.LimitsHave P := by
  cases h with
  | schema has made same =>
    exact (Schema.limitsHave_of_build composes inherited hdocument has made).congr same.constraints
      same.properties same.enums same.link
  | nothing same =>
    have hnone : ∀ e ∈ Dump.constraints m.constraints, P e.2 :=
      same.constraints ▸ List.forall_mem_nil _
    exact limitsHave_of_leaf hnone same.properties same.enums same.link

section
variable {Q : Scalar → Prop} {shop : Workshop} {entry : OperationEntry} {operation : Operation}

theorem Response.short_success : Number.isLong 200 = false :=
  @Numeral.isLong_of_signed? ['2', '0', '0'] 200 (by decide +kernel)

/-- A code is the key itself, or is read from it. -/
theorem Response.of_codeOf? (about : Scalar.IsAboutNumbers Q) {key : Scalar} {code : Int}
    (hkey : Q key) (h : codeOf? key = .ok (some code)) : Q (.int code) := by
  unfold codeOf? at h
  split at h
  · cases h
  · cases h
    exact hkey
  · obtain ⟨text, _, h⟩ := Except.bind_eq_ok_iff.mp h
    dsimp only at h
    split at h
    · cases h
      exact about.int 200 short_success
    · split at h
      · split at h
        · rename_i n hn
          cases h
          exact about.int _ (Numeral.isLong_of_signed? hn)
        · cases h
      · cases h

theorem Response.codesHave_of_buildAll {responses : List Response} {node : Node}
    (about : Scalar.IsAboutNumbers Q) (h : node.AllScalars Q)
    (hbuilt : buildAll shop node = .ok responses) : ∀ r ∈ responses, Q (.int r.code) := by
  intro r hr
  obtain ⟨entries, entry, code, rfl, hentry, hcode, hmade⟩ := exists_entry_of_buildAll hbuilt hr
  obtain rfl := code_of_build hmade
  exact of_codeOf? about (h.keys entries .whole entry hentry) hcode

/-- The numbers of an operation are numbers of its node and of the description. -/
theorem OperationEntry.numbersHave_of_build (about : Scalar.IsAboutNumbers Q)
    (hdocument : shop.document.AllScalars Q) (hentry : entry.node.AllScalars Q)
    (hpath : ∀ node ∈ entry.pathParameters, node.AllScalars Q)
    (h : (entry.build shop).operation = .ok operation) :
    operation.NumbersHave (Node.AllScalars Q) := by
  have inherited := inherited_allScalars about
  obtain ⟨path, declared, body, responses, _, _, _, hresponses, rfl⟩ := exists_assemble_of_build h
  have hcodes :=
    Response.codesHave_of_buildAll about (inherited.get hentry "responses") hresponses
  constructor
  · intro m hm
    exact (isOfSchema_of_build inherited hdocument hentry hpath h m hm).limitsHave
      (composes_allScalars about) inherited hdocument
  · intro r hr
    rcases Response.mem_of_mem_results hr with rfl | hr
    · exact Node.allScalars_scalar (about.int 200 Response.short_success)
    · exact Node.allScalars_scalar (hcodes r hr)
  · intro e he
    obtain ⟨r, hr, he⟩ := List.mem_filterMap.mp he
    split at he
    · cases he
    · obtain ⟨description, _, rfl⟩ := Option.map_eq_some_iff.mp he
      exact Node.allScalars_scalar (hcodes r hr)

end

/-! ### Clients -/

section
variable {Q : Scalar → Prop} {preferences : Preferences} {document : Node} {client : Client}
open Schema

theorem numbersHave_client (about : Scalar.IsAboutNumbers Q) (hdocument : document.AllScalars Q)
    (h : (Client.resolve preferences document).client = .ok client) :
    client.NumbersHave (Node.AllScalars Q) := by
  obtain ⟨dialect, root, models, _, made⟩ := Client.exists_madeFrom_of_resolve h
  have inherited := inherited_allScalars about
  constructor
  · intro m hm
    obtain ⟨before, hbefore, rfl⟩ := made.exists_of_mem_models hm
    have hsource := isOfSchema_definitionModels inherited hdocument made.built before hbefore
    exact (hsource.limitsHave (composes_allScalars about) inherited hdocument).tidy
  · intro service hs operation ho
    obtain ⟨before, hbefore, rfl⟩ := made.exists_of_mem_services hs
    obtain ⟨original, horiginal, name, rfl⟩ := Operation.exists_of_mem_tidyFrom ho
    rcases exists_entry_of_mem_collect hbefore horiginal with
      ⟨nothing, hnothing, _⟩ | ⟨entry, hentry, hbuilt⟩
    · cases hnothing
    · have hroot : (Node.map root).AllScalars Q := made.rooted ▸ hdocument
      obtain ⟨hnode, hpath⟩ := inherited.operationEntries hroot hentry
      have htidy :=
        (OperationEntry.numbersHave_of_build about hdocument hnode hpath hbuilt).tidy
      exact ⟨htidy.models, htidy.results, htidy.errors⟩

/-- Whatever all scalars of a description have in common is true of those of its client. -/
theorem allScalars_client (about : Scalar.IsAboutNumbers Q) (hdocument : document.AllScalars Q)
    (h : (Client.resolve preferences document).client = .ok client) :
    (Dump.client client).AllScalars Q :=
  Dump.composes_client (composes_allScalars about) (numbersHave_client about hdocument h)

end

end OpenApi
