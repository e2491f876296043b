import OpenApi.Proofs.Building
import OpenApi.Proofs.Shapes

/-
Invariants of the models that are built.

Whatever a model and the models in it have in common is established by the rules of building, one
after another: a model without parts has it, and a model made of parts has it if they do.  What the
rules have to provide for that is collected in `IsInvariant`, and `IsInvariant.built` is the one
induction that all invariants share.

There is one exception.  The record that a composition wraps its own properties in is made by no
rule, and what it would lift from its properties is lifted to the composition.  It would be a
candidate for promotion if a description required a property of its name, so invariants are carried
through compositions only where no description does (`NeverRequires`).
-/
namespace OpenApi.Schema

/-- Whether no schema in a value requires a property of the given name. -/
def NeverRequires (name : String) (node : Node) : Prop :=
  ∀ part : Node, part.OccursIn node → .str name ∉ requiredNames part

section
variable {name : String} {node : Node}

theorem NeverRequires.of_occursIn {part : Node} (h : NeverRequires name node)
    (hocc : part.OccursIn node) : NeverRequires name part :=
  fun inner hinner => h inner (hinner.trans hocc)

theorem neverRequires_scalar (name : String) (s : Scalar) : NeverRequires name (.scalar s) := by
  intro part hocc
  cases hocc
  exact List.not_mem_nil

theorem exists_required_of_mem {name : Node} {schema : Node} (h : name ∈ requiredNames schema) :
    ∃ v, schema.get? "required" = some v := by
  cases hfound : schema.get? "required" with
  | none =>
    rw [requiredNames, Node.get, hfound] at h
    cases h
  | some v => exact ⟨v, rfl⟩

theorem neverRequires_list_iff {items : List Node} :
    NeverRequires name (.list items) ↔ ∀ v ∈ items, NeverRequires name v := by
  constructor
  · exact fun h v hv => h.of_occursIn (.item hv .whole)
  · intro h part hocc
    cases hocc with
    | whole => exact List.not_mem_nil
    | item mem below => exact h _ mem part below

theorem neverRequires_map_iff {entries : Entries} :
    NeverRequires name (.map entries) ↔
      .str name ∉ requiredNames (.map entries) ∧ ∀ e ∈ entries, NeverRequires name e.2 := by
  constructor
  · exact fun h => ⟨h _ .whole, fun e he => h.of_occursIn (.entry he .whole)⟩
  · rintro ⟨hown, h⟩ part hocc
    cases hocc with
    | whole => exact hown
    | entry mem below => exact h _ mem part below

theorem neverRequires_empty (name : String) : NeverRequires name (.map []) :=
  neverRequires_map_iff.mpr ⟨List.not_mem_nil, fun _ h => nomatch h⟩

theorem NeverRequires.step {scope : Scope} {job next : Job}
    (hdocument : NeverRequires name scope.document) (h : NeverRequires name job.schema)
    (hstep : Job.LeadsTo scope job next) : NeverRequires name next.schema := by
  cases hstep with
  | part _ source =>
    rcases source with hocc | rfl
    · exact h.of_occursIn hocc
    · exact neverRequires_empty name
  | target _ _ found => exact hdocument.of_occursIn (Reference.occursIn_of_resolve found)

end

/-- No name of a property is that of the record, unless the record's name is required. -/
theorem quoteUnlessBare_ne {s : String} (h : s ≠ "properties") :
    Name.quoteUnlessBare s ≠ "properties" := by
  unfold Name.quoteUnlessBare
  split
  · exact h
  · intro heq
    have hlist := congrArg String.toList heq
    rw [String.toList_append, String.toList_append] at hlist
    cases hlist

/-- A property of models that every rule of building keeps up. -/
structure IsInvariant (P : Model → Prop) : Prop where
  /-- Names, defaults and the like do not matter. -/
  congr {m m' : Model} (h : P m) (kind : m'.kind = m.kind) (imports : m'.imports = m.imports)
    (properties : m'.properties = m.properties) (enums : m'.enums = m.enums)
    (link : m'.link = m.link) : P m'
  leaf {m : Model} (properties : m.properties = []) (enums : m.enums = []) (link : m.link = none) :
    P m
  element (job : Job) {kind : ModelKind} {item : Model} {link : Option Model}
    (h : link = none ∨ link = some item ∧ P item) : P (withElement job.plain kind item link)
  record (job : Job) {own : List Model} (h : ∀ p ∈ own, P p) : P (withProperties job.plain own)
  composition (job : Job) {kind : ModelKind} {children own : List Model} (named : kind ≠ .record)
    (hchildren : ∀ m ∈ children, P m) (h : ∀ p ∈ own, P p) :
    P (withMembers job.plain kind children own)

/-- A model has a property, and so have its own properties but for the record of a composition. -/
structure HasThroughout (P : Model → Prop) (m : Model) : Prop where
  whole : P m
  properties : ∀ p ∈ m.properties, p.name ≠ "properties" → P p

namespace IsInvariant

variable {P : Model → Prop} {scope : Scope} {job : Job} {model : Model}
  {children own found : List Model}

theorem leafThroughout (inv : IsInvariant P) {m : Model} (hp : m.properties = [])
    (he : m.enums = []) (hl : m.link = none) : HasThroughout P m :=
  ⟨inv.leaf hp he hl, fun _ hmem => absurd (hp ▸ hmem) List.not_mem_nil⟩

theorem withDefault (inv : IsInvariant P) {schema : Node} {m : Model} (h : HasThroughout P m)
    (hdone : withDefault schema m = .ok model) : HasThroughout P model := by
  obtain ⟨literal, rfl⟩ := Job.withDefault_eq_ok hdone
  exact ⟨inv.congr h.whole rfl rfl rfl rfl rfl, h.properties⟩

theorem of_mem_declared (inv : IsInvariant P)
    (hsub : ∀ next ∈ job.declaredJobs, ∀ m, Job.built scope next = .ok m → P m)
    (h : Job.declared scope (Job.built scope) job = .ok own) : ∀ p ∈ own, P p := by
  intro p hp
  obtain ⟨name, isRequired, ⟨part, value, _, rfl⟩ | ⟨next, hnext, m, hm, rfl⟩⟩ :=
    Job.declared_cases h hp
  · exact inv.leaf rfl rfl rfl
  · exact inv.congr (hsub next hnext m hm) rfl rfl rfl rfl rfl

/-- What is promoted has the property unless the name of the record is required. -/
theorem of_mem_promote (inv : IsInvariant P) {members : List Node} {required : List Node}
    (hrequired : .str "properties" ∉ required)
    (hsub : ∀ member ∈ members, ∀ next ∈ job.offeredJobs scope member, ∀ m,
      Job.built scope next = .ok m → HasThroughout P m)
    (h : Job.promotable scope (Job.built scope) job members = .ok found) :
    ∀ p ∈ promote required found, P p := by
  intro p hp
  obtain ⟨name, c, hname, hc, hsame, _, rfl⟩ := exists_of_mem_promote hp
  obtain ⟨member, hmember, next, hnext, owner, howner, hc⟩ := Job.exists_job_of_promotable h hc
  have hne : c.name ≠ "properties" := by
    rw [hsame]
    exact quoteUnlessBare_ne fun heq => hrequired (heq ▸ hname)
  exact inv.congr ((hsub member hmember next hnext owner howner).properties c hc hne)
    rfl rfl rfl rfl rfl

theorem throughout_withMembers (inv : IsInvariant P) (job : Job) {kind : ModelKind}
    (named : kind ≠ .record) (hchildren : ∀ m ∈ children, P m) (h : ∀ p ∈ own, P p) :
    HasThroughout P (withMembers job.plain kind children own) := by
  refine ⟨inv.composition job named hchildren h, fun p hp hname => ?_⟩
  rcases List.mem_append.mp hp with hp | hp
  · exact hchildren p (List.mem_of_mem_filter hp)
  · unfold ownRecord at hp
    split at hp
    · cases hp
    · rw [List.mem_singleton.mp hp] at hname
      exact absurd rfl hname

/-- Every model that is built has an invariant, in a description that never requires the record of a
composition. -/
theorem built (inv : IsInvariant P) (hdocument : NeverRequires "properties" scope.document)
    (hschema : NeverRequires "properties" job.schema) (h : Job.built scope job = .ok model) :
    HasThroughout P model := by
  induction job using Job.induction scope generalizing model with
  | step job ih =>
    have hsub : ∀ next, Job.LeadsTo scope job next → ∀ m, Job.built scope next = .ok m →
        HasThroughout P m := fun next hstep m hm =>
      ih next hstep (NeverRequires.step hdocument hschema hstep) hm
    have hdeclared (next : Job) (hnext : next ∈ job.declaredJobs) (m : Model)
        (hm : Job.built scope next = .ok m) : P m :=
      (hsub next (Job.leadsTo_of_mem_declaredJobs hnext) m hm).whole
    rw [Job.built_eq] at h
    cases Job.rule_of_run h with
    | reference _ _ _ done => exact inv.withDefault (inv.leafThroughout rfl rfl rfl) done
    | enumeration _ done => exact inv.withDefault (inv.leafThroughout rfl rfl rfl) done
    | generic _ _ done => exact inv.withDefault (inv.leafThroughout rfl rfl rfl) done
    | unknown _ => exact inv.leafThroughout rfl rfl rfl
    | @container node kind item _ link shaped built done =>
      have hlink : link = none ∨ link = some item ∧ P item := by
        rcases Job.element_cases built with hnone | ⟨hsome, next, hnext, hitem⟩
        · exact .inl hnone
        · have hstep : Job.LeadsTo scope job next := by
            rcases shaped with ⟨hs, _⟩ | ⟨hs, _⟩ <;>
              exact Job.leadsTo_of_mem_elementJobs hs (List.mem_singleton_self node) hnext
          exact .inr ⟨hsome, (hsub next hstep item hitem).whole⟩
      exact inv.withDefault ⟨inv.element job hlink, fun _ hp => nomatch hp⟩ done
    | @composition kind members children found own shaped built offered declared =>
      have named : kind ≠ .record := by
        cases shapeOf_shape shaped with
        | composition composed => exact kind_ne_of_composition? composed (by decide)
      have hchildren : ∀ m ∈ children, P m := by
        intro m hm
        obtain ⟨member, hmember, hbuilt⟩ := Except.exists_mem_of_mapM built hm
        exact (hsub _ (Job.leadsTo_of_part shaped hmember) m hbuilt).whole
      have hpromoted := inv.of_mem_promote (hschema job.schema .whole)
        (fun member hmember next hnext =>
          hsub next (Job.leadsTo_of_mem_offeredJobs shaped hmember hnext)) offered
      exact inv.throughout_withMembers job named hchildren fun p hp =>
        (List.mem_append.mp hp).elim (hpromoted p) (inv.of_mem_declared hdeclared declared p)
    | record shaped declared done =>
      have hown := inv.of_mem_declared hdeclared declared
      exact inv.withDefault ⟨inv.record job hown, fun p hp _ => hown p hp⟩ done

end IsInvariant
end OpenApi.Schema
