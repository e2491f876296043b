import OpenApi.Proofs.InStep
import OpenApi.Proofs.Inherited
import OpenApi.Proofs.OwnProperties
import OpenApi.Proofs.PlainKeywords

/-
Schemas of two descriptions that stand for each other.

A description may be spelled in another way, moved or added to, and the question is always whether
its schemas come to the models that they came to before.  A `Correspondence` says what has to be
known for that: which schemas stand for each other (`same`), which references do (`link`), and that
whatever is read of two such schemas is alike, down to their parts.  Building goes down from schemas
to their parts and to the targets of references, so schemas that correspond come to the same model
(`built_inStep`).

Failures of the first description may be excused: a reference that leads nowhere there may well lead
somewhere in the second one.
-/
namespace OpenApi.Schema

/-- References that stand for each other: linked texts, or values that are no references at all. -/
inductive SameReference (link : String → String → Prop) : Node → Node → Prop where
  | text {ref ref' : String} (linked : link ref ref') : SameReference link (.str ref) (.str ref')
  | noText {ref ref' : Node} (kind : ref.kind ≠ .str) (kind' : ref'.kind ≠ .str) :
    SameReference link ref ref'

/-- Properties of one name whose schemas stand for each other. -/
structure SameEntry (same : Node → Node → Prop) (entry entry' : Scalar × Node) : Prop where
  written : entry.1.written = entry'.1.written
  schema : same entry.2 entry'.2

section
variable (scope scope' : Scope) (link : String → String → Prop) (same : Node → Node → Prop)
  (schema schema' : Node)

/-- Shapes of one kind whose parts stand for each other. -/
inductive SameShape : Shape → Shape → Prop where
  | reference {ref ref' : Node} (h : SameReference link ref ref') :
    SameShape (.reference ref) (.reference ref')
  | enumeration (type : String) (members : List Enumerator) :
    SameShape (.enumeration type members) (.enumeration type members)
  | array {items items' : Node} (h : same items items') : SameShape (.array items) (.array items')
  | dictionary {values values' : Node} (h : same values values') :
    SameShape (.dictionary values) (.dictionary values')
  | composition (kind : ModelKind) {members members' : List Node}
    (h : List.Forall₂ same members members') :
    SameShape (.composition kind members) (.composition kind members')
  | record : SameShape .record .record
  | generic {type type' : Node}
    (h : scope.typeOf type (schema.get "format") = scope'.typeOf type' (schema'.get "format")) :
    SameShape (.generic type) (.generic type')
  | unknown : SameShape .unknown .unknown

/-- Schemas that say the same, their parts apart. -/
structure Alike : Prop where
  plainModel (name : String) (isDefinition : Bool) :
    plainModel schema name isDefinition = plainModel schema' name isDefinition
  withDefault (model : Model) : withDefault schema model = withDefault schema' model
  isEmpty : (requiredNames schema).isEmpty = (requiredNames schema').isEmpty
  promote (candidates : List Model) :
    promote (requiredNames schema) candidates = promote (requiredNames schema') candidates
  listHas (name : String) :
    Node.listHas name (requiredNames schema) = Node.listHas name (requiredNames schema')
  valueOf (parent name : String) : (propertyContext scope schema parent).valueOf scope name =
    (propertyContext scope' schema' parent).valueOf scope' name

/-- How the schemas of one description stand for those of another. -/
structure Correspondence (excused : Failure → Prop) : Prop where
  eq_iff {ref ref' other other' : String} (h : link ref ref') (hother : link other other') :
    ref = other ↔ ref' = other'
  resolve {ref ref' : String} (h : link ref ref') :
    InStepUnless excused same (Reference.resolve scope.document (.str ref))
      (Reference.resolve scope'.document (.str ref'))
  typeOf {ref ref' : String} {target : Node} (h : link ref ref')
    (found : Reference.resolve scope.document (.str ref) = .ok target) :
    scope.typeOf (.str ref) .null = scope'.typeOf (.str ref') .null
  reference {schema schema' : Node} (h : same schema schema') :
    Option.Rel (SameReference link) (schema.get? "$ref") (schema'.get? "$ref")
  shaped {schema schema' : Node} (h : same schema schema') :
    InStepUnless excused (SameShape scope scope' link same schema schema') (shape schema)
      (shape schema')
  alike {schema schema' : Node} (h : same schema schema') : Alike scope scope' schema schema'
  properties {schema schema' : Node} (h : same schema schema') :
    List.Forall₂ (SameEntry same) ((schema.get "properties").entries?.getD [])
      ((schema'.get "properties").entries?.getD [])

end

/-- The keywords of schemas themselves say all but the values of fixed properties. -/
theorem SameKeywords.alike {scope scope' : Scope} {schema schema' : Node}
    (h : SameKeywords schema schema')
    (hvalue : ∀ parent name : String, (propertyContext scope schema parent).valueOf scope name =
      (propertyContext scope' schema' parent).valueOf scope' name) :
    Alike scope scope' schema schema' where
  plainModel := h.plainModel_eq
  withDefault := h.withDefault_eq
  isEmpty := by rw [h.requiredNames_eq]
  promote _ := by rw [h.requiredNames_eq]
  listHas _ := by rw [h.requiredNames_eq]
  valueOf := hvalue

/-- The value of a property depends on the discriminator of its parent only. -/
theorem valueOf_eq {scope scope' : Scope} {f : Node → Node} {parent : String}
    (hfound : scope'.discriminator? parent = (scope.discriminator? parent).map f)
    (hsame : ∀ discriminator, scope.discriminator? parent = some discriminator →
      (∀ name, ((f discriminator).get "propertyName").isText name =
        (discriminator.get "propertyName").isText name) ∧
      scope'.fixedValue parent (f discriminator) = scope.fixedValue parent discriminator)
    (schema schema' : Node) (name : String) :
    (propertyContext scope schema parent).valueOf scope name =
      (propertyContext scope' schema' parent).valueOf scope' name := by
  have hmapped : (propertyContext scope' schema' parent).discriminator =
      (propertyContext scope schema parent).discriminator.map f := by
    rw [propertyContext, propertyContext]
    dsimp only
    by_cases hempty : parent.isEmpty = true
    · rw [if_pos hempty, if_pos hempty, Option.map_none]
    · rw [if_neg hempty, if_neg hempty, hfound]
  have hparent (scope : Scope) (schema : Node) :
      (propertyContext scope schema parent).parent = parent := rfl
  rw [PropertyContext.valueOf, PropertyContext.valueOf, hmapped, hparent, hparent]
  cases hdiscriminator : (propertyContext scope schema parent).discriminator with
  | none => rfl
  | some discriminator =>
    obtain ⟨hname, hvalue⟩ := hsame discriminator (discriminator?_of_propertyContext hdiscriminator)
    dsimp only [Option.map_some]
    rw [hname, hvalue]

/-- Jobs for schemas that stand for each other. -/
structure SameJob (link : String → String → Prop) (same : Node → Node → Prop) (job job' : Job) :
    Prop where
  schema : same job.schema job'.schema
  following : List.Forall₂ link job.following job'.following
  name : job.name = job'.name
  isDefinition : job.isDefinition = job'.isDefinition

theorem exists_offered_eq_error (scope : Scope) (build : Job → Except Failure Model) (job : Job)
    {member ref : Node} (hget : member.get? "$ref" = some ref) (hkind : ref.kind ≠ .str) :
    ∃ failure, Job.offered scope build job member = .error failure := by
  obtain ⟨failure, hfailure⟩ := Reference.exists_resolve_eq_error hkind scope.document
  refine ⟨failure, ?_⟩
  unfold Job.offered
  split
  · rename_i text htext
    rw [hget] at htext
    cases htext
    exact absurd rfl hkind
  · rename_i other _ hother
    rw [hget] at hother
    cases hother
    rw [hfailure]
    rfl
  · rename_i hnone
    rw [hget] at hnone
    cases hnone

namespace SameJob

variable {link : String → String → Prop} {same : Node → Node → Prop} {job job' : Job}

theorem inner (h : SameJob link same job job') {part part' : Node} (hpart : same part part') :
    SameJob link same (job.inner part) (job'.inner part') := ⟨hpart, h.following, rfl, rfl⟩

theorem target (h : SameJob link same job job') {ref ref' : String} {schema schema' : Node}
    (href : link ref ref') (hschema : same schema schema') :
    SameJob link same (job.target ref schema) (job'.target ref' schema') :=
  ⟨hschema, .cons href h.following, rfl, rfl⟩

end SameJob

namespace Correspondence

variable {scope scope' : Scope} {link : String → String → Prop} {same : Node → Node → Prop}
  {excused : Failure → Prop} {build build' : Job → Except Failure Model} {job job' : Job}

/-- The same references are being followed. -/
theorem mem_iff (c : Correspondence scope scope' link same excused) {ref ref' : String}
    {following following' : List String} (h : link ref ref')
    (hall : List.Forall₂ link following following') : ref ∈ following ↔ ref' ∈ following' := by
  induction hall with
  | nil => exact ⟨nofun, nofun⟩
  | cons hother _ ih => rw [List.mem_cons, List.mem_cons, ih, c.eq_iff h hother]

theorem resolve_inStep (c : Correspondence scope scope' link same excused) {ref ref' : Node}
    (h : SameReference link ref ref') :
    InStepUnless excused same (Reference.resolve scope.document ref)
      (Reference.resolve scope'.document ref') := by
  cases h with
  | text linked => exact c.resolve linked
  | noText kind kind' =>
    obtain ⟨failure, hfailure⟩ := Reference.exists_resolve_eq_error kind scope.document
    obtain ⟨failure', hfailure'⟩ := Reference.exists_resolve_eq_error kind' scope'.document
    rw [hfailure, hfailure']
    exact True.intro

/-- The type that a reference names, if it leads anywhere. -/
theorem typeOf_eq (c : Correspondence scope scope' link same excused) {ref ref' target : Node}
    (h : SameReference link ref ref')
    (found : Reference.resolve scope.document ref = .ok target) :
    scope.typeOf ref .null = scope'.typeOf ref' .null := by
  cases h with
  | text linked => exact c.typeOf linked found
  | noText kind _ =>
    obtain ⟨failure, hfailure⟩ := Reference.exists_resolve_eq_error kind scope.document
    rw [hfailure] at found
    cases found

/-- Whether the jobs that a job leads to come to the same. -/
def KeepsUp (scope : Scope) (link : String → String → Prop) (same : Node → Node → Prop)
    (excused : Failure → Prop) (build build' : Job → Except Failure Model) (job : Job) : Prop :=
  ∀ next next', Job.LeadsTo scope job next → SameJob link same next next' →
    InStepUnless excused Eq (build next) (build' next')

section
variable (c : Correspondence scope scope' link same excused) (hjob : SameJob link same job job')
  (hbuild : KeepsUp scope link same excused build build' job)
include c hjob hbuild

theorem element_inStep {found : Shape} (hs : shape job.schema = .ok found) {node node' : Node}
    (hpart : node ∈ found.parts) (h : same node node') :
    InStepUnless excused Eq (Job.element scope build job node)
      (Job.element scope' build' job' node') := by
  have href := c.reference h
  unfold Job.element
  generalize node.get? "$ref" = ref, node'.get? "$ref" = ref' at href ⊢
  cases href with
  | some hsame =>
    refine (c.resolve_inStep hsame).bind fun target target' htarget _ => ?_
    rw [c.typeOf_eq hsame htarget]
    exact InStepUnless.refl _
  | none =>
    exact (hbuild _ _ (Job.leadsTo_of_part hs hpart) (hjob.inner h)).bind_eq fun element _ =>
      InStepUnless.refl _

theorem offered_inStep {found : Shape} (hs : shape job.schema = .ok found) {member member' : Node}
    (hpart : member ∈ found.parts) (h : same member member') :
    InStepUnless excused Eq (Job.offered scope build job member)
      (Job.offered scope' build' job' member') := by
  have href := c.reference h
  generalize hget : member.get? "$ref" = ref, hget' : member'.get? "$ref" = ref' at href
  cases href with
  | none =>
    rw [Job.offered, hget, Job.offered, hget']
    exact (hbuild _ _ (Job.leadsTo_of_part hs hpart) (hjob.inner h)).map_eq _
  | some hsame =>
    cases hsame with
    | @text ref ref' linked =>
      rw [Job.offered, hget, Job.offered, hget']
      dsimp only
      by_cases hfollowed : ref ∈ job.following
      · rw [if_pos hfollowed, if_pos ((c.mem_iff linked hjob.following).mp hfollowed)]
        exact InStepUnless.refl _
      · rw [if_neg hfollowed, if_neg ((c.mem_iff linked hjob.following).not.mp hfollowed)]
        refine (c.resolve linked).bind fun target target' htarget hsame => ?_
        have hleads : Job.LeadsTo scope job (job.target ref target) := by
          refine Job.leadsTo_of_mem_offeredJobs hs hpart ?_
          rw [Job.offeredJobs, hget]
          dsimp only
          rw [if_neg hfollowed, htarget]
          exact List.mem_singleton_self _
        exact (hbuild _ _ hleads (hjob.target linked hsame)).map_eq _
    | noText kind kind' =>
      -- Neither of the two leads anywhere.
      obtain ⟨failure, hfailure⟩ := exists_offered_eq_error scope build job hget kind
      obtain ⟨failure', hfailure'⟩ := exists_offered_eq_error scope' build' job' hget' kind'
      rw [hfailure, hfailure']
      exact True.intro

theorem promotable_inStep {kind : ModelKind} {members members' : List Node}
    (hs : shape job.schema = .ok (.composition kind members))
    (h : List.Forall₂ same members members') :
    InStepUnless excused Eq (Job.promotable scope build job members)
      (Job.promotable scope' build' job' members') := by
  rw [Job.promotable, Job.promotable, (c.alike hjob.schema).isEmpty]
  by_cases hempty : (requiredNames job'.schema).isEmpty = true
  · rw [if_pos hempty, if_pos hempty]
    exact InStepUnless.refl _
  · rw [if_neg hempty, if_neg hempty]
    exact InStepUnless.map_eq _ (InStepUnless.mapM h fun member hmem _ hsame =>
      c.offered_inStep hjob hbuild hs hmem hsame)

theorem property_inStep {entry entry' : Scalar × Node} (h : SameEntry same entry entry')
    (hleads : Job.LeadsTo scope job (job.inner entry.2)) :
    InStepUnless excused Eq
      (Job.property scope build job (propertyContext scope job.schema job.name) entry)
      (Job.property scope' build' job' (propertyContext scope' job'.schema job'.name) entry') := by
  have halike := c.alike hjob.schema
  have hcontext (schema : Node) (parent : String) (scope : Scope) :
      (propertyContext scope schema parent).required = requiredNames schema := rfl
  unfold Job.property
  rw [h.written]
  refine (InStepUnless.refl _).bind_eq fun name _ => ?_
  dsimp only
  rw [hcontext, hcontext, halike.listHas, halike.valueOf, hjob.name]
  refine (InStepUnless.refl _).bind_eq fun value _ => ?_
  cases value with
  | some value =>
    refine InStepUnless.of_eq ?_
    dsimp only
    rw [fixedProperty, fixedProperty, (c.alike h.schema).plainModel]
  | none => exact (hbuild _ _ hleads (hjob.inner h.schema)).map_eq _

theorem declared_inStep :
    InStepUnless excused Eq (Job.declared scope build job) (Job.declared scope' build' job') := by
  rw [declared_eq, declared_eq]
  refine InStepUnless.mapM (c.properties hjob.schema) fun entry hentry _ hsame => ?_
  refine c.property_inStep hjob hbuild hsame ?_
  refine Job.leadsTo_of_mem_declaredJobs ?_
  rw [declaredJobs_eq]
  exact List.mem_map_of_mem hentry

theorem byShape_inStep {found found' : Shape} (hs : shape job.schema = .ok found)
    (h : SameShape scope scope' link same job.schema job'.schema found found') :
    InStepUnless excused Eq (Job.byShape scope build job found)
      (Job.byShape scope' build' job' found') := by
  have halike := c.alike hjob.schema
  have hdone (model : Model) : InStepUnless excused Eq (withDefault job.schema model)
      (withDefault job'.schema model) := InStepUnless.of_eq (halike.withDefault model)
  unfold Job.byShape
  rw [← hjob.name, ← hjob.isDefinition, ← halike.plainModel]
  cases h with
  | reference hsame =>
    refine (c.resolve_inStep hsame).bind fun target target' htarget _ => ?_
    rw [c.typeOf_eq hsame htarget]
    exact (InStepUnless.refl _).bind_eq fun use _ => hdone _
  | enumeration type members => exact hdone _
  | array hsame =>
    exact (c.element_inStep hjob hbuild hs (List.mem_singleton_self _) hsame).bind_eq fun _ _ =>
      hdone _
  | dictionary hsame =>
    exact (c.element_inStep hjob hbuild hs (List.mem_singleton_self _) hsame).bind_eq fun _ _ =>
      hdone _
  | composition kind hsame =>
    refine (InStepUnless.mapM hsame fun member hmem _ hmember =>
      hbuild _ _ (Job.leadsTo_of_part hs hmem) (hjob.inner hmember)).bind_eq fun children _ => ?_
    refine (c.promotable_inStep hjob hbuild hs hsame).bind_eq fun found _ => ?_
    refine (c.declared_inStep hjob hbuild).bind_eq fun own _ => ?_
    rw [halike.promote]
    exact InStepUnless.refl _
  | record => exact (c.declared_inStep hjob hbuild).bind_eq fun _ _ => hdone _
  | generic htype =>
    dsimp only
    rw [htype]
    exact (InStepUnless.refl _).bind_eq fun use _ => hdone _
  | unknown => exact InStepUnless.refl _

/-- Jobs that correspond come to the same if the jobs that they lead to do. -/
theorem run_inStep :
    InStepUnless excused Eq (Job.run scope build job) (Job.run scope' build' job') :=
  (c.shaped hjob.schema).bind fun _ _ hs hsame => c.byShape_inStep hjob hbuild hs hsame

end

/-- Schemas that correspond come to the same model. -/
theorem built_inStep (c : Correspondence scope scope' link same excused)
    (hjob : SameJob link same job job') :
    InStepUnless excused Eq (Job.built scope job) (Job.built scope' job') := by
  -- The jobs that the first one leads to are enough to induct on, since the second one leads to
  -- those that correspond to them.
  induction job using Job.induction scope generalizing job' with
  | step job ih =>
    rw [Job.built_eq, Job.built_eq scope']
    exact c.run_inStep hjob fun next next' hleads hnext => ih next hleads hnext

theorem build_inStep (c : Correspondence scope scope' link same excused) {schema schema' : Node}
    (h : same schema schema') (name : String) (isDefinition : Bool) :
    InStepUnless excused Eq (Schema.build scope schema name isDefinition)
      (Schema.build scope' schema' name isDefinition) := by
  have hjob : SameJob link same ⟨[], schema, name, isDefinition⟩
      ⟨[], schema', name, isDefinition⟩ := ⟨h, .nil, rfl, rfl⟩
  exact c.built_inStep hjob

end Correspondence
end OpenApi.Schema
