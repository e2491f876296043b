import OpenApi.Proofs.Building
import OpenApi.Proofs.DescribedMembers
import OpenApi.Proofs.Enumerators
import OpenApi.Proofs.FailingJobs
import OpenApi.Proofs.Inherited

/-
Building the model of a JSON value fails by a reference or not at all.

Whatever is read of a schema may be of any kind: a value of the wrong kind says nothing, and one
that is used as a text has a text.  So the only failures left are references that lead nowhere.

Other parts of a description can be malformed.  `FailsAmong causes` therefore leaves open which
malformations are counted in, and what is said of models holds for any of them.
-/
namespace OpenApi

/-- Whether a failure is a reference that leads nowhere, or a malformation among given ones. -/
def Failure.Among (causes : Malformation → Prop) : Failure → Prop
  | .unresolvable .. => True
  | .unsupported _ => False
  | .malformed cause => causes cause

/-- Whether a computation fails by a reference, by one of the given malformations, or not at all. -/
def FailsAmong (causes : Malformation → Prop) {α : Type} (outcome : Except Failure α) : Prop :=
  ∀ failure, outcome = .error failure → failure.Among causes

/-- A reference that leads nowhere is blamed under its own text. -/
theorem Reference.exists_text_of_resolve {document ref : Node} {failure : Failure}
    (json : ref.isJson = true) (h : resolve document ref = .error failure) :
    ∃ text fault, ref.written = .ok text ∧ failure = .unresolvable text fault := by
  obtain ⟨text, htext⟩ := Node.exists_written json
  refine ⟨text, ?_⟩
  unfold resolve at h
  split at h
  · cases htext
    split at h
    · split at h
      · cases h
      · cases h
        exact ⟨_, rfl, rfl⟩
    · cases h
      exact ⟨_, rfl, rfl⟩
  · rw [htext] at h
    cases h
    exact ⟨_, htext, rfl⟩

namespace FailsAmong

variable {causes : Malformation → Prop} {α β : Type}

theorem of_exists {outcome : Except Failure α} (h : ∃ a, outcome = .ok a) :
    FailsAmong causes outcome := by
  obtain ⟨a, rfl⟩ := h
  exact fun failure hfailure => nomatch hfailure

theorem ok (a : α) : FailsAmong causes (.ok a) := of_exists ⟨a, rfl⟩

theorem error {failure : Failure} (h : failure.Among causes) :
    FailsAmong causes (.error failure : Except Failure α) := by
  intro failure' hfailure
  cases hfailure
  exact h

theorem bind {outcome : Except Failure α} {next : α → Except Failure β}
    (first : FailsAmong causes outcome)
    (rest : ∀ a, outcome = .ok a → FailsAmong causes (next a)) :
    FailsAmong causes (outcome >>= next) := by
  cases outcome with
  | error failure => exact error (first failure rfl)
  | ok a => exact rest a rfl

/-- What follows a computation that is known to succeed. -/
theorem bind_of_ok {outcome : Except Failure α} {next : α → Except Failure β} {a : α}
    (h : outcome = .ok a) (rest : FailsAmong causes (next a)) :
    FailsAmong causes (outcome >>= next) := by
  rw [h]
  exact rest

theorem map {outcome : Except Failure α} (h : FailsAmong causes outcome) (f : α → β) :
    FailsAmong causes (outcome.map f) := by
  cases outcome with
  | error failure => exact error (h failure rfl)
  | ok a => exact ok (f a)

theorem mapM {f : α → Except Failure β} {items : List α}
    (h : ∀ item ∈ items, FailsAmong causes (f item)) : FailsAmong causes (items.mapM f) := by
  induction items with
  | nil => exact ok []
  | cons item rest ih =>
    rw [List.forall_mem_cons] at h
    rw [List.mapM_cons]
    refine h.1.bind fun b _ => ?_
    exact (ih h.2).bind fun bs _ => ok (b :: bs)

theorem resolve (document : Node) {ref : Node} (json : ref.isJson = true) :
    FailsAmong causes (Reference.resolve document ref) := by
  intro failure h
  obtain ⟨text, fault, _, rfl⟩ := Reference.exists_text_of_resolve json h
  exact trivial

theorem target (document : Node) {node : Node} (json : node.isJson = true) :
    FailsAmong causes (Reference.target document node) := by
  unfold Reference.target
  split
  · rename_i ref href
    exact resolve document (Node.isJson_get? json href)
  · exact ok node

end FailsAmong

/-! ### Enumerations and types -/

namespace Enumerator

theorem exists_ofValue {value : Node} (json : value.isJson = true) :
    ∃ member, ofValue value = .ok member :=
  exists_ofValue_iff.mpr (Json.hasText_of_isJson .sortedLine json)

theorem exists_ofValues {values : Node} (json : values.isJson = true) :
    ∃ members, ofValues values = .ok members := by
  unfold ofValues
  split
  · rename_i values
    have hmembers : ∃ members, ((withoutRepeats values).filter isPresent).mapM ofValue =
        .ok members := by
      refine Except.exists_mapM fun value hvalue => exists_ofValue ?_
      have hmem := (firstOnes_sublist values).subset (List.mem_of_mem_filter hvalue)
      exact Node.isJson_list_iff.mp json value hmem
    obtain ⟨members, hmembers⟩ := hmembers
    exact ⟨_, by rw [hmembers]; rfl⟩
  · exact ⟨[], rfl⟩

theorem length_digits_of_mem_pairs {cs : List Char} {p : List Char × List Char}
    (fit : Text.digitsFit cs = true) (h : p ∈ pairs cs) : p.2.length ≤ Number.longest := by
  induction hlength : cs.length using Nat.strong_induction_on generalizing cs with
  | h n ih =>
    subst hlength
    cases cs with
    | nil =>
      rw [pairs] at h
      cases h
    | cons c rest =>
      cases hpair : pair? (c :: rest) with
      | none =>
        obtain ⟨front, back, heq, hpairs⟩ := pairs_of_not_pair? hpair
        rw [hpairs] at h
        have hshorter : back.length < (c :: rest).length := by
          rw [← heq, List.length_cons, List.length_append]
          omega
        have hback : (c :: front) ++ back = c :: rest := congrArg (c :: ·) heq
        exact ih _ hshorter (Text.digitsFit_of_suffix fit hback) h rfl
      | some found =>
        obtain ⟨p', after⟩ := found
        obtain ⟨tail, front, heq, hdigits, hafter⟩ := pair?_cases hpair
        have htail : Text.digitsFit tail = true := Text.digitsFit_of_suffix fit heq
        rw [pairs_of_pair? hpair] at h
        rcases List.mem_cons.mp h with rfl | h
        · rw [hdigits]
          exact Nat.le_trans (Text.length_takeWhile_le_of_imp @Text.isDigitLike_of_isDigit tail)
            (Text.length_digits_le htail)
        · have hwhole : tail.takeWhile Char.isDigit ++ after = tail := by
            rw [hafter, List.takeWhile_append_dropWhile]
          exact ih _ (length_pair?_lt hpair) (Text.digitsFit_of_suffix htail hwhole) h rfl

theorem exists_ofDescription {description : Node} (json : description.isJson = true) :
    ∃ members, ofDescription description = .ok members := by
  refine (okIff_ofDescription description).exists_iff.mpr fun p hp => ?_
  unfold listedPairs at hp
  split at hp
  · split at hp
    · exact length_digits_of_mem_pairs json hp
    · cases hp
  · cases hp

end Enumerator

theorem TypeUse.exists_ofNode (dialect : Dialect) {value : Node} (format : Node)
    (json : value.isJson = true) : ∃ use, TypeUse.ofNode dialect value format = .ok use := by
  unfold ofNode
  split
  · exact ⟨_, rfl⟩
  · rename_i items
    have hnames : ∃ names, (items.filter (!·.isText "null")).mapM Node.written = .ok names :=
      Except.exists_mapM fun item hitem =>
        Node.exists_written (Node.isJson_list_iff.mp json item (List.mem_of_mem_filter hitem))
    obtain ⟨names, hnames⟩ := hnames
    exact ⟨_, by rw [ofList, hnames]; rfl⟩
  · exact ⟨_, rfl⟩
  · exact ⟨_, rfl⟩

/-! ### Schemas -/

namespace Schema

variable {schema : Node}

theorem isEdge_of_isJson (json : schema.isJson = true) : isEdge schema = false := by
  unfold isEdge
  split
  · cases json
  · rename_i entries
    rw [List.any_eq_false]
    rintro ⟨key, value⟩ he
    have hvalue := (Node.isJson_map_iff.mp json _ he).2
    cases value with
    | endless => cases hvalue
    | _ => exact Bool.false_ne_true
  · rfl

theorem exists_listedMembers (json : schema.isJson = true) :
    ∃ members, listedMembers schema = .ok members := by
  unfold listedMembers
  split
  · rename_i values hvalues
    split
    · exact ⟨[], rfl⟩
    · obtain ⟨members, hmembers⟩ := Enumerator.exists_ofValues (Node.isJson_get? json hvalues)
      exact ⟨_, by rw [hmembers]; rfl⟩
  · exact ⟨[], rfl⟩

theorem exists_describedMembers (json : schema.isJson = true) :
    ∃ members, describedMembers schema = .ok members := by
  unfold describedMembers
  dsimp only
  split
  · exact Enumerator.exists_ofDescription (Node.isJson_get json "description")
  · exact ⟨[], rfl⟩

theorem exists_shape (json : schema.isJson = true) : ∃ found, shape schema = .ok found := by
  obtain ⟨listed, hlisted⟩ := exists_listedMembers json
  obtain ⟨described, hdescribed⟩ := exists_describedMembers json
  rw [shape, isEdge_of_isJson json]
  unfold innerShape
  rw [hlisted, hdescribed]
  cases schema.get? "$ref" with
  | some ref => exact ⟨_, rfl⟩
  | none => cases listed with
    | cons member members => exact ⟨_, rfl⟩
    | nil => cases described <;> exact ⟨_, rfl⟩

theorem exists_literalOf (members : List Enumerator) {value : Node} (json : value.isJson = true) :
    ∃ literal, literalOf members value = .ok literal := by
  unfold literalOf
  split
  · exact ⟨_, rfl⟩
  · exact ⟨_, rfl⟩
  · rename_i n
    have hshort : Number.isLong n = false := by simpa [Node.isJson, Scalar.isJson] using json
    have hliteral : Number.literal? (.int n) = some (Number.intText n) := by
      rw [Number.literal?]
      exact Number.text?_int hshort
    unfold intLiteral
    split
    · exact ⟨_, rfl⟩
    · exact ⟨_, by rw [hliteral]; rfl⟩
  · rename_i x
    obtain ⟨text, htext⟩ := Number.exists_literal?_float x
    exact ⟨_, by rw [htext]; rfl⟩
  all_goals exact ⟨_, rfl⟩

theorem exists_withDefault (json : schema.isJson = true) (model : Model) :
    ∃ done, withDefault schema model = .ok done := by
  unfold withDefault defaultLiteral
  dsimp only
  split
  · rename_i value hvalue
    obtain ⟨literal, hliteral⟩ := exists_literalOf _ (Node.isJson_get? json hvalue)
    exact ⟨_, by rw [hliteral]; rfl⟩
  · exact ⟨_, rfl⟩

end Schema

/-! ### Building -/

theorem Parameter.isJson_inlineSchema {node : Node} (json : node.isJson = true) :
    (inlineSchema node).isJson = true := by
  unfold inlineSchema
  split
  · rw [Node.isJson_map_iff] at json ⊢
    exact fun e he => json e (List.mem_of_mem_filter he)
  · exact json

/-- All that is read of a JSON document is JSON. -/
theorem inherited_isJson : Inherited fun node => node.isJson = true where
  part hocc json := hocc.isJson json
  null := rfl
  empty := rfl
  inline := Parameter.isJson_inlineSchema

theorem Dialect.isJson_of_mem_schemas {dialect : Dialect} {document : Node} {e : Scalar × Node}
    (json : document.isJson = true) (h : e ∈ dialect.schemas document) :
    e.1.isJsonKey = true ∧ e.2.isJson = true := by
  have hmap := inherited_isJson.foldl_get dialect.schemasPath json
  exact Node.isJson_of_mem_entries? hmap h

namespace Scope

theorem exists_fixedValue (scope : Scope) (name : String) {discriminator : Node}
    (json : discriminator.isJson = true) :
    ∃ value, scope.fixedValue name discriminator = .ok value := by
  have hmapping := Node.isJson_get json "mapping"
  have hkeys : ∃ keys, scope.keysFor name (discriminator.get "mapping") = .ok keys := by
    unfold keysFor
    split
    · rename_i entries hentries
      rw [hentries] at hmapping
      refine Except.exists_mapM fun e he => ?_
      have hkey := (Node.isJson_map_iff.mp hmapping e (List.mem_of_mem_filter he)).1
      obtain ⟨s, _, hwritten⟩ := Scalar.written_of_isJsonKey hkey
      exact ⟨s, hwritten⟩
    · exact ⟨[], rfl⟩
  obtain ⟨keys, hkeys⟩ := hkeys
  exact ⟨_, by rw [fixedValue, hkeys]; rfl⟩

end Scope

namespace Schema

theorem exists_valueOf {scope : Scope} (schema : Node) (parent name : String)
    (json : scope.document.isJson = true) :
    ∃ value, (propertyContext scope schema parent).valueOf scope name = .ok value := by
  unfold PropertyContext.valueOf
  split
  · rename_i discriminator hdiscriminator
    have hjson : discriminator.isJson = true := inherited_isJson.propertyContext json hdiscriminator
    split
    · obtain ⟨value, hvalue⟩ := Scope.exists_fixedValue scope parent hjson
      exact ⟨some value, by dsimp only [propertyContext]; rw [hvalue]; rfl⟩
    · exact ⟨none, rfl⟩
  · exact ⟨none, rfl⟩

namespace Job

variable {causes : Malformation → Prop} {scope : Scope} {build : Job → Except Failure Model}
  {job next : Job} {failure : Failure}

theorem LeadsTo.isJson (h : LeadsTo scope job next) (document : scope.document.isJson = true)
    (schema : job.schema.isJson = true) : next.schema.isJson = true := by
  cases h with
  | part _ source =>
    rcases source with hoccurs | rfl
    · exact hoccurs.isJson schema
    · rfl
  | target _ _ found => exact (Reference.occursIn_of_resolve found).isJson document

/-- References that a job leads to stand in its schema or in the document. -/
theorem LeadsTo.isReferenceIn {ref : Node} (h : LeadsTo scope job next)
    (stands : ref.IsReferenceIn next.schema) :
    ref.IsReferenceIn job.schema ∨ ref.IsReferenceIn scope.document := by
  cases h with
  | part _ source =>
    rcases source with hoccurs | rfl
    · exact .inl (stands.trans hoccurs)
    · exact absurd stands Node.not_isReferenceIn_empty
  | target _ _ found => exact .inr (stands.trans (Reference.occursIn_of_resolve found))

/-- A job on JSON values fails at a reference in its schema, or in one of its subjobs. -/
theorem exists_reference_or_subjob (document : scope.document.isJson = true)
    (schema : job.schema.isJson = true) (h : Fails scope build job failure) :
    (∃ ref : Node, ref.IsReferenceIn job.schema ∧
      Reference.resolve scope.document ref = .error failure) ∨
    ∃ next ∈ job.subjobs scope, build next = .error failure := by
  cases h with
  | shape failed =>
    obtain ⟨found, hfound⟩ := exists_shape schema
    cases hfound.symm.trans failed
  | lookup stands failed => exact .inl ⟨_, stands, failed⟩
  | type stands failed =>
    obtain ⟨use, huse⟩ := TypeUse.exists_ofNode scope.dialect _ (stands.isJson schema)
    cases huse.symm.trans failed
  | default failed =>
    obtain ⟨model, hmodel⟩ := exists_withDefault schema _
    cases hmodel.symm.trans failed
  | name declared mem failed =>
    have hjson := Node.isJson_map_iff.mp (Node.isJson_get? schema declared) _ mem
    obtain ⟨name, _, hname⟩ := Scalar.written_of_isJsonKey hjson.1
    cases hname.symm.trans failed
  | value failed =>
    obtain ⟨value, hvalue⟩ := exists_valueOf job.schema job.name _ document
    cases hvalue.symm.trans failed
  | subjob mem failed => exact .inr ⟨_, mem, failed⟩

/-- What fails when a JSON value is built against a JSON document is a reference in one of them. -/
theorem exists_reference_of_built (document : scope.document.isJson = true)
    (schema : job.schema.isJson = true) (h : built scope job = .error failure) :
    ∃ ref : Node, (ref.IsReferenceIn job.schema ∨ ref.IsReferenceIn scope.document) ∧
      Reference.resolve scope.document ref = .error failure := by
  induction job using Job.induction scope with
  | step job ih =>
    rw [built_eq] at h
    rcases exists_reference_or_subjob document schema (fails_of_run h) with
      ⟨ref, hstands, hfailed⟩ | ⟨next, hnext, hfailed⟩
    · exact ⟨ref, .inl hstands, hfailed⟩
    · have hleads := leadsTo_of_mem_subjobs hnext
      obtain ⟨ref, hstands, hfailed⟩ := ih next hleads (hleads.isJson document schema) hfailed
      refine ⟨ref, ?_, hfailed⟩
      rcases hstands with hstands | hstands
      · exact hleads.isReferenceIn hstands
      · exact .inr hstands

theorem isJson_of_isReferenceIn {ref schema : Node} (document : scope.document.isJson = true)
    (json : schema.isJson = true)
    (stands : ref.IsReferenceIn schema ∨ ref.IsReferenceIn scope.document) :
    ref.isJson = true := by
  rcases stands with stands | stands
  · exact stands.occursIn.isJson json
  · exact stands.occursIn.isJson document

/-- Building a JSON value against a JSON document fails by a reference or not at all. -/
theorem failsAmong_built (document : scope.document.isJson = true)
    (schema : job.schema.isJson = true) : FailsAmong causes (built scope job) := by
  intro failure h
  obtain ⟨ref, hstands, hfailed⟩ := exists_reference_of_built document schema h
  have hjson := isJson_of_isReferenceIn document schema hstands
  exact FailsAmong.resolve scope.document hjson failure hfailed

end Job

/-- A JSON value is built against a JSON document, or a reference that occurs in one of them leads
nowhere and is blamed. -/
theorem build_cases {scope : Scope} {schema : Node} (name : String) (isDefinition : Bool)
    (document : scope.document.isJson = true) (json : schema.isJson = true) :
    (∃ model, build scope schema name isDefinition = .ok model) ∨
    ∃ ref text fault, (ref.IsReferenceIn schema ∨ ref.IsReferenceIn scope.document) ∧
      ref.written = .ok text ∧
      Reference.resolve scope.document ref = .error (.unresolvable text fault) ∧
      build scope schema name isDefinition = .error (.unresolvable text fault) := by
  cases h : build scope schema name isDefinition with
  | ok model => exact .inl ⟨model, rfl⟩
  | error failure =>
    obtain ⟨ref, hstands, hfailed⟩ :=
      @Job.exists_reference_of_built scope ⟨[], schema, name, isDefinition⟩ failure document json h
    have hjson := Job.isJson_of_isReferenceIn document json hstands
    obtain ⟨text, fault, htext, rfl⟩ := Reference.exists_text_of_resolve hjson hfailed
    exact .inr ⟨ref, text, fault, hstands, htext, hfailed, rfl⟩

/-- A property of a pet with a reference to a definition that the description lacks. -/
def strayOwner : Node := .map [(.str "properties", .map
  [(.str "owner", .map [(.str "$ref", .str "#/definitions/Owner")])])]

theorem exists_blamed_of_strayOwner :
    (Node.map []).isJson = true ∧ strayOwner.isJson = true ∧
    ∃ (ref : Node) (text : String) (fault : PointerFault),
      ref.IsReferenceIn strayOwner ∧ ref.written = .ok text ∧
      build ⟨.map [], .v2⟩ strayOwner "Pet" true = .error (.unresolvable text fault) := by
  have hjson : strayOwner.isJson = true := by decide +kernel
  refine ⟨rfl, hjson, ?_⟩
  have hfails : ∀ model, build ⟨.map [], .v2⟩ strayOwner "Pet" true ≠ .ok model := by
    intro model h
    have hbuilt : Job.built ⟨.map [], .v2⟩ ⟨[], strayOwner, "Pet", true⟩ = .ok model := h
    rw [Job.built_eq, @Job.run_of_shape _ _ _ .record rfl] at hbuilt
    obtain ⟨own, hown, _⟩ := Except.bind_eq_ok_iff.mp hbuilt
    obtain ⟨property, hproperty⟩ := Except.exists_of_mapM hown List.mem_cons_self
    obtain ⟨owner, howner, _⟩ := Except.map_eq_ok_iff.mp hproperty
    rw [Job.built_eq, @Job.run_of_shape _ _ _ (.reference (.str "#/definitions/Owner")) rfl]
      at howner
    cases howner
  rcases @build_cases ⟨.map [], .v2⟩ strayOwner "Pet" true rfl hjson with
    ⟨model, h⟩ | ⟨ref, text, fault, hstands, htext, _, h⟩
  · exact absurd h (hfails model)
  · rcases hstands with hstands | hstands
    · exact ⟨ref, text, fault, hstands, htext, h⟩
    · exact absurd hstands Node.not_isReferenceIn_empty

theorem failsAmong_build {causes : Malformation → Prop} {scope : Scope} {schema : Node}
    (name : String) (isDefinition : Bool) (document : scope.document.isJson = true) (json : schema.isJson = true) :
    FailsAmong causes (build scope schema name isDefinition) :=
  @Job.failsAmong_built causes scope ⟨[], schema, name, isDefinition⟩ document json

end Schema
end OpenApi
