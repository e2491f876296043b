import OpenApi.Proofs.DefaultValues
import OpenApi.Proofs.DistinctMembers
import OpenApi.Proofs.OwnProperties

/-
Defaults of enumerations.

A default that is a text of an enumeration should stand in code as its member does.  Both are put
between quotes, but only the literal of the member has the quotes in it escaped, so they agree just
if the text has no quote (`default_eq_value_iff`).
-/
namespace OpenApi

/-! ### Literals -/

theorem Text.length_replaceChar (old : Char) (new cs : List Char) :
    (replaceChar old new cs).length + cs.count old = cs.length + cs.count old * new.length := by
  induction cs with
  | nil => rw [List.count_nil, Nat.zero_mul]; rfl
  | cons c cs ih =>
    rw [replaceChar, List.flatMap_cons, List.length_append, List.length_cons]
    rw [replaceChar] at ih
    by_cases hc : c = old
    · rw [if_pos hc, hc, List.count_cons_self, Nat.add_mul, Nat.one_mul]
      omega
    · rw [if_neg hc, List.count_cons_of_ne hc, List.length_singleton]
      omega

/-- Nothing is escaped in a text just if it has no quote. -/
theorem Enumerator.quote_eq_iff {s : String} : quote s = "'" ++ s ++ "'" ↔ '\'' ∉ s.toList := by
  have hchars : quote s = "'" ++ s ++ "'" ↔
      Text.replaceChar '\'' ['\\', '\''] s.toList = s.toList := by
    rw [quote, ← String.toList_inj, String.toList_ofList, String.toList_append,
      String.toList_append, show "'".toList = ['\''] from rfl, List.singleton_append,
      List.append_cancel_right_eq, List.cons.injEq, eq_self, true_and]
  rw [hchars]
  constructor
  · intro heq hmem
    have hlength := Text.length_replaceChar '\'' ['\\', '\''] s.toList
    have hcount := List.count_pos_iff.mpr hmem
    rw [heq, List.length_cons, List.length_singleton] at hlength
    omega
  · intro hnone
    have hcopy : ∀ c ∈ s.toList, (if c = '\'' then ['\\', '\''] else [c]) = [c] :=
      fun c hc => if_neg fun heq : c = '\'' => hnone (heq ▸ hc)
    rw [Text.replaceChar, List.flatMap_congr hcopy, List.flatMap_singleton']

namespace Schema

/-! ### Models of enumerations -/

/-- An enumeration has the members of its shape, and the default of its schema. -/
theorem Job.enumeration_of_built {scope : Scope} {job : Job} {model : Model}
    (h : Job.built scope job = .ok model) (kind : model.kind = .enumeration) :
    shape job.schema = .ok (.enumeration model.type model.enumerators) ∧
      defaultLiteral job.schema (some model) = .ok model.default := by
  rw [Job.built_eq] at h
  have rule := Job.rule_of_run h
  obtain ⟨found, hfound, hkind⟩ := Job.shape_of_rule rule
  have hother {other : Shape} (shaped : shape job.schema = .ok other)
      (hne : other.kind ≠ .enumeration) : False := by
    cases shaped.symm.trans hfound
    exact hne (hkind.symm.trans kind)
  cases rule with
  | enumeration shaped done =>
    have hliteral := defaultLiteral_of_withDefault done
    obtain ⟨literal, rfl⟩ := Job.withDefault_eq_ok done
    exact ⟨shaped, hliteral⟩
  | reference shaped => exact (hother shaped nofun).elim
  | container shaped =>
    rcases shaped with ⟨shaped, _⟩ | ⟨shaped, _⟩
    · exact (hother shaped nofun).elim
    · exact (hother shaped nofun).elim
  | composition shaped =>
    cases shapeOf_shape shaped with
    | composition found =>
      exact (hother shaped (kind_ne_of_composition? found (by decide))).elim
  | record shaped => exact (hother shaped nofun).elim
  | generic shaped => exact (hother shaped nofun).elim
  | unknown shaped => exact (hother shaped nofun).elim

section
variable {schema : Node} {values : List Node} {s : String}

theorem listedMembers_eq (hvalues : schema.get? "enum" = some (.list values)) :
    listedMembers schema = if (schema.get "type").isText "boolean" then .ok [] else
      (Enumerator.ofValues (.list values)).map (Enumerator.extend · schema) := by
  rw [listedMembers, hvalues]

/-- An enumeration that lists a text has the members that it lists. -/
theorem exists_members_of_shape {type : String} {found : List Enumerator}
    (h : shape schema = .ok (.enumeration type found))
    (hvalues : schema.get? "enum" = some (.list values)) (hmem : .str s ∈ values) (hs : s ≠ "") :
    ∃ members, Enumerator.ofValues (.list values) = .ok members ∧
      found = Enumerator.extend members schema := by
  have hlisted := listedMembers_eq hvalues
  cases told_of_shape h with
  | referenced _ hfound => cases hfound
  | listed _ listed hfound =>
    cases hfound
    rw [listed] at hlisted
    split at hlisted
    · cases hlisted
    · obtain ⟨members, hmembers, heq⟩ := Except.map_eq_ok_iff.mp hlisted.symm
      exact ⟨members, hmembers, heq.symm⟩
  | described _ unlisted described =>
    rw [unlisted] at hlisted
    split at hlisted
    · rename_i hboolean
      have htype := Node.isText_iff.mp hboolean
      rw [describedMembers, htype] at described
      cases described
    · obtain ⟨members, hmembers, heq⟩ := Except.map_eq_ok_iff.mp hlisted.symm
      have hnone := (Enumerator.eq_nil_iff hmembers).mp
        ((Enumerator.extend_eq_nil_iff members schema).mp heq)
      rcases hnone _ hmem with heq | heq
      · cases heq
      · cases heq
        exact absurd rfl hs
  | structured _ _ _ hfound =>
    have hkind := kind_structure?_ne schema
    rw [← hfound] at hkind
    exact absurd rfl hkind

/-- A default that is a text of an enumeration is the literal of its member just if it has no
quote. -/
theorem default_eq_value_iff {scope : Scope} {name : String} {isDefinition : Bool} {model : Model}
    (h : build scope schema name isDefinition = .ok model) (kind : model.kind = .enumeration)
    (hvalues : schema.get? "enum" = some (.list values)) (hmem : .str s ∈ values) (hs : s ≠ "")
    (hdefault : schema.get? "default" = some (.str s)) :
    ∃ members, Enumerator.ofValues (.list values) = .ok members ∧
      model.enumerators = Enumerator.extend members schema ∧
        ∀ e, Enumerator.IsMemberFor model.enumerators (Enumerator.ofText s).value e →
          (model.default = some e.value ↔ '\'' ∉ s.toList) := by
  have hbuilt : Job.built scope ⟨[], schema, name, isDefinition⟩ = .ok model := h
  obtain ⟨hshape, hliteral⟩ := Job.enumeration_of_built hbuilt kind
  obtain ⟨members, hmembers, heq⟩ := exists_members_of_shape hshape hvalues hmem hs
  refine ⟨members, hmembers, heq, fun e he => ?_⟩
  have htext : model.default = some ("'" ++ s ++ "'") := by
    unfold defaultLiteral at hliteral
    rw [hdefault] at hliteral
    exact (Except.ok.inj hliteral).symm
  rw [htext, he.value_eq, Option.some.injEq, eq_comm]
  exact Enumerator.quote_eq_iff

end

/-! ### Texts with and without a quote -/

namespace shelfScope

/-- Two texts, of which one has a quote. -/
def texts : List Node := [.str "sold out", .str "it's"]

/-- One of the texts is the default. -/
def shelf (text : String) : Node :=
  .map [(.str "type", .str "string"), (.str "enum", .list texts), (.str "default", .str text)]

def soldOut : Enumerator := { name := "SOLD_OUT", value := "'sold out'" }

def its : Enumerator := { name := "IT_S", value := "'it\\'s'" }

def summary (model : Model) : ModelKind × List Enumerator × Option String :=
  (model.kind, model.enumerators, model.default)

theorem summary_eq :
    (build ⟨.map [], .v3⟩ (shelf "sold out") "" false).toOption.map summary =
      some (.enumeration, [soldOut, its], some "'sold out'") ∧
    (build ⟨.map [], .v3⟩ (shelf "it's") "" false).toOption.map summary =
      some (.enumeration, [soldOut, its], some "'it's'") := by
  rw [build_eq fun _ => .error (.malformed .endless)]
  decide +kernel

theorem isMemberFor_soldOut : Enumerator.IsMemberFor [soldOut, its] soldOut.value soldOut where
  mem := List.mem_cons_self
  value_eq := rfl
  only := by decide

theorem isMemberFor_its : Enumerator.IsMemberFor [soldOut, its] its.value its where
  mem := List.mem_cons_of_mem _ List.mem_cons_self
  value_eq := rfl
  only := by decide

end shelfScope

open shelfScope in
theorem default_eq_value_soldOut : ∃ model,
    build ⟨.map [], .v3⟩ (shelf "sold out") "" false = .ok model ∧ model.kind = .enumeration ∧
    (shelf "sold out").get? "enum" = some (.list texts) ∧ .str "sold out" ∈ texts ∧
    "sold out" ≠ "" ∧ (shelf "sold out").get? "default" = some (.str "sold out") ∧
    Enumerator.IsMemberFor model.enumerators soldOut.value soldOut ∧
    model.default = some soldOut.value := by
  obtain ⟨model, hmodel, hsummary⟩ := Except.exists_of_toOption_map summary_eq.1
  have hkind : model.kind = .enumeration := congrArg (·.1) hsummary
  have hmembers : model.enumerators = [soldOut, its] := congrArg (·.2.1) hsummary
  have hmem : Node.str "sold out" ∈ texts := List.mem_cons_self
  have hs : "sold out" ≠ "" := by decide
  obtain ⟨_, _, _, hdefault⟩ := default_eq_value_iff hmodel hkind rfl hmem hs rfl
  have hmember := isMemberFor_soldOut
  rw [← hmembers] at hmember
  exact ⟨model, hmodel, hkind, rfl, hmem, hs, rfl, hmember,
    (hdefault soldOut hmember).mpr (by decide +kernel)⟩

open shelfScope in
/-- The quote of the default is not escaped. -/
theorem not_default_eq_value : ¬ ∀ (scope : Scope) (schema : Node) (name : String)
    (isDefinition : Bool) (model : Model) (values : List Node) (s : String),
    build scope schema name isDefinition = .ok model → model.kind = .enumeration →
      schema.get? "enum" = some (.list values) → .str s ∈ values → s ≠ "" →
        schema.get? "default" = some (.str s) →
          ∀ e, Enumerator.IsMemberFor model.enumerators (Enumerator.ofText s).value e →
            model.default = some e.value := by
  intro h
  obtain ⟨model, hmodel, hsummary⟩ := Except.exists_of_toOption_map summary_eq.2
  have hkind : model.kind = .enumeration := congrArg (·.1) hsummary
  have hmembers : model.enumerators = [soldOut, its] := congrArg (·.2.1) hsummary
  have hdefault : model.default = some "'it's'" := congrArg (·.2.2) hsummary
  have hvalue : (Enumerator.ofText "it's").value = its.value := by decide +kernel
  have hmember := isMemberFor_its
  rw [← hmembers, ← hvalue] at hmember
  have heq := h _ _ _ _ model texts "it's" hmodel hkind rfl
    (List.mem_cons_of_mem _ List.mem_cons_self) (by decide) rfl its hmember
  rw [hdefault] at heq
  exact absurd heq (by decide)

end Schema
end OpenApi
