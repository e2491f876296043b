import OpenApi.Proofs.Building
import OpenApi.Proofs.Entries
import OpenApi.Proofs.Shapes
import OpenApi.Proofs.Termination
import OpenApi.Proofs.TypeTokens

/-
Two ways to allow null: a flag beside the type of a schema, or `null` in a list of types.

A model does not tell them apart, because the rules ask for the type of a schema through
`declaresType`, which looks into lists.  The two rules for enumerations do not.  A truth value is
never an enumeration, and only an integer has its members in its description, but neither rule knows
the type of a schema from a list.  So the two ways agree where no member is enumerated, and
otherwise one of them gives an enumeration and the other one something else
(`ToldApart`, `toOption_build_eq_iff`).
-/
namespace OpenApi.Schema

/-- The types of JSON values. -/
inductive JsonType where
  | string
  | number
  | integer
  | boolean
  | object
  | array
  deriving DecidableEq

def JsonType.name : JsonType → String
  | .string => "string"
  | .number => "number"
  | .integer => "integer"
  | .boolean => "boolean"
  | .object => "object"
  | .array => "array"

/-- What a schema says besides its type and whether null is allowed. -/
def untyped (entries : Entries) : Entries :=
  entries.filter fun (key, _) => key ≠ .str "type" ∧ key ≠ .str "nullable"

/-- The schema of a type, with a flag that allows null. -/
def flagged (entries : Entries) (type : JsonType) : Node :=
  .map (untyped entries ++ [(.str "type", .str type.name), (.str "nullable", .bool true)])

/-- The schema of a list of types, with null among them. -/
def listed (entries : Entries) (type : JsonType) : Node :=
  .map (untyped entries ++ [(.str "type", .list [.str type.name, .str "null"])])

/-- What enumerates members is read for one of the two schemas only. -/
inductive ToldApart (entries : Entries) : JsonType → Prop where
  | boolean (unreferenced : Entries.get? "$ref" entries = none)
      (members : listedMembers (.map (untyped entries)) ≠ .ok []) : ToldApart entries .boolean
  | integer (unreferenced : Entries.get? "$ref" entries = none)
      (unlisted : listedMembers (.map (untyped entries)) = .ok [])
      (members : Enumerator.ofDescription ((Node.map entries).get "description") ≠ .ok []) :
      ToldApart entries .integer

section
variable {entries : Entries} {type : JsonType} {key : String}

/-! ### The keywords of the two schemas -/

theorem get?_untyped (h : key ∉ ["type", "nullable"]) :
    Entries.get? key (untyped entries) = Entries.get? key entries := by
  refine Entries.get?_filter _ _ _ fun value => ?_
  simp only [List.mem_cons, List.not_mem_nil, or_false, not_or] at h
  simp [h.1, h.2]

theorem get?_untyped_eq_none (h : key ∈ ["type", "nullable"]) :
    Entries.get? key (untyped entries) = none := by
  refine Entries.get?_filter_eq_none _ _ _ fun value => ?_
  simp only [List.mem_cons, List.not_mem_nil, or_false] at h
  rcases h with rfl | rfl
  · rfl
  · rfl

theorem get?_bare (h : key ∉ ["type", "nullable"]) :
    (Node.map (untyped entries)).get? key = Entries.get? key entries := get?_untyped h

theorem get?_flagged (h : key ∉ ["type", "nullable"]) :
    (flagged entries type).get? key = Entries.get? key entries := by
  simp only [List.mem_cons, List.not_mem_nil, or_false, not_or] at h
  rw [flagged, Node.get?, Entries.get?_append, get?_untyped (by simp [h])]
  simp [Entries.get?, Ne.symm h.1, Ne.symm h.2]

theorem get?_listed (h : key ∉ ["type", "nullable"]) :
    (listed entries type).get? key = Entries.get? key entries := by
  simp only [List.mem_cons, List.not_mem_nil, or_false, not_or] at h
  rw [listed, Node.get?, Entries.get?_append, get?_untyped (by simp [h])]
  simp [Entries.get?, Ne.symm h.1]

theorem get?_type_bare : (Node.map (untyped entries)).get? "type" = none :=
  get?_untyped_eq_none (by decide)

theorem get?_type_flagged : (flagged entries type).get? "type" = some (.str type.name) := by
  rw [flagged, Node.get?, Entries.get?_append, get?_untyped_eq_none (by decide)]
  rfl

theorem get?_type_listed :
    (listed entries type).get? "type" = some (.list [.str type.name, .str "null"]) := by
  rw [listed, Node.get?, Entries.get?_append, get?_untyped_eq_none (by decide)]
  rfl

theorem get?_nullable_flagged : (flagged entries type).get? "nullable" = some (.bool true) := by
  rw [flagged, Node.get?, Entries.get?_append, get?_untyped_eq_none (by decide)]
  rfl

theorem isEdge_flagged : isEdge (flagged entries type) = isEdge (listed entries type) := by
  rw [flagged, listed, isEdge, isEdge, List.any_append, List.any_append]
  rfl

theorem allowsNull_flagged : allowsNull (flagged entries type) = true := by
  rw [allowsNull, Node.get, get?_nullable_flagged]
  rfl

theorem allowsNull_listed : allowsNull (listed entries type) = true := by
  simp only [allowsNull, Node.get, get?_type_listed]
  simp [Node.listHas, Node.isText]

theorem declaresType_flagged {name : String} (h : name ≠ "null") :
    declaresType (flagged entries type) name = declaresType (listed entries type) name := by
  simp only [declaresType, Node.get, get?_type_listed, get?_type_flagged]
  simp [Node.listHas, Node.isText, h]

theorem plainModel_flagged (name : String) (isDefinition : Bool) :
    plainModel (flagged entries type) name isDefinition =
      plainModel (listed entries type) name isDefinition := by
  rw [plainModel, plainModel, allowsNull_flagged, allowsNull_listed]
  simp (disch := decide) only [constraints, Node.get, get?_flagged, get?_listed]

theorem withDefault_flagged (model : Model) :
    withDefault (flagged entries type) model = withDefault (listed entries type) model := by
  simp (disch := decide) only [withDefault, defaultLiteral, get?_flagged, get?_listed]

/-! ### The shapes of the two schemas -/

theorem listedMembers_listed :
    listedMembers (listed entries type) = listedMembers (.map (untyped entries)) := by
  simp (disch := decide) only [listedMembers, Enumerator.extend, Node.get, get?_listed, get?_bare,
    get?_type_listed, get?_type_bare]
  rfl

theorem listedMembers_flagged (h : type ≠ .boolean) :
    listedMembers (flagged entries type) = listedMembers (.map (untyped entries)) := by
  have hname : ¬ (Node.str type.name).isText "boolean" = true := by
    cases type with
    | boolean => exact absurd rfl h
    | string | number | integer | object | array => decide
  simp (disch := decide) only [listedMembers, Enumerator.extend, Node.get, get?_flagged, get?_bare,
    get?_type_flagged, get?_type_bare, Option.getD_some, if_neg hname]
  rfl

theorem listedMembers_flagged_boolean : listedMembers (flagged entries .boolean) = .ok [] := by
  simp only [listedMembers, Node.get, get?_type_flagged]
  split
  · rfl
  · rfl

theorem describedMembers_listed : describedMembers (listed entries type) = .ok [] := by
  simp only [describedMembers, Node.get, get?_type_listed]
  rfl

theorem describedMembers_flagged (h : type ≠ .integer) :
    describedMembers (flagged entries type) = .ok [] := by
  simp only [describedMembers, Node.get, get?_type_flagged]
  cases type with
  | integer => exact absurd rfl h
  | string | number | boolean | object | array => rfl

theorem describedMembers_flagged_integer : describedMembers (flagged entries .integer) =
    Enumerator.ofDescription ((Node.map entries).get "description") := by
  simp (disch := decide) only [describedMembers, Node.get, get?_type_flagged, get?_flagged]
  rfl

/-- The two schemas have the same parts, or their types alone tell what they are. -/
theorem structure?_flagged :
    structure? (flagged entries type) = structure? (listed entries type) ∨
      structure? (flagged entries type) = some (.generic (.str type.name)) ∧
        structure? (listed entries type) =
          some (.generic (.list [.str type.name, .str "null"])) := by
  have hitems : arrayItems? (flagged entries type) = arrayItems? (listed entries type) := by
    simp (disch := decide) only [arrayItems?, declaresType_flagged, get?_flagged, get?_listed]
  have hvalues : dictionaryValues? (flagged entries type) =
      dictionaryValues? (listed entries type) := by
    simp (disch := decide) only [dictionaryValues?, declaresType_flagged, Node.get, get?_flagged,
      get?_listed]
  have hcomposed : composition? (flagged entries type) = composition? (listed entries type) := by
    simp (disch := decide) only [composition?, composed?, get?_flagged, get?_listed]
  have hrecord : isRecord (flagged entries type) = isRecord (listed entries type) := by
    simp (disch := decide) only [isRecord, declaresType_flagged, Node.has, get?_type_flagged,
      get?_type_listed, Option.isSome_some, Bool.not_true, Bool.false_and]
  unfold structure?
  rw [hitems, hvalues, hcomposed, hrecord, get?_type_flagged, get?_type_listed]
  cases arrayItems? (listed entries type) with
  | some items => exact .inl rfl
  | none =>
    cases dictionaryValues? (listed entries type) with
    | some values => exact .inl rfl
    | none =>
      cases composition? (listed entries type) with
      | some composed => exact .inl rfl
      | none =>
        cases isRecord (listed entries type) with
        | true => exact .inl rfl
        | false => exact .inr ⟨rfl, rfl⟩

/-- Where both enumerate the same members, the two schemas have the same shape, or their types alone
tell what they are. -/
theorem shape_flagged (h : ¬ ToldApart entries type) :
    shape (flagged entries type) = shape (listed entries type) ∨
      shape (flagged entries type) = .ok (.generic (.str type.name)) ∧
        shape (listed entries type) =
          .ok (.generic (.list [.str type.name, .str "null"])) := by
  unfold shape
  rw [isEdge_flagged]
  by_cases hedge : isEdge (listed entries type) = true
  · rw [if_pos hedge, if_pos hedge]
    exact .inl rfl
  rw [if_neg hedge, if_neg hedge]
  unfold innerShape
  rw [get?_flagged (by decide), get?_listed (by decide)]
  cases href : Entries.get? "$ref" entries with
  | some ref => exact .inl rfl
  | none =>
    have hmembers : listedMembers (flagged entries type) = listedMembers (listed entries type) := by
      rw [listedMembers_listed]
      by_cases htype : type = .boolean
      · subst htype
        rw [listedMembers_flagged_boolean]
        by_contra hne
        exact h (.boolean href (Ne.symm hne))
      · exact listedMembers_flagged htype
    rw [hmembers]
    cases hlisted : listedMembers (listed entries type) with
    | error failure => exact .inl rfl
    | ok members =>
      cases members with
      | cons member members => exact .inl rfl
      | nil =>
        have hdescribed : describedMembers (flagged entries type) = .ok [] := by
          by_cases htype : type = .integer
          · subst htype
            rw [describedMembers_flagged_integer]
            by_contra hne
            exact h (.integer href (listedMembers_listed ▸ hlisted) hne)
          · exact describedMembers_flagged htype
        rw [hdescribed, describedMembers_listed]
        dsimp only
        rcases @structure?_flagged entries type with heq | ⟨hflagged, hlisted⟩
        · rw [heq]
          exact .inl rfl
        · rw [hflagged, hlisted]
          exact .inr ⟨rfl, rfl⟩

/-- Exactly one of two schemas that are told apart is an enumeration. -/
theorem ToldApart.kinds_ne (h : ToldApart entries type) {found other : Shape}
    (hflagged : shape (flagged entries type) = .ok found)
    (hlisted : shape (listed entries type) = .ok other) : found.kind ≠ other.kind := by
  cases h with
  | boolean href hmembers =>
    have hother : other.kind = .enumeration := by
      rw [kind_eq_enumeration_iff hlisted, listedMembers_listed]
      exact ⟨(get?_listed (by decide)).trans href, .inl hmembers⟩
    have hundescribed : describedMembers (flagged entries .boolean) = .ok [] :=
      describedMembers_flagged nofun
    rw [hother, Ne, kind_eq_enumeration_iff hflagged, listedMembers_flagged_boolean, hundescribed]
    rintro ⟨_, hne | hne⟩
    · exact hne rfl
    · exact hne rfl
  | integer href hnone hmembers =>
    have hfound : found.kind = .enumeration := by
      rw [kind_eq_enumeration_iff hflagged, describedMembers_flagged_integer]
      exact ⟨(get?_flagged (by decide)).trans href, .inr hmembers⟩
    rw [hfound, ne_comm, Ne, kind_eq_enumeration_iff hlisted, listedMembers_listed,
      describedMembers_listed]
    rintro ⟨_, hne | hne⟩
    · exact hne hnone
    · exact hne rfl

/-! ### The models of the two schemas -/

theorem ofText_of_mapped? {dialect : Dialect} {text name : String} {format : Node}
    (h : TypeUse.mapped? text format = some name) :
    TypeUse.ofText dialect text format = TypeUse.ofName name := by
  unfold TypeUse.mapped? at h
  unfold TypeUse.ofText
  by_cases hbinary : format.isText "binary" = true
  · rw [if_pos hbinary] at h ⊢
    rw [← Option.some.inj h]
  · rw [if_neg hbinary] at h ⊢
    refine TypeUse.ofToken_of_primitive ?_
    rw [String.ofList_toList]
    exact h

/-- A single type in a list beside `null` is used as it is by itself. -/
theorem ofList_of_mapped? {text name : String} {format : Node} (hnull : text ≠ "null")
    (h : TypeUse.mapped? text format = some name) :
    TypeUse.ofList [.str text, .str "null"] format =
      .ok { TypeUse.ofName name with isNullable := true } := by
  have hnames : [Node.str text, .str "null"].filter (!·.isText "null") = [.str text] := by
    simp [Node.isText, hnull.symm]
  have hwritten : [Node.str text].mapM Node.written = .ok [text] := rfl
  have hknown : [text].filterMap (TypeUse.mapped? · format) = [name] := by
    simp [h]
  have hlisted : Node.listHas "null" [.str text, .str "null"] = true := by
    simp [Node.listHas, Node.isText]
  unfold TypeUse.ofList
  rw [hnames, hwritten, hlisted]
  show Except.ok { TypeUse.ofName _ with isNullable := true } = _
  rw [hknown]
  simp

theorem typeOf_flagged (scope : Scope) (type : JsonType) (format : Node) : ∃ name,
    scope.typeOf (.str type.name) format = .ok (TypeUse.ofName name) ∧
      scope.typeOf (.list [.str type.name, .str "null"]) format =
        .ok { TypeUse.ofName name with isNullable := true } := by
  have hnull : type.name ≠ "null" := by
    cases type <;> decide
  obtain ⟨name, hname⟩ : ∃ name, TypeUse.mapped? type.name format = some name := by
    unfold TypeUse.mapped?
    by_cases hbinary : format.isText "binary" = true
    · rw [if_pos hbinary]
      exact ⟨_, rfl⟩
    · rw [if_neg hbinary]
      cases type <;> exact ⟨_, rfl⟩
  exact ⟨name, congrArg Except.ok (ofText_of_mapped? hname), ofList_of_mapped? hnull hname⟩

variable {scope : Scope} {build : Job → Except Failure Model} {following : List String}
  {name : String} {isDefinition : Bool}

theorem byShape_flagged (found : Shape) :
    Job.byShape scope build ⟨following, flagged entries type, name, isDefinition⟩ found =
      Job.byShape scope build ⟨following, listed entries type, name, isDefinition⟩ found := by
  have hrequired : requiredNames (flagged entries type) = requiredNames (listed entries type) := by
    simp (disch := decide) only [requiredNames, Node.get, get?_flagged, get?_listed]
  have hpromotable (members : List Node) :
      Job.promotable scope build ⟨following, flagged entries type, name, isDefinition⟩ members =
        Job.promotable scope build ⟨following, listed entries type, name, isDefinition⟩
          members := by
    unfold Job.promotable
    rw [hrequired]
    rfl
  have hdeclared :
      Job.declared scope build ⟨following, flagged entries type, name, isDefinition⟩ =
        Job.declared scope build ⟨following, listed entries type, name, isDefinition⟩ := by
    unfold Job.declared propertyContext
    rw [hrequired, get?_flagged (by decide), get?_listed (by decide)]
    rfl
  have hformat : (flagged entries type).get "format" = (listed entries type).get "format" := by
    simp (disch := decide) only [Node.get, get?_flagged, get?_listed]
  unfold Job.byShape
  simp only [hpromotable, hdeclared, hformat, hrequired, plainModel_flagged, withDefault_flagged]
  cases found with
  | array | dictionary | composition => rfl
  | reference | enumeration | record | generic | unknown => rfl

theorem built_flagged (h : ¬ ToldApart entries type) :
    Job.built scope ⟨following, flagged entries type, name, isDefinition⟩ =
      Job.built scope ⟨following, listed entries type, name, isDefinition⟩ := by
  rw [Job.built_eq, Job.built_eq]
  rcases shape_flagged h with heq | ⟨hflagged, hlisted⟩
  · rw [Job.run, Job.run, heq]
    cases shape (listed entries type) with
    | error failure => rfl
    | ok found => exact byShape_flagged found
  · obtain ⟨use, huse, hnullable⟩ := typeOf_flagged scope type ((listed entries type).get "format")
    have hrun : Job.run scope (Job.built scope)
        ⟨following, flagged entries type, name, isDefinition⟩ = _ := Job.run_of_shape hflagged
    have hrun' : Job.run scope (Job.built scope)
        ⟨following, listed entries type, name, isDefinition⟩ = _ := Job.run_of_shape hlisted
    rw [hrun, hrun', byShape_flagged, Job.byShape, Job.byShape]
    dsimp only
    rw [huse, hnullable]
    show withDefault _ (withType (plainModel (listed entries type) name isDefinition) _) =
      withDefault _ (withType (plainModel (listed entries type) name isDefinition) _)
    have hnull : (plainModel (listed entries type) name isDefinition).isNullable = true :=
      allowsNull_listed
    rw [withType, withType, hnull]
    rfl

/-- Two schemas that are told apart have no model in common. -/
theorem ToldApart.ne_ok (h : ToldApart entries type) {model : Model}
    (hflagged : Job.built scope ⟨following, flagged entries type, name, isDefinition⟩ = .ok model) :
    Job.built scope ⟨following, listed entries type, name, isDefinition⟩ ≠ .ok model := by
  intro hlisted
  obtain ⟨found, hfound, hkind⟩ := Job.shape_of_built hflagged
  obtain ⟨other, hother, hkind'⟩ := Job.shape_of_built hlisted
  exact h.kinds_ne hfound hother (hkind.symm.trans hkind')

end

/-- Whether null is allowed by a flag or by a list of types makes no difference, except where one of
the two schemas is an enumeration for its members and the other one is not; then both have the same
models only if they have none. -/
theorem toOption_build_eq_iff (scope : Scope) (entries : Entries) (type : JsonType) (name : String)
    (isDefinition : Bool) :
    (build scope (flagged entries type) name isDefinition).toOption =
        (build scope (listed entries type) name isDefinition).toOption ↔
      (ToldApart entries type →
        (build scope (flagged entries type) name isDefinition).toOption = none ∧
          (build scope (listed entries type) name isDefinition).toOption = none) := by
  have hapart (h : ToldApart entries type) :
      (build scope (flagged entries type) name isDefinition).toOption =
        (build scope (listed entries type) name isDefinition).toOption →
      (build scope (listed entries type) name isDefinition).toOption = none := by
    intro heq
    cases hlisted : build scope (listed entries type) name isDefinition with
    | error failure => rfl
    | ok model =>
      cases hflagged : build scope (flagged entries type) name isDefinition with
      | error failure =>
        rw [hlisted, hflagged] at heq
        cases heq
      | ok other =>
        rw [hlisted, hflagged] at heq
        cases heq
        have hbuilt : Job.built scope ⟨[], flagged entries type, name, isDefinition⟩ = .ok model :=
          hflagged
        exact absurd hlisted (h.ne_ok hbuilt)
  constructor
  · intro heq h
    have hnone := hapart h heq
    exact ⟨heq.trans hnone, hnone⟩
  · intro hnone
    by_cases h : ToldApart entries type
    · rw [(hnone h).1, (hnone h).2]
    · exact congrArg Except.toOption (built_flagged h)

/-! ### A truth value with its members -/

namespace switchScope

/-- The members of a truth value. -/
def members : Entries := [(.str "enum", .list [.bool true, .bool false])]

def kindOf (schema : Node) : Option ModelKind :=
  (build ⟨.map [], .v3⟩ schema "" false).toOption.map (·.kind)

theorem kindOf_eq : kindOf (flagged members .boolean) = some .generic ∧
    kindOf (listed members .boolean) = some .enumeration := by
  delta kindOf
  rw [build_eq fun _ => .error (.malformed .endless)]
  decide +kernel

end switchScope

open switchScope in
theorem not_toOption_build_eq : ¬ ∀ (scope : Scope) (entries : Entries) (type : JsonType)
    (name : String) (isDefinition : Bool),
      (build scope (flagged entries type) name isDefinition).toOption =
        (build scope (listed entries type) name isDefinition).toOption := by
  intro h
  have hkinds : kindOf (flagged members .boolean) = kindOf (listed members .boolean) :=
    congrArg (Option.map Model.kind) (h ⟨.map [], .v3⟩ members .boolean "" false)
  rw [kindOf_eq.1, kindOf_eq.2] at hkinds
  cases hkinds

end OpenApi.Schema
