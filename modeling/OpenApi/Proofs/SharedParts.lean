import OpenApi.Operation.Build
import OpenApi.Proofs.Entries
import OpenApi.Proofs.Termination

/-
Parameters, bodies and responses that are referred to.

A description may declare a parameter, a body or a response in one place and refer to it from many.
The reference is looked up where it is used, and what is found there is read as it stands.  So a
reference may be exchanged for what it leads to, and nothing that is built changes.

One look-up is all there is.  A reference that leads to another reference is not followed to its
end: of the second one only the other members count, and if it has none it says nothing about a
parameter, a body or a response.  The theorem this file exists for, `interchangeable_reference`,
states both.  The one place where the second reference is not passed over is a parameter whose
schema is written into the parameter itself: there it is a part of that schema.
-/
namespace OpenApi

namespace Node

variable {node : Node} {key other : String}

/-- The object that stands for a reference. -/
def reference (ref : String) : Node := .map [(.str "$ref", .str ref)]

/-- The value without one of its members, if it is a map. -/
def without (node : Node) (key : String) : Node :=
  match node with
  | .map entries => .map (entries.filter (·.1 != .str key))
  | node => node

theorem isMap_without (node : Node) (key : String) : (node.without key).isMap = node.isMap := by
  cases node <;> rfl

theorem get?_without_self (node : Node) (key : String) : (node.without key).get? key = none := by
  cases node with
  | map entries => exact Entries.get?_filter_eq_none key entries _ fun _ => bne_self_eq_false _
  | _ => rfl

theorem get?_without_of_ne (h : other ≠ key) : (node.without key).get? other = node.get? other := by
  cases node with
  | map entries =>
    have hkept : (Scalar.str other != .str key) = true :=
      bne_iff_ne.mpr fun heq => h (Scalar.str.inj heq)
    exact Entries.get?_filter other entries _ fun _ => hkept
  | _ => rfl

theorem get_without_of_ne (h : other ≠ key) : (node.without key).get other = node.get other := by
  rw [get, get?_without_of_ne h, get]

end Node

namespace Reference

theorem target_reference (document : Node) (ref : String) :
    target document (.reference ref) = resolve document (.str ref) := by
  have declared : (Node.reference ref).get? "$ref" = some (.str ref) :=
    Entries.get?_cons_self _ _ _
  rw [target, declared]

theorem target_without (document node : Node) :
    target document (node.without "$ref") = .ok (node.without "$ref") :=
  target_of_get?_eq_none (Node.get?_without_self node _)

end Reference

/-! ### Reading an object without its reference -/

section
variable {shop : Workshop} {node : Node} {location : Location}

theorem Parameter.schemaOf_without
    (h : shop.dialect = .v3 ∨ ∃ schema, node.get "schema" = .map schema) :
    schemaOf shop (node.without "$ref") location = schemaOf shop node location := by
  unfold schemaOf
  rw [Node.get_without_of_ne (by decide), Node.get_without_of_ne (by decide)]
  obtain hdialect | ⟨schema, hschema⟩ := h
  · rw [hdialect]
    rfl
  · rw [hschema]

theorem Parameter.wireNameOf_without : wireNameOf (node.without "$ref") = wireNameOf node := by
  rw [wireNameOf, Node.get_without_of_ne (by decide), wireNameOf]

theorem Parameter.ofModel_without :
    ofModel (node.without "$ref") location = ofModel node location := by
  funext wireName model
  rw [ofModel, Node.get_without_of_ne (by decide), Node.get_without_of_ne (by decide),
    Node.get_without_of_ne (by decide), Node.get_without_of_ne (by decide), ofModel]

theorem Parameter.ofBody_without : ofBody (node.without "$ref") = ofBody node := by
  funext mediaType model
  rw [ofBody, Node.get_without_of_ne (by decide), Node.get_without_of_ne (by decide),
    Node.get_without_of_ne (by decide), ofBody]

theorem Response.schemaOf_without : schemaOf shop (node.without "$ref") = schemaOf shop node := by
  rw [schemaOf, Node.get_without_of_ne (by decide), Node.get?_without_of_ne (by decide), schemaOf]

theorem Response.ofHeaders_without : ofHeaders (node.without "$ref") = ofHeaders node := by
  funext code
  rw [ofHeaders, Node.get_without_of_ne (by decide), Node.get_without_of_ne (by decide), ofHeaders]

end

/-- Whether a parameter, a body and a response are built alike from two values, or fail alike. -/
structure Workshop.Interchangeable (shop : Workshop) (node node' : Node) : Prop where
  parameter : Parameter.build? shop node = Parameter.build? shop node'
  body : Parameter.buildBody? shop node = Parameter.buildBody? shop node'
  response : ∀ code, Response.build shop node code = Response.build shop node' code

namespace Workshop

variable {shop : Workshop} {node node' target : Node} {ref : String}

/-- What is built from a value depends on what the value stands for only. -/
theorem interchangeable_of_target
    (h : Reference.target shop.document node = Reference.target shop.document node') :
    shop.Interchangeable node node' where
  parameter := by rw [Parameter.build?, h, Parameter.build?]
  body := by rw [Parameter.buildBody?, h, Parameter.buildBody?]
  response code := by rw [Response.build, h, Response.build]

/-- A value that stands for an object with a reference is read without that reference. -/
theorem interchangeable_without (h : Reference.target shop.document node = .ok target)
    (apart : shop.dialect = .v3 ∨ target.get? "in" = none ∨
      ∃ schema, target.get "schema" = .map schema) :
    shop.Interchangeable node (target.without "$ref") where
  parameter := by
    rw [Parameter.build?, h, Parameter.build?, Reference.target_without]
    dsimp only [Bind.bind, Except.bind]
    rw [Node.isMap_without, Node.get_without_of_ne (by decide), Parameter.wireNameOf_without]
    by_cases hin : target.get? "in" = none
    · have nowhere : target.get "in" = .null := by
        rw [Node.get, hin]
        rfl
      rw [nowhere]
      rfl
    · have hschema (location : Location) :
          Parameter.schemaOf shop (target.without "$ref") location =
            Parameter.schemaOf shop target location :=
        Parameter.schemaOf_without (apart.imp_right fun h => h.resolve_left hin)
      simp only [hschema, Parameter.ofModel_without]
  body := by
    rw [Parameter.buildBody?, h, Parameter.buildBody?, Reference.target_without]
    dsimp only [Bind.bind, Except.bind]
    rw [Node.isMap_without, Node.get_without_of_ne (by decide), Parameter.ofBody_without]
  response code := by
    rw [Response.build, h, Response.build, Reference.target_without]
    dsimp only [Bind.bind, Except.bind]
    rw [Response.schemaOf_without, Node.get_without_of_ne (by decide), Response.ofHeaders_without]

/-- A reference may be exchanged for what it leads to; if that is a reference as well, for the other
members of it. -/
theorem interchangeable_reference
    (leads : Reference.resolve shop.document (.str ref) = .ok target) :
    (target.get? "$ref" = none → shop.Interchangeable (.reference ref) target) ∧
      (shop.dialect = .v3 ∨ target.get? "in" = none ∨
          (∃ schema, target.get "schema" = .map schema) →
        shop.Interchangeable (.reference ref) (target.without "$ref")) := by
  have found : Reference.target shop.document (.reference ref) = .ok target := by
    rw [Reference.target_reference, leads]
  refine ⟨fun plain => interchangeable_of_target ?_, interchangeable_without found⟩
  rw [found, Reference.target_of_get?_eq_none plain]

def limitObject : Node :=
  .map [(.str "name", .str "limit"), (.str "in", .str "query"),
    (.str "schema", .map [(.str "type", .str "integer")])]

/-- The workshop of a description with a parameter and another name for it. -/
def pageShop : Workshop where
  document := .map [(.str "components", .map [(.str "parameters", .map
    [(.str "Page", .reference "#/components/parameters/Limit"), (.str "Limit", limitObject)])])]
  dialect := .v3

theorem resolve_limit :
    Reference.resolve pageShop.document (.str "#/components/parameters/Limit") =
      .ok limitObject := by
  have hsegments : Reference.segments? "#/components/parameters/Limit" =
      some ["components", "parameters", "Limit"] := by decide +kernel
  rw [Reference.resolve, hsegments]
  rfl

theorem resolve_page :
    Reference.resolve pageShop.document (.str "#/components/parameters/Page") =
      .ok (.reference "#/components/parameters/Limit") := by
  have hsegments : Reference.segments? "#/components/parameters/Page" =
      some ["components", "parameters", "Page"] := by decide +kernel
  rw [Reference.resolve, hsegments]
  rfl

theorem interchangeable_reference_limit :
    pageShop.Interchangeable (.reference "#/components/parameters/Limit") limitObject ∧
      pageShop.Interchangeable (.reference "#/components/parameters/Page") (.map []) :=
  ⟨(interchangeable_reference resolve_limit).1 rfl,
    (interchangeable_reference resolve_page).2 (.inl rfl)⟩

theorem isSome_build_limit : (Parameter.build? pageShop
    (.reference "#/components/parameters/Limit")).toOption.join.isSome = true := by
  delta Parameter.build?
  rw [Schema.build_eq fun _ => .error (.malformed .endless)]
  decide +kernel

/-- Not if it leads to a reference: the name of a name stands for no parameter. -/
theorem not_interchangeable_reference : ¬ ∀ (shop : Workshop) (ref : String) (target : Node),
    Reference.resolve shop.document (.str ref) = .ok target →
      shop.Interchangeable (.reference ref) target := by
  intro h
  have same := (h pageShop _ _ resolve_page).parameter
  have nothing : Parameter.build? pageShop (.reference "#/components/parameters/Page") =
      .ok none := by
    rw [Parameter.build?, Reference.target_reference, resolve_page]
    rfl
  have something := isSome_build_limit
  rw [← same, nothing] at something
  cases something

end Workshop
end OpenApi
