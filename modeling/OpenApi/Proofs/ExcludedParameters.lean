import OpenApi.Proofs.DeclaredParameters
import OpenApi.Proofs.Entries
import OpenApi.Proofs.Termination

/-
Parameters that are left out.

A parameter that the preferences exclude is looked up and built like any other before it is dropped.
Nothing of it is left: what is built is what would be built from a description without the nodes
that declare it (`OperationEntry.without`), with preferences that exclude nothing.  This covers the
warnings as well as the operation with its parameters, imports and results.
-/
namespace OpenApi

namespace Workshop

/-- The workshop of a user who excludes no parameters. -/
def excludingNothing (shop : Workshop) : Workshop :=
  { shop with preferences := { shop.preferences with excludedParameters := [] } }

end Workshop

namespace Parameter

/-- Whether a node stands for a parameter object of one of the names. -/
def isNamed (document : Node) (names : List String) (node : Node) : Bool :=
  (declaredName? document node).any names.contains

variable {shop : Workshop} {node : Node}

theorem isExcluded_eq (preferences : Preferences) (parameter : Parameter) :
    isExcluded preferences parameter =
      (isExcluded { preferences with excludedParameters := [] } parameter ||
        preferences.excludedParameters.contains parameter.wireName) := by
  simp [isExcluded]

theorem isNamed_of_build? (names : List String) {parameter : Parameter}
    (h : build? shop node = .ok (some parameter)) :
    isNamed shop.document names node = names.contains parameter.wireName := by
  rw [isNamed, (names_of_build? h).1, Option.any_some]

/-- Without the nodes of excluded names, the same parameters are declared and none is excluded. -/
theorem Declares.without {nodes : List Node} {declared : List Parameter}
    (h : Declares shop nodes declared) : Declares shop.excludingNothing
      (nodes.filter (!isNamed shop.document shop.preferences.excludedParameters ·)) declared := by
  induction h with
  | nil => exact .nil
  | @unknown node _ _ built _ ih =>
    rw [List.filter_cons]
    split
    · exact .unknown built ih
    · exact ih
  | @excluded node _ parameter _ built out _ ih =>
    have hnamed := isNamed_of_build? shop.preferences.excludedParameters built
    rw [isExcluded_eq, Bool.or_eq_true] at out
    rw [List.filter_cons, hnamed]
    split
    · -- Its name is one that no operation has a parameter of.
      rename_i hother
      have halways := out.resolve_right (by simpa using hother)
      exact .excluded built halways ih
    · exact ih
  | @kept node _ parameter _ built stays _ ih =>
    have hnamed := isNamed_of_build? shop.preferences.excludedParameters built
    rw [isExcluded_eq, Bool.or_eq_false_iff] at stays
    rw [List.filter_cons_of_pos (by rw [hnamed, stays.2]; rfl)]
    exact .kept built stays.1 ih

end Parameter

namespace OperationEntry

/-- The entry without the nodes that stand for parameter objects of one of the names. -/
def without (document : Node) (names : List String) (entry : OperationEntry) : OperationEntry :=
  { entry with
    pathParameters := entry.pathParameters.filter (!Parameter.isNamed document names ·)
    node :=
      match entry.node, (entry.node.get "parameters").items? with
      | .map entries, some items =>
        .map (Entries.insert (.str "parameters")
          (.list (items.filter (!Parameter.isNamed document names ·))) entries)
      | node, _ => node }

variable {shop : Workshop} {entry : OperationEntry} {operation : Operation} {document : Node}
  {names : List String}

theorem get?_without {key : String} (h : key ≠ "parameters") :
    (entry.without document names).node.get? key = entry.node.get? key := by
  unfold without
  dsimp only
  split
  · rename_i entries items hnode _
    rw [hnode]
    exact Entries.get?_insert_of_ne h _
  · rfl

theorem get_without {key : String} (h : key ≠ "parameters") :
    (entry.without document names).node.get key = entry.node.get key := by
  rw [Node.get, get?_without h, Node.get]

theorem items_without : ((entry.without document names).node.get "parameters").items?.getD [] =
    ((entry.node.get "parameters").items?.getD []).filter
      (!Parameter.isNamed document names ·) := by
  unfold without
  dsimp only
  split
  · rename_i entries items _ hitems
    rw [hitems, Node.get, Node.get?, Entries.get?_insert_self]
    rfl
  · rename_i hother
    -- Only maps have members, so there are no parameters of its own.
    cases hitems : (entry.node.get "parameters").items? with
    | none => rfl
    | some items =>
      cases hnode : entry.node with
      | map entries => exact absurd hitems (hother entries items hnode)
      | _ =>
        rw [hnode] at hitems
        cases hitems

theorem parameterNodes_without (entry : OperationEntry) (document : Node) (names : List String) :
    (entry.without document names).parameterNodes =
      entry.parameterNodes.filter (!Parameter.isNamed document names ·) := by
  rw [parameterNodes, items_without, parameterNodes, List.filter_append]
  rfl

theorem body?_without (shop : Workshop) (entry : OperationEntry) (document : Node)
    (names : List String) :
    (entry.without document names).body? shop.excludingNothing = entry.body? shop := by
  unfold body?
  rw [get?_without (by decide)]
  rfl

theorem assemble_without (path : String) (declared : List Parameter) (body : Option Parameter)
    (responses : List Response) :
    assemble shop.excludingNothing (entry.without document names) path declared body responses =
      assemble shop entry path declared body responses := by
  have hname : nameFor (entry.without document names).node (entry.without document names).method =
      nameFor entry.node entry.method := by
    rw [nameFor, get_without (by decide)]
    rfl
  unfold assemble
  rw [hname, get_without (by decide), get_without (by decide), get_without (by decide)]
  rfl

theorem finish_without (path : String) (declared : List Parameter) :
    finish shop.excludingNothing (entry.without document names) path declared =
      finish shop entry path declared := by
  unfold finish
  rw [body?_without, get_without (by decide)]
  simp only [assemble_without]
  rfl

/-- To exclude parameters is to take the nodes that declare them out of the description. -/
theorem build_without (h : (entry.build shop).operation = .ok operation) :
    (entry.without shop.document shop.preferences.excludedParameters).build
      shop.excludingNothing = entry.build shop := by
  obtain ⟨path, declared, _, _, hpath, hdeclared, -⟩ := exists_assemble_of_build h
  have hrest : Parameter.buildAll shop.excludingNothing
      (entry.without shop.document shop.preferences.excludedParameters).parameterNodes =
        .ok declared := by
    rw [parameterNodes_without]
    exact Parameter.buildAll_eq_ok_iff.mpr hdeclared.without
  have hall := Parameter.buildAll_eq_ok_iff.mpr hdeclared
  unfold build
  rw [show (entry.without shop.document shop.preferences.excludedParameters).path = entry.path
    from rfl, hpath, hrest, hall]
  show Built.mk _ (finish _ _ path declared) = Built.mk _ (finish _ _ path declared)
  rw [finish_without]
  rfl

/-- The workshop of a description that shares one parameter, which is excluded. -/
def sessionShop : Workshop where
  document := .map
    [(.str "openapi", .str "3.0.0"),
      (.str "components", .map [(.str "parameters", .map [(.str "Session", .map
        [(.str "name", .str "session"), (.str "in", .str "cookie"),
          (.str "schema", .map [(.str "type", .str "string")])])])])]
  dialect := .v3
  preferences := { excludedParameters := ["session"] }

/-- An operation that declares one parameter twice and, in two ways, the excluded one. -/
def sessionEntry : OperationEntry where
  path := .str "/pets"
  method := "get"
  tag := "pets"
  node := .map [(.str "parameters", .list [limit, session])]
  pathParameters := [reference, limit]
where
  limit : Node := .map [(.str "name", .str "limit"), (.str "in", .str "query")]
  session : Node := .map [(.str "name", .str "session"), (.str "in", .str "header")]
  reference : Node := .map [(.str "$ref", .str "#/components/parameters/Session")]

example : (sessionEntry.without sessionShop.document ["session"]).parameterNodes.length = 2 := by
  decide +kernel

theorem isOk_build_sessionEntry : (sessionEntry.build sessionShop).operation.isOk = true := by
  delta build finish Parameter.buildAll Parameter.build? body? Parameter.buildBody?
    Response.buildAll Response.ofMember? Response.build
  rw [Schema.build_eq fun _ => .error (.malformed .endless)]
  decide +kernel

theorem build_without_sessionEntry : ∃ operation,
    (sessionEntry.build sessionShop).operation = .ok operation ∧
      (sessionEntry.without sessionShop.document ["session"]).build
        sessionShop.excludingNothing = sessionEntry.build sessionShop := by
  obtain ⟨operation, hbuilt⟩ := Except.exists_of_isOk isOk_build_sessionEntry
  exact ⟨operation, hbuilt, build_without hbuilt⟩

end OperationEntry
end OpenApi
