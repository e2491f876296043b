import OpenApi.Operation.Build
import OpenApi.Proofs.Except

/-
The parameters that are declared for an operation.

`Declares` goes through a list of nodes as the building of an operation does, one node at a time, and
says what becomes of each: it declares no parameter, one that operations leave out, or one that the
operation keeps.  An operation is put together from what the nodes of its path and its own declare,
its body and its responses (`exists_assemble_of_build`).
-/
namespace OpenApi

namespace Parameter

/-- The parameters that a list of nodes declares for an operation.  A node that is no parameter of
a known location declares none, and the operation leaves some parameters out. -/
inductive Declares (shop : Workshop) : List Node → List Parameter → Prop
  | nil : Declares shop [] []
  | unknown {node : Node} {nodes : List Node} {declared : List Parameter}
      (built : build? shop node = .ok none) (rest : Declares shop nodes declared) :
      Declares shop (node :: nodes) declared
  | excluded {node : Node} {nodes : List Node} {parameter : Parameter} {declared : List Parameter}
      (built : build? shop node = .ok (some parameter))
      (out : isExcluded shop.preferences parameter = true) (rest : Declares shop nodes declared) :
      Declares shop (node :: nodes) declared
  | kept {node : Node} {nodes : List Node} {parameter : Parameter} {declared : List Parameter}
      (built : build? shop node = .ok (some parameter))
      (stays : isExcluded shop.preferences parameter = false)
      (rest : Declares shop nodes declared) : Declares shop (node :: nodes) (parameter :: declared)

theorem buildAll_cons (shop : Workshop) (node : Node) (nodes : List Node) :
    buildAll shop (node :: nodes) = do
      let built ← build? shop node
      let rest ← buildAll shop nodes
      return built.toList.filter (!isExcluded shop.preferences ·) ++ rest := by
  unfold buildAll
  rw [List.mapM_cons]
  cases build? shop node with
  | error failure => rfl
  | ok built =>
    cases nodes.mapM (build? shop) with
    | error failure => rfl
    | ok rest =>
      cases built with
      | none => rfl
      | some parameter =>
        show Except.ok ((parameter :: rest.filterMap id).filter _) = .ok _
        rw [List.filter_cons]
        simp only [Option.toList_some, List.filter_cons, List.filter_nil]
        split <;> rfl

theorem buildAll_eq_ok_iff {shop : Workshop} {nodes : List Node} {declared : List Parameter} :
    buildAll shop nodes = .ok declared ↔ Declares shop nodes declared := by
  constructor
  · intro h
    induction nodes generalizing declared with
    | nil =>
      cases h
      exact .nil
    | cons node nodes ih =>
      rw [buildAll_cons] at h
      obtain ⟨built, hbuilt, h⟩ := Except.bind_eq_ok_iff.mp h
      obtain ⟨rest, hrest, h⟩ := Except.bind_eq_ok_iff.mp h
      cases h
      cases built with
      | none => exact .unknown hbuilt (ih hrest)
      | some parameter =>
        cases hout : isExcluded shop.preferences parameter with
        | true => simpa [hout] using Declares.excluded hbuilt hout (ih hrest)
        | false => simpa [hout] using Declares.kept hbuilt hout (ih hrest)
  · intro h
    induction h with
    | nil => rfl
    | unknown built _ ih =>
      rw [buildAll_cons, built, ih]
      rfl
    | @excluded _ _ parameter _ built out _ ih =>
      rw [buildAll_cons, built, ih]
      show Except.ok ([parameter].filter _ ++ _) = _
      rw [List.filter_cons_of_neg (by simp [out])]
      rfl
    | @kept _ _ parameter _ built stays _ ih =>
      rw [buildAll_cons, built, ih]
      show Except.ok ([parameter].filter _ ++ _) = _
      rw [List.filter_cons_of_pos (by simp [stays])]
      rfl

/-! ### Names -/

/-- The name that a parameter has in a request, if the node stands for a parameter object. -/
def declaredName? (document node : Node) : Option String :=
  match Reference.target document node with
  | .ok target => if target.isMap then (wireNameOf target).toOption else none
  | .error _ => none

variable {shop : Workshop} {node : Node} {parameter : Parameter}

/-- What a parameter that is built is made of. -/
theorem exists_ofModel_of_build? (h : build? shop node = .ok (some parameter)) :
    ∃ target location wireName schema model, Reference.target shop.document node = .ok target ∧
      target.isMap = true ∧ wireNameOf target = .ok wireName ∧
      schemaOf shop target location = .ok schema ∧
      Schema.build shop.toScope schema "" false = .ok model ∧
      parameter = ofModel target location wireName model := by
  obtain ⟨target, htarget, h⟩ := Except.bind_eq_ok_iff.mp h
  split at h
  · cases h
  · rename_i hmap
    obtain ⟨location, _, h⟩ := Except.bind_eq_ok_iff.mp h
    split at h
    · cases h
    · rename_i location _
      obtain ⟨wireName, hwire, h⟩ := Except.bind_eq_ok_iff.mp h
      obtain ⟨schema, hschema, h⟩ := Except.bind_eq_ok_iff.mp h
      obtain ⟨model, hmodel, h⟩ := Except.bind_eq_ok_iff.mp h
      cases h
      exact ⟨target, location, wireName, schema, model, htarget, by simpa using hmap, hwire, hschema,
        hmodel, rfl⟩

/-- A parameter that is built is named by its node. -/
theorem names_of_build? (h : build? shop node = .ok (some parameter)) :
    declaredName? shop.document node = some parameter.wireName ∧
      parameter.name = Name.ofParameter parameter.wireName := by
  obtain ⟨target, location, wireName, schema, model, htarget, hmap, hwire, _, _, rfl⟩ :=
    exists_ofModel_of_build? h
  refine ⟨?_, by rw [ofModel]⟩
  rw [declaredName?, htarget]
  show (if target.isMap = true then (wireNameOf target).toOption else none) = some wireName
  rw [if_pos hmap, hwire]
  rfl

end Parameter

namespace OperationEntry

variable {shop : Workshop} {entry : OperationEntry} {operation : Operation}

/-- What an operation that is built is made of. -/
theorem exists_assemble_of_build (h : (entry.build shop).operation = .ok operation) :
    ∃ path declared body responses, entry.path.written = .ok path ∧
      Parameter.Declares shop entry.parameterNodes declared ∧ entry.body? shop = .ok body ∧
      Response.buildAll shop (entry.node.get "responses") = .ok responses ∧
      operation = assemble shop entry path declared body responses := by
  unfold build at h
  split at h
  · cases h
  · rename_i path hpath
    split at h
    · cases h
    · rename_i declared hdeclared
      obtain ⟨body, hbody, h⟩ := Except.bind_eq_ok_iff.mp h
      obtain ⟨responses, hresponses, h⟩ := Except.bind_eq_ok_iff.mp h
      exact ⟨path, declared, body, responses, hpath, Parameter.buildAll_eq_ok_iff.mp hdeclared,
        hbody, hresponses, (Except.pure_eq_ok_iff.mp h).symm⟩

end OperationEntry
end OpenApi
