import OpenApi.Proofs.Correspondence
import OpenApi.Proofs.QuotedKeys

/-
References after keys have been quoted.

The segments of a reference are texts, and a text is not looked up among numbers.  So a reference
that leads somewhere leads to the same value afterwards, with its keys quoted.  One that meets a
number, where it writes its digits (`MeetsNumber`), leads nowhere before and may lead somewhere
afterwards; any other one leads nowhere in both.
-/
namespace OpenApi

/-- Values of which one is the other with its keys quoted. -/
structure Node.Quoted (node node' : Node) : Prop where
  quotable : node.Quotable
  eq : node' = node.quoteKeys

namespace Entries

variable {entries : Entries} {key : String}

/-- Whether one of the keys is a number with the given digits. -/
def HasNumber (entries : Entries) (key : String) : Prop :=
  ∃ e ∈ entries, e.1.isNatural = true ∧ e.1.quoted = .str key

theorem get?_quoted_of_some (h : entries.Quotable) {value : Node}
    (hget : get? key entries = some value) :
    get? key (entries.map Node.quoteEntry) = some value.quoteKeys := by
  have hapart (e : Scalar × Node) (he : e ∈ entries) (hnatural : e.1.isNatural = true) :
      e.1.quoted ≠ .str key := fun heq =>
    keysApart_iff.mp h.apart e he hnatural _ (Node.mem_of_get?_entries hget) heq.symm
  clear h
  induction entries with
  | nil => cases hget
  | cons e rest ih =>
    obtain ⟨k, found⟩ := e
    rw [List.forall_mem_cons] at hapart
    rw [get?] at hget
    rw [List.map_cons, Node.quoteEntry, get?]
    by_cases hk : k = .str key
    · rw [if_pos hk] at hget
      cases hget
      rw [hk]
      exact if_pos rfl
    · rw [if_neg hk] at hget
      have hquoted : k.quoted ≠ .str key := by
        cases hnatural : k.isNatural with
        | false => rwa [Scalar.quoted_of_not_isNatural hnatural]
        | true => exact hapart.1 hnatural
      rw [if_neg hquoted]
      exact ih hget hapart.2

/-- What quoting adds are the keys that were numbers. -/
theorem get?_quoted_of_none (hget : get? key entries = none)
    (hnumber : ¬ Entries.HasNumber entries key) :
    get? key (entries.map Node.quoteEntry) = none := by
  induction entries with
  | nil => rfl
  | cons e rest ih =>
    obtain ⟨k, found⟩ := e
    rw [get?] at hget
    rw [List.map_cons, Node.quoteEntry, get?]
    by_cases hk : k = .str key
    · rw [if_pos hk] at hget
      cases hget
    · rw [if_neg hk] at hget
      have hquoted : k.quoted ≠ .str key := by
        intro heq
        cases hnatural : k.isNatural with
        | false => exact hk (Scalar.quoted_of_not_isNatural hnatural ▸ heq)
        | true => exact hnumber ⟨_, List.mem_cons_self, hnatural, heq⟩
      rw [if_neg hquoted]
      refine ih hget ?_
      rintro ⟨e, he, hboth⟩
      exact hnumber ⟨e, List.mem_cons_of_mem _ he, hboth⟩

end Entries

namespace Reference

open Node

/-- Whether one of the segments is looked up in a map that has the number which it writes. -/
def MeetsAlong (node : Node) (segments : List String) (segment : String) : Prop :=
  ∃ front back entries, segments = front ++ segment :: back ∧
    walk node front = .ok (.map entries) ∧ Entries.HasNumber entries segment

/-- Whether a reference writes the digits of a number where this number is a key. -/
def MeetsNumber (document : Node) (ref segment : String) : Prop :=
  ∃ segments, segments? ref = some segments ∧ MeetsAlong document segments segment

/-- A segment that is not found, although it writes a number that is a key. -/
def MissesAlong (node : Node) (segments : List String) (fault : PointerFault) : Prop :=
  ∃ segment, fault = .missingKey segment ∧ MeetsAlong node segments segment

/-- A reference that leads nowhere because it meets a number. -/
def MissesNumber (document : Node) (failure : Failure) : Prop :=
  ∃ ref segment, failure = .unresolvable ref (.missingKey segment) ∧
    MeetsNumber document ref segment

theorem MeetsAlong.cons {node next : Node} {first segment : String} {rest : List String}
    (hstep : step node first = .ok next) (h : MeetsAlong next rest segment) :
    MeetsAlong node (first :: rest) segment := by
  obtain ⟨front, back, entries, rfl, hwalk, hnumber⟩ := h
  refine ⟨first :: front, back, entries, rfl, ?_, hnumber⟩
  rw [walk, hstep]
  exact hwalk

theorem MissesAlong.cons {node next : Node} {first : String} {rest : List String}
    {fault : PointerFault} (hstep : step node first = .ok next) (h : MissesAlong next rest fault) :
    MissesAlong node (first :: rest) fault := by
  obtain ⟨segment, hfault, hmeets⟩ := h
  exact ⟨segment, hfault, hmeets.cons hstep⟩

section
variable {node : Node}

theorem step_inStep (h : node.Quotable) (segment : String) (rest : List String) :
    InStepUnless (MissesAlong node (segment :: rest)) Quoted (step node segment)
      (step node.quoteKeys segment) := by
  cases node with
  | map entries =>
    rw [quoteKeys_map, step, step]
    cases hget : Entries.get? segment entries with
    | some value =>
      rw [Entries.get?_quoted_of_some h.own hget]
      exact ⟨h.of_mem (mem_of_get?_entries hget), rfl⟩
    | none =>
      by_cases hnumber : Entries.HasNumber entries segment
      · exact .of_excused ⟨segment, rfl, [], rest, entries, rfl, rfl, hnumber⟩ _
      · rw [Entries.get?_quoted_of_none hget hnumber]
        exact True.intro
  | list items =>
    have hitem : (Numeral.signed? segment.toList).bind (item? (items.map quoteKeys)) =
        ((Numeral.signed? segment.toList).bind (item? items)).map quoteKeys := by
      cases Numeral.signed? segment.toList with
      | none => rfl
      | some index => exact item?_map _ items index
    rw [quoteKeys_list, step, step, hitem]
    cases hfound : (Numeral.signed? segment.toList).bind (item? items) with
    | none => exact True.intro
    | some value =>
      obtain ⟨index, _, hvalue⟩ := Option.bind_eq_some_iff.mp hfound
      exact ⟨forall_maps_list_iff.mp h value (mem_of_item? hvalue), rfl⟩
  | _ => exact True.intro

theorem walk_inStep (h : node.Quotable) (segments : List String) :
    InStepUnless (MissesAlong node segments) Quoted (walk node segments)
      (walk node.quoteKeys segments) := by
  induction segments generalizing node with
  | nil => exact ⟨h, rfl⟩
  | cons segment rest ih =>
    rw [walk, walk]
    rcases (step_inStep h segment rest).cases with
      ⟨next, next', hstep, hstep', hnext, rfl⟩ | ⟨fault, hstep, hexcused | ⟨fault', hstep'⟩⟩
    · rw [hstep, hstep']
      exact (ih hnext).mono fun fault hfault => hfault.cons hstep
    · rw [hstep]
      exact .of_excused hexcused _
    · rw [hstep, hstep']
      exact True.intro

/-- A reference leads to the same value with its keys quoted, but for one that meets a number. -/
theorem resolve_str_inStep {document : Node} (h : document.Quotable) (ref : String) :
    InStepUnless (MissesNumber document) Quoted (resolve document (.str ref))
      (resolve document.quoteKeys (.str ref)) := by
  rw [resolve, resolve]
  cases hsegments : segments? ref with
  | none => exact True.intro
  | some segments =>
    dsimp only
    rcases (walk_inStep h segments).cases with
      ⟨next, next', hwalk, hwalk', hnext⟩ | ⟨fault, hwalk, hexcused | ⟨fault', hwalk'⟩⟩
    · rw [hwalk, hwalk']
      exact hnext
    · obtain ⟨segment, rfl, hmeets⟩ := hexcused
      rw [hwalk]
      exact .of_excused ⟨ref, segment, rfl, segments, hsegments, hmeets⟩ _
    · rw [hwalk, hwalk']
      exact True.intro

theorem resolve_inStep {document : Node} (h : document.Quotable) (ref : Node) :
    InStepUnless (MissesNumber document) Quoted (resolve document ref)
      (resolve document.quoteKeys ref.quoteKeys) := by
  by_cases hkind : ref.kind = .str
  · obtain ⟨text, rfl⟩ := exists_text_of_kind hkind
    exact resolve_str_inStep h text
  · obtain ⟨failure, hfailure⟩ := exists_resolve_eq_error hkind document
    have hkind' : ref.quoteKeys.kind ≠ .str := by rwa [kind_quoteKeys]
    obtain ⟨failure', hfailure'⟩ := exists_resolve_eq_error hkind' document.quoteKeys
    rw [hfailure, hfailure']
    exact True.intro

theorem target_inStep {document : Node} (hdocument : document.Quotable) (h : node.Quotable) :
    InStepUnless (MissesNumber document) Quoted (target document node)
      (target document.quoteKeys node.quoteKeys) := by
  rw [target, target, get?_quoteKeys (by decide)]
  cases node.get? "$ref" with
  | none => exact ⟨h, rfl⟩
  | some ref => exact resolve_inStep hdocument ref

end
end Reference

/-! ### Discriminators -/

namespace Scope

/-- The scope of a description whose keys are quoted. -/
def quoted (scope : Scope) : Scope := { scope with document := scope.document.quoteKeys }

variable (scope : Scope)

theorem refersTo_quoteKeys (name : String) (node : Node) :
    scope.quoted.refersTo name node.quoteKeys = scope.refersTo name node := by
  rw [refersTo, Node.get_quoteKeys (by decide), refersTo]
  cases node.get "$ref" <;> rfl

theorem discriminatorOf?_quoteKeys (name : String) (definition : Node) :
    scope.quoted.discriminatorOf? name definition.quoteKeys =
      (scope.discriminatorOf? name definition).map Node.quoteKeys := by
  rw [discriminatorOf?_eq, discriminatorOf?_eq,
    Node.get_quoteKeys (by decide), Node.get_quoteKeys (by decide), Node.entries?_quoteKeys,
    Node.items?_quoteKeys]
  cases (definition.get "discriminator").entries? with
  | none => rfl
  | some entries =>
    cases (definition.get "oneOf").items? with
    | none => rfl
    | some members =>
      have hany : (members.map Node.quoteKeys).any (scope.quoted.refersTo name) =
          members.any (scope.refersTo name) := by
        rw [List.any_map]
        exact congrArg (List.any members) (funext (refersTo_quoteKeys scope name))
      dsimp only [Option.map_some, Option.bind_some]
      rw [hany]
      by_cases hrefers : members.any (scope.refersTo name) = true
      · rw [if_pos hrefers, if_pos hrefers, Option.map_some, Node.quoteKeys_map]
      · rw [if_neg hrefers, if_neg hrefers, Option.map_none]

theorem schemas_quoteKeys (dialect : Dialect) (document : Node) :
    dialect.schemas document.quoteKeys = (dialect.schemas document).map Node.quoteEntry := by
  have hpath (keys : List String) (hkeys : ∀ key ∈ keys, isNumeral key = false) (node : Node) :
      keys.foldl (fun node key => node.get key) node.quoteKeys =
        (keys.foldl (fun node key => node.get key) node).quoteKeys := by
    induction keys generalizing node with
    | nil => rfl
    | cons key rest ih =>
      rw [List.forall_mem_cons] at hkeys
      rw [List.foldl_cons, List.foldl_cons, Node.get_quoteKeys hkeys.1, ih hkeys.2]
  have hnames : ∀ key ∈ dialect.schemasPath, isNumeral key = false := by
    cases dialect <;> decide
  rw [Dialect.schemas, hpath _ hnames]
  exact Node.getD_entries?_quoteKeys _

theorem discriminator?_quoteKeys (name : String) :
    scope.quoted.discriminator? name = (scope.discriminator? name).map Node.quoteKeys := by
  rw [discriminator?, quoted, schemas_quoteKeys, List.findSome?_map, discriminator?,
    List.map_findSome?]
  exact congrArg (List.findSome? · _)
    (funext fun entry => discriminatorOf?_quoteKeys scope name entry.2)

theorem keysFor_quoteKeys (name : String) {mapping : Node} (h : mapping.Quotable) :
    scope.quoted.keysFor name mapping.quoteKeys = scope.keysFor name mapping := by
  cases mapping with
  | map entries =>
    have hchosen (e : Scalar × Node) :
        (e.2.quoteKeys.str?.any fun ref => scope.quoted.localName ref == name) =
          e.2.str?.any fun ref => scope.localName ref == name := by
      rw [Node.str?_quoteKeys]
      rfl
    rw [Node.quoteKeys_map, keysFor, keysFor, List.filter_map, List.mapM_map]
    simp only [Function.comp_def, Node.quoteEntry, hchosen]
    exact Except.mapM_congr fun e he => h.written_key (List.mem_of_mem_filter he)
  | _ => rfl

theorem fixedValue_quoteKeys (name : String) {discriminator : Node} (h : discriminator.Quotable) :
    scope.quoted.fixedValue name discriminator.quoteKeys = scope.fixedValue name discriminator := by
  rw [fixedValue, Node.get_quoteKeys (by decide),
    keysFor_quoteKeys scope name (inherited_quotable.get h "mapping"), fixedValue]

end Scope
end OpenApi
