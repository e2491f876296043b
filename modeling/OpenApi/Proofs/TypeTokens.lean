import Mathlib.Data.List.TakeWhile
import OpenApi.TypeUse
import OpenApi.Proofs.Texts

/-
What a type token says beyond the text of the type.

The type and the base of a token differ only where brackets around something are read (`IsName`). A
token that names no primitive type is plain or in brackets, and what decides is the plain token
alone, so two tokens that leave the same plain token are used alike.  The characters of an
identifier are those of the token with marks between them: no letter or digit is lost or added
(`countP_typeChars`).
-/
namespace OpenApi

/-! ### Names -/

namespace Name

theorem avoidReserved_eq_self_iff {s : String} : avoidReserved s = s ↔ s ∉ reserved := by
  unfold avoidReserved
  by_cases h : s ∈ reserved
  · rw [if_pos h]
    have hne : s ++ "_" ≠ s := by
      intro heq
      have hlen := congrArg String.length heq
      rw [String.length_append] at hlen
      have hone : "_".length = 1 := rfl
      omega
    exact ⟨fun heq => absurd heq hne, fun hn => absurd h hn⟩
  · rw [if_neg h]
    exact ⟨fun _ => h, fun _ => rfl⟩

theorem eq_of_append_eq_avoidReserved {s mark : String} (h : s ++ mark = avoidReserved s) :
    mark = "" ∨ mark = "_" := by
  have hcancel {t : String} (ht : s ++ mark = s ++ t) : mark = t := by
    have hlist := congrArg String.toList ht
    rw [String.toList_append, String.toList_append] at hlist
    exact String.toList_inj.mp (List.append_cancel_left hlist)
  unfold avoidReserved at h
  split at h
  · exact .inr (hcancel h)
  · exact .inl (hcancel (h.trans (String.append_empty).symm))

theorem isTail_of_isAlphanum {c : Char} (h : c.isAlphanum = true) : isTail c = true := by
  rw [isTail, h]
  rfl

theorem not_mem_squeeze {keep : Char → Bool} {mark c : Char} (hc : keep c = false)
    (hmark : mark ≠ c) (cs : List Char) : c ∉ squeeze keep mark cs := by
  induction cs with
  | nil => exact List.not_mem_nil
  | cons d rest ih =>
    rw [squeeze]
    split
    · rename_i hd
      intro hmem
      rcases List.mem_cons.mp hmem with rfl | hmem
      · rw [hc] at hd
        cases hd
      · exact ih hmem
    · split
      · exact ih
      · intro hmem
        rcases List.mem_cons.mp hmem with rfl | hmem
        · exact hmark rfl
        · exact ih hmem

theorem countP_squeeze (cs : List Char) :
    (squeeze isTail '_' cs).countP Char.isAlphanum = cs.countP Char.isAlphanum := by
  induction cs with
  | nil => rfl
  | cons c rest ih =>
    rw [squeeze]
    by_cases hkeep : isTail c = true
    · rw [if_pos hkeep, List.countP_cons, List.countP_cons, ih]
    · have hc : ¬ c.isAlphanum = true := fun h => hkeep (isTail_of_isAlphanum h)
      have hmark : ¬ Char.isAlphanum '_' = true := by decide
      rw [if_neg hkeep, List.countP_cons_of_neg hc]
      split
      · exact ih
      · rw [List.countP_cons_of_neg hmark, ih]

theorem isTail_of_isHead {c : Char} (h : isHead c = true) : isTail c = true := by
  unfold isHead at h
  rw [Bool.or_eq_true, Bool.or_eq_true] at h
  unfold isTail
  rcases h with (h | h) | h
  · rw [Char.isAlphanum, h]
    rfl
  · rw [h, Bool.or_true, Bool.true_or]
  · rw [h, Bool.or_true]

theorem typeChars_cons {c : Char} {rest : List Char} (h : isHead c = true) :
    typeChars (c :: rest) = c :: squeeze isTail '_' rest := by
  have hdrop : (c :: rest).dropWhile (!isHead ·) = c :: rest :=
    List.dropWhile_cons_of_neg (by rw [h]; exact Bool.false_ne_true)
  rw [typeChars, hdrop, squeeze, if_pos (isTail_of_isHead h)]

/-- A text that begins like an identifier keeps its letters and digits. -/
theorem countP_typeChars {c : Char} {rest : List Char} (h : isHead c = true) :
    (typeChars (c :: rest)).countP Char.isAlphanum = (c :: rest).countP Char.isAlphanum := by
  rw [typeChars_cons h, List.countP_cons, List.countP_cons, countP_squeeze]

theorem typeChars_ne_nil {c : Char} {rest : List Char} (h : isHead c = true) :
    typeChars (c :: rest) ≠ [] := by
  rw [typeChars_cons h]
  exact List.cons_ne_nil c _

theorem countP_avoidReserved (s : String) :
    (avoidReserved s).toList.countP Char.isAlphanum = s.toList.countP Char.isAlphanum := by
  unfold avoidReserved
  split
  · rw [String.toList_append, List.countP_append]
    rfl
  · rfl

theorem dropStart_of_not_prefix {start cs : List Char} (h : ¬ start <+: cs) :
    dropStart start cs = cs := by
  rw [dropStart, if_neg fun hp => h (List.isPrefixOf_iff_prefix.mp hp)]

theorem foldl_dropStart_of_not_prefix {namespaces : List String} {cs : List Char}
    (h : ∀ start ∈ namespaces, ¬ start.toList <+: cs) :
    namespaces.foldl (fun cs start => dropStart start.toList cs) cs = cs := by
  induction namespaces with
  | nil => rfl
  | cons start rest ih =>
    rw [List.forall_mem_cons] at h
    rw [List.foldl_cons, dropStart_of_not_prefix h.1, ih h.2]

/-- If no start is the beginning of another one, the one that a text begins with is dropped. -/
theorem foldl_dropStart_of_mem {namespaces : List String} {start : String} {rest : List Char}
    (h : start ∈ namespaces)
    (apart : ∀ other ∈ namespaces,
      other.toList <+: start.toList ∨ start.toList <+: other.toList → other = start)
    (outside : ∀ other ∈ namespaces, ¬ other.toList <+: rest) :
    namespaces.foldl (fun cs start => dropStart start.toList cs) (start.toList ++ rest) = rest := by
  have hown : start.toList <+: start.toList ++ rest := List.prefix_append _ rest
  induction namespaces with
  | nil => cases h
  | cons first others ih =>
    rw [List.forall_mem_cons] at apart outside
    by_cases hfirst : first = start
    · rw [List.foldl_cons, hfirst, dropStart, if_pos (List.isPrefixOf_iff_prefix.mpr hown),
        List.drop_left, foldl_dropStart_of_not_prefix outside.2]
    · have hother : ¬ first.toList <+: start.toList ++ rest := fun hp =>
        hfirst (apart.1 (List.prefix_or_prefix_of_prefix hp hown))
      have hmem : start ∈ others := (List.mem_cons.mp h).resolve_left (Ne.symm hfirst)
      rw [List.foldl_cons, dropStart_of_not_prefix hother, ih hmem apart.2 outside.2]

end Name

/-! ### Tokens -/

namespace Dialect

theorem mem_primitives_of_primitive? {name meaning : String} (h : primitive? name = some meaning) :
    (name, meaning) ∈ primitives := by
  obtain ⟨before, after, heq, _⟩ := List.lookup_eq_some_iff.mp h
  rw [heq]
  exact List.mem_append_right before List.mem_cons_self

/-- No primitive type has a name with a mark of references or expressions in it. -/
theorem primitive?_of_mem {name : String} {c : Char} (hc : c ∈ ['#', '/', '~', '['])
    (h : c ∈ name.toList) : primitive? name = none := by
  cases hprimitive : primitive? name with
  | none => rfl
  | some meaning =>
    have hall : (primitives.all fun e => ['#', '/', '~', '['].all fun c => !e.1.toList.contains c) =
        true := by decide
    have hname := List.all_eq_true.mp hall _ (mem_primitives_of_primitive? hprimitive)
    have hfree : (!name.toList.contains c) = true := List.all_eq_true.mp hname c hc
    rw [List.contains_iff_mem.mpr h] at hfree
    cases hfree

end Dialect

namespace TypeUse

section
variable {dialect : Dialect} {start : String}

theorem head?_namespaces (h : start ∈ dialect.namespaces) : start.toList.head? = some '#' := by
  have hall : ∀ start ∈ dialect.namespaces, start.toList.head? = some '#' := by
    cases dialect <;> decide
  exact hall start h

theorem mem_namespaces_mark (h : start ∈ dialect.namespaces) : '#' ∈ start.toList :=
  List.mem_of_mem_head? (head?_namespaces h)

theorem mem_namespaces_slash (h : start ∈ dialect.namespaces) : '/' ∈ start.toList := by
  have hall : ∀ start ∈ dialect.namespaces, '/' ∈ start.toList := by cases dialect <;> decide
  exact hall start h

/-- Of a text in a namespace only what follows the namespace is left. -/
theorem withoutNamespaces_of_mem {cs written : List Char} (h : start ∈ dialect.namespaces)
    (htrim : Text.trim cs = start.toList ++ written)
    (outside : ∀ other ∈ dialect.namespaces, ¬ other.toList <+: written) :
    Name.withoutNamespaces dialect.namespaces cs = written := by
  have apart : ∀ start ∈ dialect.namespaces, ∀ other ∈ dialect.namespaces,
      other.toList <+: start.toList ∨ start.toList <+: other.toList → other = start := by
    cases dialect <;> decide +kernel
  rw [Name.withoutNamespaces, htrim]
  exact Name.foldl_dropStart_of_mem h (apart start h) outside

end

/-- The tokens that a token is read by: the texts around and between its brackets. -/
def parts (dialect : Dialect) (cs : List Char) : List (List Char) :=
  match Dialect.primitive? (String.ofList cs), brackets? (plainToken dialect cs) with
  | none, some (outer, inner) => [outer, inner]
  | _, _ => []

theorem parts_of_brackets {dialect : Dialect} {cs outer inner : List Char}
    (hprimitive : Dialect.primitive? (String.ofList cs) = none)
    (hbrackets : brackets? (plainToken dialect cs) = some (outer, inner)) :
    parts dialect cs = [outer, inner] := by rw [parts, hprimitive, hbrackets]

theorem length_lt_of_mem_parts {dialect : Dialect} {cs part : List Char}
    (h : part ∈ parts dialect cs) : part.length < cs.length := by
  unfold parts at h
  split at h
  · rename_i outer inner _ hbrackets
    have hpart := length_brackets?_lt hbrackets
    have hplain := length_plainToken_le dialect cs
    rcases List.mem_cons.mp h with rfl | h
    · omega
    · rw [List.mem_singleton.mp h]
      omega
  · cases h

/-- Induction on tokens: what holds of a token as soon as it holds of its parts. -/
theorem tokenInduction (dialect : Dialect) {P : List Char → Prop}
    (token : ∀ cs, (∀ part ∈ parts dialect cs, P part) → P cs) (cs : List Char) : P cs := by
  induction hn : cs.length using Nat.strongRecOn generalizing cs with
  | ind n ih =>
    refine token cs fun part hpart => ?_
    exact ih part.length (hn ▸ length_lt_of_mem_parts hpart) part rfl

/-- The use of a plain token, whose head and argument are tokens again. -/
def ofPlain (dialect : Dialect) (cs : List Char) : TypeUse :=
  match brackets? cs with
  | some (outer, inner) =>
    applied (ofToken dialect outer) (ofToken dialect inner) (Text.trim inner).isEmpty
  | none => ofDefinition cs

/-- Whether a plain token is a name, or a name with brackets around nothing. -/
def IsName (dialect : Dialect) (cs : List Char) : Prop :=
  match brackets? cs with
  | some (outer, inner) => (ofToken dialect outer).type ≠ "any[]" ∧ Text.trim inner = []
  | none => True

variable {dialect : Dialect} {cs : List Char}

theorem ofToken_of_primitive {meaning : String}
    (h : Dialect.primitive? (String.ofList cs) = some meaning) :
    ofToken dialect cs = ofName meaning := by
  rw [ofToken, h]

theorem ofToken_of_not_primitive (h : Dialect.primitive? (String.ofList cs) = none) :
    ofToken dialect cs = ofPlain dialect (plainToken dialect cs) := by
  rw [ofToken, h, ofPlain]
  dsimp only
  split <;> rename_i hb <;> simp only [hb]

theorem ofPlain_of_not_mem (h : '[' ∉ cs) : ofPlain dialect cs = ofDefinition cs := by
  have hnone : brackets? cs = none := by
    have hdrop : cs.dropWhile (· != '[') = [] := by
      rw [List.dropWhile_eq_nil_iff]
      intro c hc
      rw [bne_iff_ne]
      rintro rfl
      exact h hc
    unfold brackets?
    rw [hdrop]
  rw [ofPlain, hnone]

theorem type_ofDefinition_cons {c : Char} {rest : List Char} (h : Name.isHead c = true) :
    (ofDefinition (c :: rest)).type = String.ofList (Name.typeChars (c :: rest)) := by
  have hname : ¬ (String.ofList (Name.typeChars (c :: rest))).isEmpty = true := by
    rw [String.isEmpty_iff, ← String.toList_inj, String.toList_ofList]
    exact Name.typeChars_ne_nil h
  unfold ofDefinition
  rw [if_neg hname]
  rfl

theorem type_ofDefinition (cs : List Char) : (ofDefinition cs).type = (ofDefinition cs).base := by
  unfold ofDefinition
  dsimp only
  split <;> rfl

theorem type_applied_eq_iff {outer inner : TypeUse} {blank : Bool} :
    (applied outer inner blank).type = Name.avoidReserved (applied outer inner blank).base ↔
      (outer.type ≠ "any[]" ∧ blank = true) ∧
        (applied outer inner blank).base ∉ Name.reserved := by
  unfold applied
  by_cases harray : outer.type = "any[]"
  · rw [if_pos harray]
    constructor
    · intro h
      rcases Name.eq_of_append_eq_avoidReserved h with hmark | hmark
      · exact absurd hmark (by decide)
      · exact absurd hmark (by decide)
    · exact fun h => absurd harray h.1.1
  · rw [if_neg harray]
    cases blank with
    | true =>
      show outer.type = Name.avoidReserved outer.type ↔ _
      rw [eq_comm, Name.avoidReserved_eq_self_iff]
      exact ⟨fun h => ⟨⟨harray, rfl⟩, h⟩, And.right⟩
    | false =>
      constructor
      · intro h
        have hmark : outer.type ++ ("<" ++ inner.type ++ ">") = Name.avoidReserved outer.type := by
          rw [← String.append_assoc, ← String.append_assoc]
          exact h
        -- The mark begins with a bracket.
        rcases Name.eq_of_append_eq_avoidReserved hmark with hmark | hmark
        · have hlist := congrArg String.toList hmark
          rw [String.toList_append, String.toList_append] at hlist
          cases hlist
        · have hlist := congrArg String.toList hmark
          rw [String.toList_append, String.toList_append] at hlist
          exact absurd (List.cons.inj hlist).1 (by decide)
      · exact fun h => nomatch h.1.2

/-- The type of a name is its base, while a type with an argument is no escape of its base. -/
theorem type_ofPlain_eq_iff :
    (ofPlain dialect cs).type = Name.avoidReserved (ofPlain dialect cs).base ↔
      IsName dialect cs ∧ (ofPlain dialect cs).base ∉ Name.reserved := by
  unfold ofPlain IsName
  split
  · rw [type_applied_eq_iff, List.isEmpty_iff]
  · rw [type_ofDefinition, eq_comm, Name.avoidReserved_eq_self_iff]
    exact ⟨fun h => ⟨trivial, h⟩, And.right⟩

/-- A plain token without brackets that begins like an identifier is used as that identifier. -/
theorem ofToken_of_name {c : Char} {rest : List Char}
    (h : Dialect.primitive? (String.ofList cs) = none) (hplain : plainToken dialect cs = c :: rest)
    (hhead : Name.isHead c = true) (hbracket : '[' ∉ c :: rest) :
    (ofToken dialect cs).type = String.ofList (Name.typeChars (c :: rest)) ∧
      (ofToken dialect cs).base = String.ofList (Name.typeChars (c :: rest)) := by
  rw [ofToken_of_not_primitive h, hplain, ofPlain_of_not_mem hbracket, ← type_ofDefinition,
    type_ofDefinition_cons hhead]
  exact ⟨rfl, rfl⟩

end TypeUse
end OpenApi
