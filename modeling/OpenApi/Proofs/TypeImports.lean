import OpenApi.Proofs.Tidying
import OpenApi.Proofs.TypeTokens

/-
Reading a type token ends, and imports identifiers only.

A token is used as the two parts around its brackets are, and each part is shorter than the token,
whatever the namespaces and escapes in it.  `readTo` is reading without any measure: it goes down as
far as it is allowed to and leaves what lies deeper to `cut`.  A depth above the length of the token
is enough whatever `cut` answers (`readTo_eq_ofToken`).

All imports come from tokens without brackets, where a name has been made an identifier, and no name
is imported twice.
-/
namespace OpenApi

namespace Name

/-- Whether a text is an identifier in which dollar signs count as letters. -/
structure IsTypeIdentifier (s : String) : Prop where
  head : ∃ c rest, s.toList = c :: rest ∧ isHead c = true
  tail : ∀ c ∈ s.toList, isTail c = true

theorem isTail_of_mem_squeeze {cs : List Char} {c : Char} (h : c ∈ squeeze isTail '_' cs) :
    isTail c = true := by
  by_contra hother
  have hmark : '_' ≠ c := by
    rintro rfl
    exact hother (by decide)
  exact not_mem_squeeze (Bool.not_eq_true _ ▸ hother) hmark cs h

/-- What is left of a token is nothing or an identifier. -/
theorem isTypeIdentifier_typeChars {cs : List Char} (h : typeChars cs ≠ []) :
    IsTypeIdentifier (String.ofList (typeChars cs)) := by
  refine ⟨?_, fun c hc => ?_⟩
  · cases hdrop : cs.dropWhile (!isHead ·) with
    | nil =>
      rw [typeChars, hdrop] at h
      exact absurd rfl h
    | cons c rest =>
      have hhead : isHead c = true := by
        have hfirst := List.head?_dropWhile_not (!isHead ·) cs
        rw [hdrop] at hfirst
        simpa using hfirst
      refine ⟨c, squeeze isTail '_' rest, ?_, hhead⟩
      rw [String.toList_ofList, typeChars, hdrop, squeeze, if_pos (isTail_of_isHead hhead)]
  · rw [String.toList_ofList, typeChars] at hc
    exact isTail_of_mem_squeeze hc

end Name

namespace TypeUse

variable {dialect : Dialect} {cs : List Char}

/-! ### Reading -/

/-- One step of reading a token, where `nested` says how its parts are used. -/
def readBy (dialect : Dialect) (nested : List Char → TypeUse) (cs : List Char) : TypeUse :=
  match Dialect.primitive? (String.ofList cs) with
  | some name => ofName name
  | none =>
    match brackets? (plainToken dialect cs) with
    | some (outer, inner) => applied (nested outer) (nested inner) (Text.trim inner).isEmpty
    | none => ofDefinition (plainToken dialect cs)

/-- Reading down to a depth. -/
def readTo (dialect : Dialect) (cut : List Char → TypeUse) : Nat → List Char → TypeUse
  | 0, cs => cut cs
  | depth + 1, cs => readBy dialect (readTo dialect cut depth) cs

theorem ofToken_eq_readBy (dialect : Dialect) (cs : List Char) :
    ofToken dialect cs = readBy dialect (ofToken dialect) cs := by
  rw [readBy]
  split
  · exact ofToken_of_primitive ‹_›
  · exact ofToken_of_not_primitive ‹_›

theorem readBy_congr {nested nested' : List Char → TypeUse}
    (h : ∀ part ∈ parts dialect cs, nested part = nested' part) :
    readBy dialect nested cs = readBy dialect nested' cs := by
  unfold readBy
  split
  · rfl
  · rename_i hprimitive
    split
    · rename_i outer inner hbrackets
      rw [parts_of_brackets hprimitive hbrackets] at h
      rw [h outer (by simp), h inner (by simp)]
    · rfl

/-- Nothing of a token lies as deep as the token is long. -/
theorem readTo_eq_ofToken (cut : List Char → TypeUse) {depth : Nat} (h : cs.length < depth) :
    readTo dialect cut depth cs = ofToken dialect cs := by
  induction depth generalizing cs with
  | zero => exact absurd h (Nat.not_lt_zero _)
  | succ depth ih =>
    rw [readTo, ofToken_eq_readBy]
    refine readBy_congr fun part hpart => ih ?_
    have hshorter := length_lt_of_mem_parts hpart
    omega

/-! ### Imports -/

/-- What every list of imports is like. -/
structure IsImportList (names : List String) : Prop where
  nodup : names.Nodup
  identifiers : ∀ name ∈ names, Name.IsTypeIdentifier name

theorem isImportList_nil : IsImportList [] := ⟨List.nodup_nil, nofun⟩

theorem IsImportList.appendNew {imports names : List String} (h : IsImportList imports)
    (h' : IsImportList names) : IsImportList (appendNew imports names) := by
  refine ⟨nodup_appendNew names h.nodup, fun name hname => ?_⟩
  rcases mem_appendNew.mp hname with hmem | hmem
  · exact h.identifiers name hmem
  · exact h'.identifiers name hmem

theorem isImportList_applied {outer inner : TypeUse} (blank : Bool)
    (houter : IsImportList outer.imports) (hinner : IsImportList inner.imports) :
    IsImportList (applied outer inner blank).imports := by
  have hboth := (isImportList_nil.appendNew houter).appendNew hinner
  unfold applied
  split
  · exact isImportList_nil.appendNew hinner
  · cases blank with
    | true => exact hboth
    | false => exact hboth

theorem isImportList_ofDefinition (cs : List Char) : IsImportList (ofDefinition cs).imports := by
  unfold ofDefinition
  dsimp only
  split
  · exact isImportList_nil
  · rename_i hname
    rw [String.isEmpty_iff, ← String.toList_inj, String.toList_ofList] at hname
    refine ⟨List.pairwise_singleton _ _, fun name hmem => ?_⟩
    rw [List.mem_singleton.mp hmem]
    exact Name.isTypeIdentifier_typeChars hname

/-- One step keeps the imports in order if they are for all parts. -/
theorem isImportList_readBy {nested : List Char → TypeUse}
    (h : ∀ part ∈ parts dialect cs, IsImportList (nested part).imports) :
    IsImportList (readBy dialect nested cs).imports := by
  unfold readBy
  split
  · exact isImportList_nil
  · rename_i hprimitive
    split
    · rename_i outer inner hbrackets
      rw [parts_of_brackets hprimitive hbrackets] at h
      exact isImportList_applied _ (h outer (by simp)) (h inner (by simp))
    · exact isImportList_ofDefinition _

theorem isImportList_ofToken (dialect : Dialect) (cs : List Char) :
    IsImportList (ofToken dialect cs).imports := by
  induction cs using tokenInduction dialect with
  | token cs ih =>
    rw [ofToken_eq_readBy]
    exact isImportList_readBy ih

/-- Every text is read as some type: no deeper than the text is long, by parts that are shorter at
every step, with imports that are different identifiers. -/
theorem ofNode_terminates (dialect : Dialect) (text : String) (format : Node) :
    ∃ use, ofNode dialect (.str text) format = .ok use ∧
      (∀ (cut : List Char → TypeUse) (depth : Nat), text.length < depth →
        use = if format.isText "binary" then ofName "binary"
          else readTo dialect cut depth text.toList) ∧
      (∀ cs : List Char, (∀ part ∈ parts dialect cs, part.length < cs.length) ∧
        ∀ nested nested' : List Char → TypeUse,
          (∀ part ∈ parts dialect cs, nested part = nested' part) →
            readBy dialect nested cs = readBy dialect nested' cs) ∧
      use.imports.Nodup ∧ ∀ name ∈ use.imports, Name.IsTypeIdentifier name := by
  have himports : IsImportList (ofText dialect text format).imports := by
    rw [ofText]
    split
    · exact isImportList_nil
    · exact isImportList_ofToken dialect text.toList
  refine ⟨ofText dialect text format, rfl, fun cut depth hdepth => ?_, fun cs => ?_,
    himports.nodup, himports.identifiers⟩
  · rw [ofText, readTo_eq_ofToken cut (String.length_toList ▸ hdepth)]
  · exact ⟨fun part hpart => length_lt_of_mem_parts hpart, fun _ _ h => readBy_congr h⟩

end TypeUse
end OpenApi
