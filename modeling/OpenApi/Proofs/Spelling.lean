import OpenApi.Dialect
import OpenApi.Reference
import OpenApi.Proofs.Texts

/-
How references to definitions are spelled.

A reference leads to a definition when its segments are those of the definitions and the key.  Many
texts do: the key may be escaped, and so may the path to it.  Most references write the path out
(`WritesOut`), and then the text after it is decoded to the key.  If no slash or tilde is escaped in
it, decoding it is percent-decoding; if one is, the key has fewer letters and digits than the text.
-/
namespace OpenApi.Reference

/-- What stands before a key in a reference that writes out the path to the definitions. -/
def schemasNamespace : Dialect → String
  | .v2 => "#/definitions/"
  | .v3 => "#/components/schemas/"

/-- Whether a reference is the path to the definitions with some text for the key after it. -/
structure WritesOut (dialect : Dialect) (ref : String) (written : List Char) : Prop where
  text : ref.toList = (schemasNamespace dialect).toList ++ written
  whole : '/' ∉ written
  trimmed : Text.trim ref.toList = ref.toList

/-- Whether a slash or a tilde is escaped in a text. -/
def HasEscape (written : List Char) : Prop :=
  Text.occurs ['~', '1'] written = true ∨ Text.occurs ['~', '0'] written = true

variable {dialect : Dialect} {ref key : String} {written : List Char}

theorem segments?_of_toList {rest : List Char} (h : ref.toList = '#' :: '/' :: rest) :
    segments? ref = some (((Text.split '/' rest).filter (!·.isEmpty)).map
      fun cs => String.ofList (decode cs)) := by
  rw [segments?]
  split
  · rename_i heq
    rw [h] at heq
    cases heq
    rfl
  · rename_i hother
    exact absurd h (hother rest)

theorem exists_of_segments? {segments : List String} (h : segments? ref = some segments) :
    ∃ rest, ref.toList = '#' :: '/' :: rest := by
  unfold segments? at h
  split at h
  · exact ⟨_, ‹_›⟩
  · cases h

/-- What a reference is cut into that writes out the path. -/
theorem split_writesOut (dialect : Dialect) (h : '/' ∉ written) :
    ∃ rest, (schemasNamespace dialect).toList ++ written = '#' :: '/' :: rest ∧
      Text.split '/' rest = dialect.schemasPath.map String.toList ++ [written] := by
  cases dialect with
  | v2 =>
    refine ⟨"definitions".toList ++ '/' :: written, rfl, ?_⟩
    rw [Text.split_append (by decide), Text.split_of_not_mem h]
    rfl
  | v3 =>
    refine ⟨"components".toList ++ '/' :: ("schemas".toList ++ '/' :: written), rfl, ?_⟩
    rw [Text.split_append (by decide), Text.split_append (by decide), Text.split_of_not_mem h]
    rfl

/-- The text after the path is decoded to the key. -/
theorem key_of_writesOut (h : WritesOut dialect ref written)
    (hs : segments? ref = some (dialect.schemasPath ++ [key])) : key.toList = decode written := by
  obtain ⟨rest, htext, hsplit⟩ := split_writesOut dialect h.whole
  rw [segments?_of_toList (h.text.trans htext), hsplit, List.filter_append, List.map_append] at hs
  have hpath : (dialect.schemasPath.map String.toList).filter (!·.isEmpty) =
      dialect.schemasPath.map String.toList := by
    cases dialect <;> decide
  rw [hpath] at hs
  have hlast := (List.append_inj (Option.some.inj hs) (by simp)).2
  by_cases hempty : written = []
  · rw [hempty] at hlast
    cases hlast
  · have hkept : [written].filter (!·.isEmpty) = [written] := by
      simp [hempty]
    rw [hkept, List.map_singleton] at hlast
    rw [← (List.cons.inj hlast).1, String.toList_ofList]

/-- Without escapes of slashes and tildes only percent-decoding is left. -/
theorem decode_of_not_hasEscape (h : ¬ HasEscape written) :
    decode written = Text.Percent.decode written := by
  rw [HasEscape, not_or, Bool.not_eq_true, Bool.not_eq_true] at h
  rw [decode, Text.replace_of_not_occurs h.1, Text.replace_of_not_occurs h.2]

/-- A text with slashes and tildes put in place of their escapes. -/
def unescape (written : List Char) : List Char :=
  Text.replace ['~', '0'] ['~'] (Text.replace ['~', '1'] ['/'] written)

theorem not_mem_unescape {c : Char} (hc : c ∉ ['/', '~']) (h : c ∉ written) :
    c ∉ unescape written := by
  intro hmem
  rcases (Text.replaced_replace (by decide) _).mem_old hmem with hmem | hmem
  · exact hc (List.mem_cons_of_mem _ hmem)
  · rcases (Text.replaced_replace (by decide) _).mem_old hmem with hmem | hmem
    · exact hc (List.mem_singleton.mp hmem ▸ List.mem_cons_self)
    · exact h hmem

/-- A reference without percent escapes has the key in it, but for slashes and tildes. -/
theorem key_eq_unescape (h : WritesOut dialect ref written)
    (hs : segments? ref = some (dialect.schemasPath ++ [key])) (hpercent : '%' ∉ written) :
    key.toList = unescape written := by
  rw [key_of_writesOut h hs]
  exact Text.Percent.decode_of_not_mem (not_mem_unescape (by decide) hpercent)

/-- What is escaped stands in the unescaped text. -/
theorem mem_unescape_of_hasEscape (h : HasEscape written) :
    '/' ∈ unescape written ∨ '~' ∈ unescape written := by
  by_cases hslash : Text.occurs ['~', '1'] written = true
  · have hmem := Text.mem_replace_of_occurs (by decide) hslash (List.mem_singleton_self '/')
    exact .inl ((Text.replaced_replace (by decide) _).mem_new hmem (by decide))
  · have hnone : Text.occurs ['~', '1'] written = false := Bool.eq_false_iff.mpr hslash
    rw [unescape, Text.replace_of_not_occurs hnone]
    exact .inr (Text.mem_replace_of_occurs (by decide) (h.resolve_left hslash)
      (List.mem_singleton_self '~'))

/-- Escapes are written with digits, and unescaping drops these. -/
theorem countP_unescape_lt (h : HasEscape written) :
    (unescape written).countP Char.isAlphanum < written.countP Char.isAlphanum := by
  by_cases hslash : Text.occurs ['~', '1'] written = true
  · have hfirst : (Text.replace ['~', '1'] ['/'] written).countP Char.isAlphanum <
        written.countP Char.isAlphanum := Text.countP_replace_lt hslash (by decide)
    exact Nat.lt_of_le_of_lt
      ((Text.replaced_replace (by decide) _).countP_le (by decide)) hfirst
  · have hnone : Text.occurs ['~', '1'] written = false := Bool.eq_false_iff.mpr hslash
    rw [unescape, Text.replace_of_not_occurs hnone]
    exact Text.countP_replace_lt (h.resolve_left hslash) (by decide)

theorem unescape_cons {c : Char} {rest : List Char} (h : c ≠ '~') :
    unescape (c :: rest) = c :: unescape rest := by
  have hfirst (d : Char) (cs : List Char) : ¬ ['~', d].isPrefixOf (c :: cs) = true := by
    rw [List.isPrefixOf, Bool.and_eq_true, beq_iff_eq]
    exact fun hp => h hp.1.symm
  rw [unescape, Text.replace_cons (hfirst '1' rest), Text.replace_cons (hfirst '0' _)]
  rfl

theorem walk_of_foldl_get {keys : List String} {node : Node} {entries : Entries}
    (h : keys.foldl (fun node key => node.get key) node = .map entries) :
    walk node keys = .ok (.map entries) := by
  have hnull (keys : List String) :
      keys.foldl (fun node key => node.get key) Node.null = Node.null := by
    induction keys with
    | nil => rfl
    | cons key rest ih => exact ih
  induction keys generalizing node with
  | nil => exact congrArg _ h
  | cons key rest ih =>
    rw [List.foldl_cons] at h
    cases hfound : node.get? key with
    | none =>
      rw [Node.get, hfound, Option.getD_none, hnull] at h
      cases h
    | some next =>
      rw [Node.get, hfound, Option.getD_some] at h
      have hstep : step node key = .ok next := by
        cases node with
        | map found =>
          rw [Node.get?] at hfound
          rw [step, hfound]
        | _ => cases hfound
      rw [walk, hstep]
      exact ih h

/-- A reference with the segments of a definition's key stands for the definition. -/
theorem resolve_of_segments {document schema : Node}
    (hs : segments? ref = some (dialect.schemasPath ++ [key]))
    (h : Entries.get? key (dialect.schemas document) = some schema) :
    resolve document (.str ref) = .ok schema := by
  unfold Dialect.schemas at h
  dsimp only at h
  cases hnode : dialect.schemasPath.foldl (fun node key => node.get key) document with
  | map entries =>
    rw [hnode] at h
    have hlast : walk (.map entries) [key] = .ok schema := by
      rw [walk, step, show Entries.get? key entries = some schema from h]
      rfl
    have hwalk : walk document (dialect.schemasPath ++ [key]) = .ok schema := by
      rw [walk_append, walk_of_foldl_get hnode]
      exact hlast
    rw [resolve, hs]
    dsimp only
    rw [hwalk]
  | _ =>
    rw [hnode] at h
    cases h

end OpenApi.Reference
