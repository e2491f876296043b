import OpenApi.Proofs.Decoding
import OpenApi.Proofs.Migration
import OpenApi.Proofs.ReferenceNames

/-
References to definitions before and after the definitions have moved.

The two texts have the last segment in common, and all that is read from a reference is read from
this segment: the key that it leads to, the name that a discriminator looks for, and the type in
generated code.  A type token is read by rules that know the namespaces of the dialect, so for other
tokens it has to be shown that no namespace stands in them.  A number sign begins every namespace,
and none can come from an escape if there is no percent sign either.
-/
namespace OpenApi

/-! ### Texts without marks -/

namespace Migration

variable {cs ds : List Char}

theorem isUnmarked_iff : isUnmarked cs = true ↔ '#' ∉ cs ∧ '%' ∉ cs := by
  simp [isUnmarked]

theorem isUnmarked_of_subset (h : isUnmarked cs = true) (hsub : ds ⊆ cs) :
    isUnmarked ds = true := by
  rw [isUnmarked_iff] at h ⊢
  exact ⟨fun hd => h.1 (hsub hd), fun hd => h.2 (hsub hd)⟩

end Migration

namespace Text

theorem dropRightWhile_subset (p : Char → Bool) (cs : List Char) : dropRightWhile p cs ⊆ cs :=
  fun _ hc => List.mem_reverse.mp
    ((List.dropWhile_sublist p).subset (List.mem_reverse.mp hc))

theorem trim_subset (cs : List Char) : trim cs ⊆ cs := fun _ hc =>
  (List.dropWhile_sublist isBlank).subset (dropRightWhile_subset _ _ hc)

/-- Nothing before a character that is kept is dropped from the end. -/
theorem dropRightWhile_append_cons {p : Char → Bool} {c : Char} (hc : ¬ p c = true)
    (front cs : List Char) :
    dropRightWhile p (front ++ c :: cs) = front ++ c :: dropRightWhile p cs := by
  have hstay : (front ++ [c]).reverse.dropWhile p = (front ++ [c]).reverse := by
    rw [List.reverse_append]
    exact List.dropWhile_cons_of_neg hc
  rw [dropRightWhile, List.append_cons, List.reverse_append, List.dropWhile_append, hstay,
    dropRightWhile]
  by_cases hempty : (cs.reverse.dropWhile p).isEmpty = true
  · rw [if_pos hempty, List.isEmpty_iff.mp hempty, List.reverse_reverse, List.reverse_nil]
  · rw [if_neg hempty, List.reverse_append, List.reverse_reverse, ← List.append_cons]

end Text

namespace TypeUse

open Migration

variable {cs outer inner : List Char} {dialect : Dialect}

theorem beforeClosing?_subset (h : beforeClosing? cs = some inner) : inner ⊆ cs := by
  unfold beforeClosing? at h
  intro c hc
  split at h
  · rename_i rest heq
    cases h
    rw [← List.mem_reverse, heq]
    exact List.mem_cons_of_mem _ (List.mem_reverse.mp hc)
  · rename_i rest heq
    cases h
    rw [← List.mem_reverse, heq]
    exact List.mem_cons_of_mem _ (List.mem_cons_of_mem _ (List.mem_reverse.mp hc))
  · cases h

theorem brackets?_subset (h : brackets? cs = some (outer, inner)) : outer ⊆ cs ∧ inner ⊆ cs := by
  unfold brackets? at h
  split at h
  · cases h
  · rename_i c rest heq
    have hrest : rest ⊆ cs := fun d hd => (List.dropWhile_sublist _).subset
      (heq ▸ List.mem_cons_of_mem c hd)
    split at h
    · cases h
    · rename_i found hfound
      dsimp only at h
      split at h
      · cases h
      · cases h
        exact ⟨(List.takeWhile_sublist _).subset, List.Subset.trans (beforeClosing?_subset hfound) hrest⟩

/-- A token without marks lies in no namespace. -/
theorem plainToken_of_isUnmarked (h : isUnmarked cs = true) :
    plainToken dialect cs = Text.trim cs := by
  have htrim := isUnmarked_iff.mp (isUnmarked_of_subset h (Text.trim_subset cs))
  have houtside : ∀ start ∈ dialect.namespaces, ¬ start.toList <+: Text.trim cs :=
    fun start hs hp => htrim.1 (hp.subset (mem_namespaces_mark hs))
  rw [plainToken, Name.withoutNamespaces, Name.foldl_dropStart_of_not_prefix houtside,
    Text.Percent.decode_of_not_mem htrim.2]

/-- Plain tokens are used alike in all dialects if their parts are. -/
theorem ofPlain_congr {dialect' : Dialect}
    (h : ∀ outer inner, brackets? cs = some (outer, inner) →
      ofToken dialect outer = ofToken dialect' outer ∧
        ofToken dialect inner = ofToken dialect' inner) :
    ofPlain dialect cs = ofPlain dialect' cs := by
  unfold ofPlain
  split
  · rename_i outer inner hbrackets
    rw [(h outer inner hbrackets).1, (h outer inner hbrackets).2]
  · rfl

/-- The dialect makes no difference to a token without marks. -/
theorem ofToken_of_isUnmarked (dialect' : Dialect) (h : isUnmarked cs = true) :
    ofToken dialect cs = ofToken dialect' cs := by
  induction hn : cs.length using Nat.strongRecOn generalizing cs with
  | ind n ih =>
    cases hprimitive : Dialect.primitive? (String.ofList cs) with
    | some meaning => rw [ofToken_of_primitive hprimitive, ofToken_of_primitive hprimitive]
    | none =>
      rw [ofToken_of_not_primitive hprimitive, ofToken_of_not_primitive hprimitive,
        plainToken_of_isUnmarked h, plainToken_of_isUnmarked h]
      refine ofPlain_congr fun outer inner hbrackets => ?_
      have hsub := brackets?_subset hbrackets
      have hlen := length_brackets?_lt hbrackets
      have htrim := Text.length_trim_le cs
      exact ⟨ih outer.length (by omega)
          (isUnmarked_of_subset h (List.Subset.trans hsub.1 (Text.trim_subset cs))) rfl,
        ih inner.length (by omega)
          (isUnmarked_of_subset h (List.Subset.trans hsub.2 (Text.trim_subset cs))) rfl⟩

theorem ofPlain_of_isUnmarked (dialect' : Dialect) (h : isUnmarked cs = true) :
    ofPlain dialect cs = ofPlain dialect' cs :=
  ofPlain_congr fun _ _ hbrackets =>
    ⟨ofToken_of_isUnmarked dialect' (isUnmarked_of_subset h (brackets?_subset hbrackets).1),
      ofToken_of_isUnmarked dialect' (isUnmarked_of_subset h (brackets?_subset hbrackets).2)⟩

theorem ofText_of_isUnmarked (dialect' : Dialect) {text : String}
    (h : isUnmarked text.toList = true) (format : Node) :
    ofText dialect text format = ofText dialect' text format := by
  rw [ofText, ofText, ofToken_of_isUnmarked dialect' h]

end TypeUse

/-! ### References -/

namespace Reference

/-- Whether a reference is the path to the definitions and one segment. -/
structure Names (dialect : Dialect) (ref : String) (segment : List Char) : Prop where
  text : ref.toList = (schemasNamespace dialect).toList ++ segment
  whole : '/' ∉ segment
  nonempty : segment ≠ []

variable {dialect : Dialect} {ref : String} {segment : List Char}

/-- A reference to a definition and the reference that takes its place share the segment. -/
theorem exists_names_of_isLocal (h : Migration.isLocal ref = true) :
    ∃ segment, Names .v2 ref segment ∧ Names .v3 (Migration.movedText ref) segment := by
  unfold Migration.isLocal at h
  dsimp only at h
  simp only [Bool.and_eq_true, Bool.not_eq_true', List.isEmpty_eq_false_iff, ne_eq,
    List.contains_eq_mem, decide_eq_false_iff_not] at h
  obtain ⟨⟨hstart, hnonempty⟩, hwhole⟩ := h
  have hprefix := List.isPrefixOf_iff_prefix.mp hstart
  refine ⟨_, ⟨(List.prefix_iff_eq_append.mp hprefix).symm, hwhole, hnonempty⟩, ?_, hwhole,
    hnonempty⟩
  rw [Migration.movedText, if_pos hprefix, String.toList_append, String.toList_ofList]
  rfl

theorem Names.ref_unique {other : String} (h : Names dialect ref segment)
    (h' : Names dialect other segment) : ref = other :=
  String.toList_inj.mp (h.text.trans h'.text.symm)

/-- References to definitions stay different from each other. -/
theorem movedText_inj {other : String} (h : Migration.isLocal ref = true)
    (h' : Migration.isLocal other = true) :
    Migration.movedText ref = Migration.movedText other ↔ ref = other := by
  refine ⟨fun heq => ?_, congrArg _⟩
  obtain ⟨segment, hold, hnew⟩ := exists_names_of_isLocal h
  obtain ⟨segment', hold', hnew'⟩ := exists_names_of_isLocal h'
  have hsegment : segment = segment' := by
    have htext := hnew.text
    rw [heq, hnew'.text] at htext
    exact (List.append_cancel_left htext).symm
  subst hsegment
  exact hold.ref_unique hold'

theorem Names.trim_eq (h : Names dialect ref segment) : Text.trim ref.toList =
    (schemasNamespace dialect).toList ++ Text.dropRightWhile Text.isBlank segment := by
  obtain ⟨front, hfront⟩ : ∃ front, (schemasNamespace dialect).toList = '#' :: front ++ ['/'] := by
    cases dialect with
    | v2 => exact ⟨"/definitions".toList, rfl⟩
    | v3 => exact ⟨"/components/schemas".toList, rfl⟩
  have hslash : ¬ Text.isBlank '/' = true := by decide
  have hstart : (ref.toList).dropWhile Text.isBlank = ref.toList := by
    rw [h.text, hfront]
    exact List.dropWhile_cons_of_neg (by decide)
  rw [Text.trim, Text.trimBy, hstart, h.text, hfront, List.append_assoc, List.append_assoc]
  exact Text.dropRightWhile_append_cons hslash ('#' :: front) segment

theorem Names.withoutNamespaces_eq (h : Names dialect ref segment) :
    Name.withoutNamespaces dialect.namespaces ref.toList =
      Text.dropRightWhile Text.isBlank segment :=
  TypeUse.withoutNamespaces_of_trim h.trim_eq fun hmem =>
    h.whole (Text.dropRightWhile_subset _ _ hmem)

theorem Names.segments?_eq (h : Names dialect ref segment) :
    segments? ref = some (dialect.schemasPath ++ [String.ofList (decode segment)]) := by
  obtain ⟨rest, htext, hsplit⟩ := split_writesOut dialect h.whole
  have hpath : (dialect.schemasPath.map String.toList).filter (!·.isEmpty) =
      dialect.schemasPath.map String.toList := by
    cases dialect <;> decide
  have hkept : [segment].filter (!·.isEmpty) = [segment] := by
    simp [h.nonempty]
  have hdecoded : (dialect.schemasPath.map String.toList).map
      (fun cs => String.ofList (decode cs)) = dialect.schemasPath := by
    cases dialect <;> decide +kernel
  rw [segments?_of_toList (h.text.trans htext), hsplit, List.filter_append, hpath, hkept,
    List.map_append, hdecoded]
  rfl

/-- A mark that is not in the key was not in the text for it either. -/
theorem not_mem_decode_of_not_mem {c : Char} (hc : c.toNat < 0x80) (hnull : c ≠ '\x00')
    (hhex : Text.Percent.hexValue? c = none) (hfree : c ∉ ['~', '0', '1', '/'])
    (h : c ∉ decode segment) :
    c ∉ Text.Percent.decode (Text.dropRightWhile Text.isBlank segment) := by
  have hslash : c ∉ ['~', '1', '/'] := fun hmem => hfree (by simp at hmem ⊢; tauto)
  have htilde : c ∉ ['~', '0', '~'] := fun hmem => hfree (by simp at hmem ⊢; tauto)
  rw [Text.Percent.mem_decode_iff hc hnull hhex]
  intro hwrites
  have hwhole := Text.Percent.writes_of_dropRightWhile
    (fun _ hd => Text.Percent.hexValue?_of_isBlank hd) hwrites
  rw [Text.Percent.writes_iff_of_replaced (by decide) (by decide) (by decide) hslash
      (Text.replaced_replace (by decide) segment),
    Text.Percent.writes_iff_of_replaced (by decide) (by decide) (by decide) htilde
      (Text.replaced_replace (by decide) _), ← Text.Percent.mem_decode_iff hc hnull hhex] at hwhole
  exact h hwhole

theorem isUnmarked_of_decode (h : Migration.isUnmarked (decode segment) = true) :
    Migration.isUnmarked
      (Text.Percent.decode (Text.dropRightWhile Text.isBlank segment)) = true := by
  rw [Migration.isUnmarked_iff] at h ⊢
  exact ⟨not_mem_decode_of_not_mem (by decide) (by decide) (by decide) (by decide) h.1,
    not_mem_decode_of_not_mem (by decide) (by decide) (by decide) (by decide) h.2⟩

/-- The type that a reference is read as, if its key has no marks, is read from the segment. -/
theorem Names.ofToken_eq {dialect' : Dialect} {other : String} (h : Names dialect ref segment)
    (h' : Names dialect' other segment) (hkey : Migration.isUnmarked (decode segment) = true) :
    TypeUse.ofToken dialect ref.toList = TypeUse.ofToken dialect' other.toList := by
  have hplain {dialect : Dialect} {ref : String} (h : Names dialect ref segment) :
      TypeUse.ofToken dialect ref.toList = TypeUse.ofPlain dialect
        (Text.Percent.decode (Text.dropRightWhile Text.isBlank segment)) := by
    obtain ⟨rest, hrest⟩ := exists_of_segments? h.segments?_eq
    rw [TypeUse.ofToken_of_reference hrest, TypeUse.plainToken, h.withoutNamespaces_eq]
  rw [hplain h, hplain h', TypeUse.ofPlain_of_isUnmarked dialect' (isUnmarked_of_decode hkey)]

end Reference
end OpenApi
