import OpenApi.Text.Percent
import OpenApi.Text.Replace

/-
Texts that decoding leaves alone, and what replacing does to the others.

A reference is split, its pieces have two escapes replaced, and what comes out is percent-decoded.
Each of these does nothing to a text without the character it looks for.  Where an escape does
occur, its replacement is found in the result, and the result has fewer of the characters that the
escape is written with.
-/
namespace OpenApi.Text

/-! ### Characters -/

/-- A statement about each of finitely many characters, checked one by one; characters being finite
in number, deciding it otherwise may go through all of them. -/
theorem forall_mem_of_all {P : Char → Prop} [DecidablePred P] {cs : List Char}
    (h : cs.all (P ·) = true) : ∀ c ∈ cs, P c :=
  fun c hc => of_decide_eq_true (List.all_eq_true.mp h c hc)

/-! ### Scanning -/

/-- A scan takes the characters of its class and stops at the first other one. -/
theorem takeWhile_dropWhile_append {p : Char → Bool} {front rest : List Char}
    (h : ∀ c ∈ front, p c = true) (stops : ∀ c ∈ rest.head?, p c = false) :
    (front ++ rest).takeWhile p = front ∧ (front ++ rest).dropWhile p = rest := by
  rw [List.takeWhile_append_of_pos h, List.dropWhile_append_of_pos h]
  cases rest with
  | nil => exact ⟨List.append_nil _, rfl⟩
  | cons c rest =>
    have hc : ¬ p c = true := by simp [stops c rfl]
    rw [List.takeWhile_cons_of_neg hc, List.dropWhile_cons_of_neg hc]
    exact ⟨List.append_nil _, rfl⟩

/-! ### Splitting -/

theorem split_of_not_mem {separator : Char} {cs : List Char} (h : separator ∉ cs) :
    split separator cs = [cs] := by
  induction cs with
  | nil => rfl
  | cons c rest ih =>
    have hc : ¬ c = separator := fun e => h (e ▸ List.mem_cons_self)
    rw [split, if_neg hc, ih fun hr => h (List.mem_cons_of_mem c hr)]

theorem split_append {separator : Char} {piece rest : List Char} (h : separator ∉ piece) :
    split separator (piece ++ separator :: rest) = piece :: split separator rest := by
  induction piece with
  | nil => rw [List.nil_append, split, if_pos rfl]
  | cons c piece ih =>
    have hc : ¬ c = separator := fun e => h (e ▸ List.mem_cons_self)
    rw [List.cons_append, split, if_neg hc, ih fun hr => h (List.mem_cons_of_mem c hr)]

/-- Pieces without the separator are found again between the separators. -/
theorem split_join {separator : Char} {pieces : List (List Char)} (hne : pieces ≠ [])
    (h : ∀ piece ∈ pieces, separator ∉ piece) :
    split separator (join [separator] pieces) = pieces := by
  induction pieces with
  | nil => exact absurd rfl hne
  | cons piece rest ih =>
    rw [List.forall_mem_cons] at h
    cases rest with
    | nil => exact split_of_not_mem h.1
    | cons next more =>
      rw [join, List.append_assoc, List.singleton_append, split_append h.1,
        ih (List.cons_ne_nil next more) h.2]
      exact List.cons_ne_nil next more

/-! ### Replacing -/

/-- What replacing makes of a text: some occurrences are exchanged, all else is kept. -/
inductive Replaced (old new : List Char) : List Char → List Char → Prop where
  | nil : Replaced old new [] []
  | found {cs ds : List Char} (rest : Replaced old new cs ds) :
      Replaced old new (old ++ cs) (new ++ ds)
  | kept {c : Char} {cs ds : List Char} (rest : Replaced old new cs ds) :
      Replaced old new (c :: cs) (c :: ds)

section
variable {old new cs : List Char}

theorem replaceFrom_append (skipped : List Char) :
    replaceFrom old new skipped.length (skipped ++ cs) = replace old new cs := by
  induction skipped with
  | nil => rfl
  | cons c skipped ih => exact ih

theorem replace_append (h : old ≠ []) :
    replace old new (old ++ cs) = new ++ replace old new cs := by
  cases old with
  | nil => exact absurd rfl h
  | cons o old =>
    have hfirst : (o :: old).isPrefixOf (o :: (old ++ cs)) = true :=
      List.isPrefixOf_iff_prefix.mpr (List.prefix_append (o :: old) cs)
    rw [List.cons_append, replace, replaceFrom, if_pos hfirst]
    exact congrArg (new ++ ·) (replaceFrom_append old)

theorem replace_cons {c : Char} (h : ¬ old.isPrefixOf (c :: cs) = true) :
    replace old new (c :: cs) = c :: replace old new cs := by
  rw [replace, replaceFrom, if_neg h]
  rfl

/-- Nothing is replaced in a piece that lacks the first character of what is looked for. -/
theorem replace_append_of_not_mem {first : Char} {piece : List Char} (h : first ∉ piece) :
    replace (first :: old) new (piece ++ cs) = piece ++ replace (first :: old) new cs := by
  induction piece with
  | nil => rfl
  | cons c piece ih =>
    rw [List.mem_cons, not_or] at h
    have hc : ¬ (first :: old).isPrefixOf (c :: (piece ++ cs)) = true := by
      rw [List.isPrefixOf, Bool.and_eq_true, beq_iff_eq]
      exact fun hp => h.1 hp.1
    rw [List.cons_append, replace_cons hc, ih h.2, List.cons_append]

/-- A text that is written character by character is replaced character by character, if no piece
goes on into the next one. -/
theorem replace_flatMap {written read : Char → List Char}
    (h : ∀ c rest, replace old new (written c ++ rest) = read c ++ replace old new rest)
    (cs : List Char) : replace old new (cs.flatMap written) = cs.flatMap read := by
  induction cs with
  | nil => rfl
  | cons c rest ih => rw [List.flatMap_cons, h, ih, List.flatMap_cons]

theorem replaced_replace (h : old ≠ []) (cs : List Char) :
    Replaced old new cs (replace old new cs) := by
  induction hn : cs.length using Nat.strongRecOn generalizing cs with
  | ind n ih =>
    cases cs with
    | nil => exact .nil
    | cons c rest =>
      by_cases hfirst : old.isPrefixOf (c :: rest) = true
      · obtain ⟨tail, htail⟩ := List.isPrefixOf_iff_prefix.mp hfirst
        have hpos := List.length_pos_iff.mpr h
        have hlen := congrArg List.length htail
        rw [List.length_append] at hlen
        rw [← htail, replace_append h]
        exact .found (ih tail.length (by omega) tail rfl)
      · rw [replace_cons hfirst]
        rw [List.length_cons] at hn
        exact .kept (ih rest.length (by omega) rest rfl)

theorem replace_of_not_occurs (h : occurs old cs = false) : replace old new cs = cs := by
  induction cs with
  | nil => rfl
  | cons c rest ih =>
    rw [occurs, Bool.or_eq_false_iff] at h
    rw [replace_cons (by rw [h.1]; exact Bool.false_ne_true), ih h.2]

section
variable {ds : List Char} {x : Char}

theorem Replaced.mem_old (h : Replaced old new cs ds) (hx : x ∈ ds) : x ∈ new ∨ x ∈ cs := by
  induction h with
  | nil => cases hx
  | found _ ih =>
    rcases List.mem_append.mp hx with hx | hx
    · exact .inl hx
    · exact (ih hx).imp id (List.mem_append_right _)
  | kept _ ih =>
    rcases List.mem_cons.mp hx with rfl | hx
    · exact .inr List.mem_cons_self
    · exact (ih hx).imp id (List.mem_cons_of_mem _)

theorem Replaced.mem_new (h : Replaced old new cs ds) (hx : x ∈ cs) (hold : x ∉ old) : x ∈ ds := by
  induction h with
  | nil => cases hx
  | found _ ih =>
    rcases List.mem_append.mp hx with hx | hx
    · exact absurd hx hold
    · exact List.mem_append_right _ (ih hx)
  | kept _ ih =>
    rcases List.mem_cons.mp hx with rfl | hx
    · exact List.mem_cons_self
    · exact List.mem_cons_of_mem _ (ih hx)

theorem Replaced.countP_le {p : Char → Bool} (h : Replaced old new cs ds)
    (hp : new.countP p ≤ old.countP p) : ds.countP p ≤ cs.countP p := by
  induction h with
  | nil => exact Nat.le_refl _
  | found _ ih =>
    rw [List.countP_append, List.countP_append]
    omega
  | kept _ ih =>
    rw [List.countP_cons, List.countP_cons]
    omega

end

theorem occurs_cases (new : List Char) (ho : old ≠ []) (h : occurs old cs = true) :
    ∃ front back, cs = front ++ old ++ back ∧
      replace old new cs = front ++ new ++ replace old new back := by
  induction cs with
  | nil =>
    rw [occurs, List.isEmpty_iff] at h
    exact absurd h ho
  | cons c rest ih =>
    by_cases hfirst : old.isPrefixOf (c :: rest) = true
    · obtain ⟨back, hback⟩ := List.isPrefixOf_iff_prefix.mp hfirst
      refine ⟨[], back, hback.symm, ?_⟩
      rw [← hback, replace_append ho]
      rfl
    · rw [occurs, Bool.or_eq_true] at h
      obtain ⟨front, back, heq, hreplace⟩ := ih (h.resolve_left hfirst)
      refine ⟨c :: front, back, by rw [heq]; rfl, ?_⟩
      rw [replace_cons hfirst, hreplace]
      rfl

theorem mem_replace_of_occurs {x : Char} (ho : old ≠ []) (h : occurs old cs = true) (hx : x ∈ new) :
    x ∈ replace old new cs := by
  obtain ⟨front, back, _, heq⟩ := occurs_cases new ho h
  rw [heq]
  exact List.mem_append_left _ (List.mem_append_right _ hx)

theorem countP_replace_lt {p : Char → Bool} (h : occurs old cs = true)
    (hp : new.countP p < old.countP p) : (replace old new cs).countP p < cs.countP p := by
  have ho : old ≠ [] := by
    rintro rfl
    exact absurd hp (Nat.not_lt_zero _)
  obtain ⟨front, back, heq, hreplace⟩ := occurs_cases new ho h
  have hback := (replaced_replace ho back).countP_le (p := p) (Nat.le_of_lt hp)
  rw [hreplace, heq]
  simp only [List.countP_append]
  omega

end

/-! ### Percent-decoding -/

theorem Utf8.decodeLossy_ascii {cs : List Char} (h : ∀ c ∈ cs, c.toNat < 128) :
    Utf8.decodeLossy (cs.map fun c => UInt8.ofNat c.toNat) = cs := by
  induction cs with
  | nil => rw [List.map_nil, Utf8.decodeLossy, Utf8.pieces, List.map_nil]
  | cons c rest ih =>
    rw [List.forall_mem_cons] at h
    have hbyte : (UInt8.ofNat c.toNat).toNat = c.toNat := by
      rw [UInt8.toNat_ofNat', Nat.mod_eq_of_lt (by omega)]
    have hlead : Utf8.Lead.ofByte? c.toNat = some ⟨c.toNat, 0, 0x80, 0xBF⟩ := by
      rw [Utf8.Lead.ofByte?, if_pos h.1]
    have hnext (left : List UInt8) : Utf8.next (UInt8.ofNat c.toNat) left = (some c, left) := by
      rw [Utf8.next, hbyte, hlead]
      show ((some (Char.ofNat c.toNat) : Option Char), left) = (some c, left)
      rw [Char.ofNat_toNat]
    have hrest := ih h.2
    rw [Utf8.decodeLossy] at hrest ⊢
    rw [List.map_cons, Utf8.pieces, hnext, List.map_cons, hrest]
    rfl

namespace Percent

theorem bytes_of_not_mem {cs : List Char} (h : '%' ∉ cs) :
    bytes cs = cs.map fun c => UInt8.ofNat c.toNat := by
  induction cs with
  | nil => rfl
  | cons c rest ih =>
    have hc : c ≠ '%' := fun e => h (e ▸ List.mem_cons_self)
    rw [bytes, ih fun hr => h (List.mem_cons_of_mem c hr), List.map_cons]
    intro high low tail heq _
    exact hc heq

theorem decodeLossy_bytes_reverse {pending : List Char} (hp : '%' ∉ pending)
    (ha : ∀ c ∈ pending, c.toNat < 128) :
    Utf8.decodeLossy (bytes pending.reverse) = pending.reverse := by
  rw [bytes_of_not_mem fun hr => hp (List.mem_reverse.mp hr)]
  exact Utf8.decodeLossy_ascii fun c hc => ha c (List.mem_reverse.mp hc)

theorem decodeFrom_of_not_mem {pending cs : List Char} (hp : '%' ∉ pending)
    (ha : ∀ c ∈ pending, c.toNat < 128) (h : '%' ∉ cs) :
    decodeFrom pending cs = pending.reverse ++ cs := by
  induction cs generalizing pending with
  | nil => rw [decodeFrom, decodeLossy_bytes_reverse hp ha, List.append_nil]
  | cons c rest ih =>
    have hrest : '%' ∉ rest := fun hr => h (List.mem_cons_of_mem c hr)
    rw [decodeFrom]
    by_cases hascii : isAscii c = true
    · have hpending : '%' ∉ c :: pending := by
        intro hmem
        rcases List.mem_cons.mp hmem with rfl | hmem
        · exact h List.mem_cons_self
        · exact hp hmem
      have hall : ∀ d ∈ c :: pending, d.toNat < 128 :=
        List.forall_mem_cons.mpr ⟨of_decide_eq_true hascii, ha⟩
      rw [if_pos hascii, ih hpending hall hrest, List.reverse_cons, List.append_assoc]
      rfl
    · rw [if_neg hascii, decodeLossy_bytes_reverse hp ha,
        ih List.not_mem_nil (fun _ hd => absurd hd List.not_mem_nil) hrest]
      rfl

/-- A text without a percent sign is decoded to itself. -/
theorem decode_of_not_mem {cs : List Char} (h : '%' ∉ cs) : decode cs = cs :=
  decodeFrom_of_not_mem List.not_mem_nil (fun _ hd => absurd hd List.not_mem_nil) h

end Percent
end OpenApi.Text
