import OpenApi.Proofs.Decoding

/-
The bytes of a text are read as that text, and no other bytes are.

A lead byte has the bits of a character that the bytes owed do not have.  The bounds of the first of
these keep out what could be written with fewer bytes, halves of surrogate pairs, and what lies
beyond the last character; within them, each character has its bytes and each such bytes are those
of a character (`next_encodeChar`, `cons_eq_of_next`).
-/
namespace OpenApi.Text.Utf8

/-- The bits, the number of bytes owed, and the bounds of the first of them. -/
theorem ofByte?_eq_some_iff {b bits owed least greatest : Nat} :
    Lead.ofByte? b = some ⟨bits, owed, least, greatest⟩ ↔
      (b < 0x80 ∧ bits = b ∧ owed = 0 ∧ least = 0x80 ∧ greatest = 0xBF) ∨
      (b = 0xC0 + bits ∧ 2 ≤ bits ∧ bits < 0x20 ∧ owed = 1 ∧ least = 0x80 ∧ greatest = 0xBF) ∨
      (b = 0xE0 + bits ∧ bits < 0x10 ∧ owed = 2 ∧ (least = if bits = 0 then 0xA0 else 0x80) ∧
        greatest = if bits = 0xD then 0x9F else 0xBF) ∨
      (b = 0xF0 + bits ∧ bits < 5 ∧ owed = 3 ∧ (least = if bits = 0 then 0x90 else 0x80) ∧
        greatest = if bits = 4 then 0x8F else 0xBF) := by
  unfold Lead.ofByte?
  split_ifs <;> simp only [Option.some.injEq, Lead.mk.injEq, false_iff] <;> omega

theorem tails_cons {owed least greatest bits n : Nat} (rest : List UInt8) (hleast : least ≤ n)
    (hgreatest : n ≤ greatest) (hn : n < 256) :
    tails (owed + 1) least greatest bits (UInt8.ofNat n :: rest) =
      tails owed 0x80 0xBF (bits * 64 + (n - 0x80)) rest := by
  have hbyte : (UInt8.ofNat n).toNat = n := by rw [UInt8.toNat_ofNat', Nat.mod_eq_of_lt hn]
  rw [tails, hbyte, if_pos ⟨hleast, hgreatest⟩]

theorem exists_of_tails {owed least greatest bits code : Nat} {bytes left : List UInt8}
    (h : tails (owed + 1) least greatest bits bytes = (some code, left)) :
    ∃ n rest, bytes = UInt8.ofNat n :: rest ∧ n < 256 ∧ least ≤ n ∧ n ≤ greatest ∧
      tails owed 0x80 0xBF (bits * 64 + (n - 0x80)) rest = (some code, left) := by
  cases bytes with
  | nil => cases h
  | cons b rest =>
    rw [tails] at h
    split at h
    · rename_i hrange
      exact ⟨b.toNat, rest, by rw [UInt8.ofNat_toNat], b.toNat_lt, hrange.1, hrange.2, h⟩
    · cases h

theorem next_eq {n bits owed least greatest : Nat} {rest left : List UInt8} {c : Char}
    (hn : n < 256) (hlead : Lead.ofByte? n = some ⟨bits, owed, least, greatest⟩)
    (htails : tails owed least greatest bits rest = (some c.toNat, left)) :
    next (UInt8.ofNat n) rest = (some c, left) := by
  have hbyte : (UInt8.ofNat n).toNat = n := by rw [UInt8.toNat_ofNat', Nat.mod_eq_of_lt hn]
  rw [next, hbyte, hlead]
  show ((tails owed least greatest bits rest).1.map Char.ofNat,
    (tails owed least greatest bits rest).2) = _
  rw [htails, Option.map_some, Char.ofNat_toNat]

/-- The bytes of a character are read as the character. -/
theorem next_encodeChar (c : Char) (rest : List UInt8) :
    ∃ b more, encodeChar c = b :: more ∧ next b (more ++ rest) = (some c, rest) := by
  have hvalid : c.toNat < 0xD800 ∨ (0xDFFF < c.toNat ∧ c.toNat < 0x110000) := c.valid
  unfold encodeChar
  dsimp only
  split_ifs with h₁ h₂ h₃
  · exact ⟨_, [], rfl, next_eq (by omega)
      (ofByte?_eq_some_iff.mpr (.inl ⟨h₁, rfl, rfl, rfl, rfl⟩)) rfl⟩
  · refine ⟨_, [_], rfl, next_eq (by omega)
      (ofByte?_eq_some_iff.mpr (.inr (.inl ⟨rfl, by omega, by omega, rfl, rfl, rfl⟩))) ?_⟩
    rw [List.singleton_append, tails_cons rest (by omega) (by omega) (by omega), tails_zero]
    exact Prod.ext (congrArg some (by omega)) rfl
  · refine ⟨_, [_, _], rfl, next_eq (by omega)
      (ofByte?_eq_some_iff.mpr (.inr (.inr (.inl ⟨rfl, by omega, rfl, rfl, rfl⟩)))) ?_⟩
    rw [List.cons_append, List.singleton_append,
      tails_cons _ (by split <;> omega) (by split <;> omega) (by omega),
      tails_cons rest (by omega) (by omega) (by omega), tails_zero]
    exact Prod.ext (congrArg some (by omega)) rfl
  · refine ⟨_, [_, _, _], rfl, next_eq (by omega)
      (ofByte?_eq_some_iff.mpr (.inr (.inr (.inr ⟨rfl, by omega, rfl, rfl, rfl⟩)))) ?_⟩
    rw [List.cons_append, List.cons_append, List.singleton_append,
      tails_cons _ (by split <;> omega) (by split <;> omega) (by omega),
      tails_cons _ (by omega) (by omega) (by omega),
      tails_cons rest (by omega) (by omega) (by omega), tails_zero]
    exact Prod.ext (congrArg some (by omega)) rfl

theorem encodeChar_ofNat {n : Nat} (h : n.isValidChar) : encodeChar (Char.ofNat n) =
    if n < 0x80 then [UInt8.ofNat n]
    else if n < 0x800 then [UInt8.ofNat (0xC0 + n / 64), UInt8.ofNat (0x80 + n / 1 % 64)]
    else if n < 0x10000 then
      [UInt8.ofNat (0xE0 + n / 4096), UInt8.ofNat (0x80 + n / 64 % 64),
        UInt8.ofNat (0x80 + n / 1 % 64)]
    else
      [UInt8.ofNat (0xF0 + n / 262144), UInt8.ofNat (0x80 + n / 4096 % 64),
        UInt8.ofNat (0x80 + n / 64 % 64), UInt8.ofNat (0x80 + n / 1 % 64)] := by
  rw [encodeChar, toNat_ofNat h]

theorem next_cases {b : UInt8} {rest left : List UInt8} {c : Char}
    (h : next b rest = (some c, left)) : ∃ bits owed least greatest code,
      Lead.ofByte? b.toNat = some ⟨bits, owed, least, greatest⟩ ∧
      tails owed least greatest bits rest = (some code, left) ∧ c = Char.ofNat code := by
  unfold next at h
  split at h
  · cases h
  · rename_i lead hlead
    obtain ⟨bits, owed, least, greatest⟩ := lead
    rcases htails : tails owed least greatest bits rest with ⟨code, left'⟩
    have h : ((tails owed least greatest bits rest).1.map Char.ofNat,
      (tails owed least greatest bits rest).2) = (some c, left) := h
    rw [htails] at h
    cases code with
    | none => cases h
    | some code =>
      cases h
      exact ⟨bits, owed, least, greatest, code, hlead, htails, rfl⟩

/-- What is read as a character are its bytes. -/
theorem cons_eq_of_next {b : UInt8} {rest left : List UInt8} {c : Char}
    (h : next b rest = (some c, left)) : b :: rest = encodeChar c ++ left := by
  obtain ⟨bits, owed, least, greatest, code, hlead, htails, rfl⟩ := next_cases h
  obtain ⟨n, hn⟩ : ∃ n, n = b.toNat := ⟨_, rfl⟩
  rw [← UInt8.ofNat_toNat (x := b), ← hn]
  rw [← hn] at hlead
  rcases ofByte?_eq_some_iff.mp hlead with ⟨hb, rfl, rfl, rfl, rfl⟩ |
    ⟨hb, hlow, hhigh, rfl, rfl, rfl⟩ | ⟨hb, hhigh, rfl, hleast, hgreatest⟩ |
    ⟨hb, hhigh, rfl, hleast, hgreatest⟩
  · rw [tails_zero] at htails
    cases htails
    rw [encodeChar_ofNat (.inl (by omega)), if_pos hb]
    rfl
  · obtain ⟨n₁, more, rfl, _, _, _, htails⟩ := exists_of_tails htails
    simp only [tails_zero, Prod.mk.injEq, Option.some.injEq] at htails
    obtain ⟨rfl, rfl⟩ := htails
    rw [encodeChar_ofNat (.inl (by omega)), if_neg (by omega), if_pos (by omega)]
    simp only [List.cons_append, List.nil_append, List.cons.injEq, and_true]
    exact ⟨congrArg UInt8.ofNat (by omega), congrArg UInt8.ofNat (by omega)⟩
  · obtain ⟨n₁, more, rfl, _, _, _, htails⟩ := exists_of_tails htails
    obtain ⟨n₂, more, rfl, _, _, _, htails⟩ := exists_of_tails htails
    simp only [tails_zero, Prod.mk.injEq, Option.some.injEq] at htails
    obtain ⟨rfl, rfl⟩ := htails
    have hrange : 0x80 ≤ n₁ ∧ n₁ ≤ 0xBF :=
      ⟨by split at hleast <;> omega, by split at hgreatest <;> omega⟩
    have hvalid : ((bits * 64 + (n₁ - 0x80)) * 64 + (n₂ - 0x80)).isValidChar := by
      unfold Nat.isValidChar
      split at hgreatest <;> omega
    have hlarge : 0x800 ≤ (bits * 64 + (n₁ - 0x80)) * 64 + (n₂ - 0x80) := by
      split at hleast <;> omega
    rw [encodeChar_ofNat hvalid, if_neg (by omega), if_neg (by omega), if_pos (by omega)]
    simp only [List.cons_append, List.nil_append, List.cons.injEq, and_true]
    exact ⟨congrArg UInt8.ofNat (by omega), congrArg UInt8.ofNat (by omega),
      congrArg UInt8.ofNat (by omega)⟩
  · obtain ⟨n₁, more, rfl, _, _, _, htails⟩ := exists_of_tails htails
    obtain ⟨n₂, more, rfl, _, _, _, htails⟩ := exists_of_tails htails
    obtain ⟨n₃, more, rfl, _, _, _, htails⟩ := exists_of_tails htails
    simp only [tails_zero, Prod.mk.injEq, Option.some.injEq] at htails
    obtain ⟨rfl, rfl⟩ := htails
    have hrange : 0x80 ≤ n₁ ∧ n₁ ≤ 0xBF :=
      ⟨by split at hleast <;> omega, by split at hgreatest <;> omega⟩
    have hlarge : 0x10000 ≤ ((bits * 64 + (n₁ - 0x80)) * 64 + (n₂ - 0x80)) * 64 + (n₃ - 0x80) := by
      split at hleast <;> omega
    have hsmall : ((bits * 64 + (n₁ - 0x80)) * 64 + (n₂ - 0x80)) * 64 + (n₃ - 0x80) < 0x110000 := by
      split at hgreatest <;> omega
    rw [encodeChar_ofNat (.inr (by omega)), if_neg (by omega), if_neg (by omega),
      if_neg (by omega)]
    simp only [List.cons_append, List.nil_append, List.cons.injEq, and_true]
    exact ⟨congrArg UInt8.ofNat (by omega), congrArg UInt8.ofNat (by omega),
      congrArg UInt8.ofNat (by omega), congrArg UInt8.ofNat (by omega)⟩

/-- The bytes of a text are read as the text. -/
theorem decode?_encode (cs : List Char) : decode? (encode cs) = some cs := by
  induction cs with
  | nil =>
    rw [encode, List.flatMap_nil, decode?, pieces]
    rfl
  | cons c cs ih =>
    obtain ⟨b, more, hbytes, hnext⟩ := next_encodeChar c (encode cs)
    rw [decode?] at ih ⊢
    rw [encode, List.flatMap_cons, hbytes, List.cons_append, pieces]
    show ((next b (more ++ encode cs)).1 :: pieces (next b (more ++ encode cs)).2).mapM id = _
    rw [hnext, List.mapM_cons, ih]
    rfl

/-- Bytes that are read as a text are those of the text. -/
theorem eq_encode_of_decode? {bytes : List UInt8} {cs : List Char} (h : decode? bytes = some cs) :
    bytes = encode cs := by
  unfold decode? at h
  fun_induction pieces bytes generalizing cs with
  | case1 =>
    cases h
    rfl
  | case2 b rest ih =>
    rw [List.mapM_cons] at h
    rcases hnext : next b rest with ⟨found, left⟩
    rw [hnext] at h ih
    cases found with
    | none => cases h
    | some c =>
      cases hrest : (pieces left).mapM id with
      | none =>
        rw [hrest] at h
        cases h
      | some more =>
        rw [hrest] at h
        cases h
        exact (cons_eq_of_next hnext).trans (congrArg _ (ih hrest))

end OpenApi.Text.Utf8
