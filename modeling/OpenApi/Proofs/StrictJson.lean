import OpenApi.Proofs.JsonCharacters

/-
JSON text as RFC 8259 has it.

The grammar of the standard is written down as it stands there: white space around every part,
texts, numbers, arrays and objects.  What is written for a value is such a text just if all doubles
in the value are finite (`isDocument_iff`).  The words for the others are told apart by their
letters: outside of its texts a strict document has none of them (`bare`).
-/
namespace OpenApi.Json

/-! ### The grammar -/

def IsSpace (cs : List Char) : Prop := ∀ c ∈ cs, c ∈ [' ', '\t', '\n', '\r']

def hexDigits : List Char :=
  ['0', '1', '2', '3', '4', '5', '6', '7', '8', '9', 'a', 'b', 'c', 'd', 'e', 'f', 'A', 'B', 'C',
    'D', 'E', 'F']

/-- How one character of a text, or half of one, is written. -/
inductive IsTextPart : List Char → Prop where
  | plain {c : Char} (shown : 0x20 ≤ c.toNat) (quote : c ≠ '"') (backslash : c ≠ '\\') :
      IsTextPart [c]
  | letter {c : Char} (known : c ∈ ['"', '\\', '/', 'b', 'f', 'n', 'r', 't']) :
      IsTextPart ['\\', c]
  | unit {digits : List Char} (four : digits.length = 4) (hex : ∀ c ∈ digits, c ∈ hexDigits) :
      IsTextPart ('\\' :: 'u' :: digits)

inductive IsTextParts : List Char → Prop where
  | nil : IsTextParts []
  | cons {part rest : List Char} (first : IsTextPart part) (more : IsTextParts rest) :
      IsTextParts (part ++ rest)

inductive IsText : List Char → Prop where
  | quoted {parts : List Char} (h : IsTextParts parts) : IsText ('"' :: (parts ++ ['"']))

inductive IsFraction : List Char → Prop where
  | none : IsFraction []
  | digits {ds : List Char} (some : ds ≠ []) (digit : ∀ c ∈ ds, c.isDigit = true) :
      IsFraction ('.' :: ds)

inductive IsExponent : List Char → Prop where
  | none : IsExponent []
  | digits {mark : Char} {sign ds : List Char} (hmark : mark = 'e' ∨ mark = 'E')
      (hsign : sign ∈ [[], ['+'], ['-']]) (some : ds ≠ []) (digit : ∀ c ∈ ds, c.isDigit = true) :
      IsExponent (mark :: (sign ++ ds))

inductive IsNumber : List Char → Prop where
  | parts {minus whole fraction exponent : List Char} (hminus : minus ∈ [[], ['-']])
      (hwhole : IsWhole whole) (hfraction : IsFraction fraction) (hexponent : IsExponent exponent) :
      IsNumber (minus ++ (whole ++ (fraction ++ exponent)))

mutual

inductive IsValue : List Char → Prop where
  | literal {word : String} (known : word ∈ literals) : IsValue word.toList
  | number {cs : List Char} (h : IsNumber cs) : IsValue cs
  | text {cs : List Char} (h : IsText cs) : IsValue cs
  | emptyArray {space : List Char} (h : IsSpace space) : IsValue ('[' :: (space ++ [']']))
  | array {cs : List Char} (items : IsItems cs) : IsValue ('[' :: (cs ++ [']']))
  | emptyObject {space : List Char} (h : IsSpace space) : IsValue ('\x7b' :: (space ++ ['\x7d']))
  | object {cs : List Char} (members : IsMembers cs) : IsValue ('\x7b' :: (cs ++ ['\x7d']))

inductive IsItems : List Char → Prop where
  | last {before value after : List Char} (hbefore : IsSpace before) (hvalue : IsValue value)
      (hafter : IsSpace after) : IsItems (before ++ (value ++ after))
  | more {before value after rest : List Char} (hbefore : IsSpace before) (hvalue : IsValue value)
      (hafter : IsSpace after) (items : IsItems rest) :
      IsItems (before ++ (value ++ (after ++ ',' :: rest)))

inductive IsMembers : List Char → Prop where
  | last {before name between behind value after : List Char} (hbefore : IsSpace before)
      (hname : IsText name) (hbetween : IsSpace between) (hbehind : IsSpace behind)
      (hvalue : IsValue value) (hafter : IsSpace after) :
      IsMembers (before ++ (name ++ (between ++ ':' :: (behind ++ (value ++ after)))))
  | more {before name between behind value after rest : List Char} (hbefore : IsSpace before)
      (hname : IsText name) (hbetween : IsSpace between) (hbehind : IsSpace behind)
      (hvalue : IsValue value) (hafter : IsSpace after) (members : IsMembers rest) :
      IsMembers
        (before ++ (name ++ (between ++ ':' :: (behind ++ (value ++ (after ++ ',' :: rest))))))

end

/-- Whether a text is a JSON document: a value with white space around it. -/
inductive IsDocument : List Char → Prop where
  | value {before value after : List Char} (hbefore : IsSpace before) (hvalue : IsValue value)
      (hafter : IsSpace after) : IsDocument (before ++ (value ++ after))

/-! ### What is written is strict -/

theorem Blanks.isSpace {cs : List Char} (h : Blanks cs) : IsSpace cs := by
  intro c hc
  rcases h c hc with rfl | rfl <;> decide

theorem isSpace_nil : IsSpace [] := nofun

theorem NumberParts.isNumber_text {p : NumberParts} (h : p.WellFormed) : IsNumber p.text := by
  have hfraction : IsFraction p.point := by
    unfold point
    cases hdigits : p.fraction with
    | nil => exact .none
    | cons c rest => exact .digits (List.cons_ne_nil _ _) (hdigits ▸ h.fraction)
  have hexponent : IsExponent p.power := by
    unfold power
    cases hdigits : p.exponent with
    | none => exact .none
    | some exponent =>
      obtain ⟨negative, digits⟩ := exponent
      obtain ⟨hne, hdigit⟩ := h.exponent _ hdigits
      cases negative with
      | false => exact @IsExponent.digits 'e' ['+'] digits (.inl rfl) (by decide) hne hdigit
      | true => exact @IsExponent.digits 'e' ['-'] digits (.inl rfl) (by decide) hne hdigit
  unfold text Double.signed
  split
  · exact @IsNumber.parts ['-'] _ _ _ (by decide) h.whole hfraction hexponent
  · exact @IsNumber.parts [] _ _ _ (by decide) h.whole hfraction hexponent

theorem IsTextParts.append {front back : List Char} (h : IsTextParts front)
    (h' : IsTextParts back) : IsTextParts (front ++ back) := by
  induction h with
  | nil => exact h'
  | cons first _ ih =>
    rw [List.append_assoc]
    exact .cons first ih

theorem IsTextPart.parts {part : List Char} (h : IsTextPart part) : IsTextParts part :=
  List.append_nil part ▸ .cons h .nil

theorem length_hex (width n : Nat) : (Text.Quoted.hex width n).length = width := by
  induction width generalizing n with
  | zero => rfl
  | succ width ih => rw [Text.Quoted.hex, List.length_append, ih, List.length_singleton]

theorem isTextPart_unitEscape (n : Nat) : IsTextPart (unitEscape n) := by
  have hdigits : ∀ d < 16, Text.Quoted.hexDigit d ∈ hexDigits := by decide
  refine .unit (length_hex 4 n) fun c hc => ?_
  obtain ⟨d, hd, rfl⟩ := exists_hexDigit hc
  exact hdigits d hd

theorem isTextParts_escape (ascii : Bool) (c : Char) : IsTextParts (escape ascii c) := by
  unfold escape
  split
  all_goals try exact (IsTextPart.letter (by decide)).parts
  rename_i hquote hbackslash _ _ _ _ _
  dsimp only
  split
  · exact (isTextPart_unitEscape _).parts
  · rename_i hshown
    split
    · exact (IsTextPart.plain (Nat.le_of_not_lt hshown) hquote hbackslash).parts
    · split
      · exact (isTextPart_unitEscape _).parts
      · exact (isTextPart_unitEscape _).parts.append (isTextPart_unitEscape _).parts

theorem isText_quote (ascii : Bool) (s : String) : IsText (quote ascii s).toList := by
  have hparts : ∀ cs : List Char, IsTextParts (cs.flatMap (escape ascii)) := by
    intro cs
    induction cs with
    | nil => exact .nil
    | cons c rest ih => exact (isTextParts_escape ascii c).append ih
  rw [quote, String.toList_ofList]
  exact .quoted (hparts s.toList)

end Json

/-- Whether all doubles in a value are numbers. -/
def Node.FloatsFinite (node : Node) : Prop :=
  ∀ x, (Node.float x).OccursIn node → x.isFinite = true

theorem Node.FloatsFinite.isFinite {s : Scalar} (h : (Node.scalar s).FloatsFinite) :
    s.isFinite = true := by
  cases s with
  | float x => exact h x .whole
  | _ => rfl

theorem Node.floatsFinite_scalar {s : Scalar} (h : s.isFinite = true) :
    (Node.scalar s).FloatsFinite := by
  intro x hx
  cases hx
  exact h

theorem Node.floatsFinite_list {items : List Node} (h : ∀ x ∈ items, x.FloatsFinite) :
    (Node.list items).FloatsFinite := by
  intro x hx
  cases hx with
  | item mem below => exact h _ mem x below

theorem Node.floatsFinite_map {entries : Entries} (h : ∀ e ∈ entries, e.2.FloatsFinite) :
    (Node.map entries).FloatsFinite := by
  intro x hx
  cases hx with
  | entry mem below => exact h _ mem x below

theorem Node.FloatsFinite.item {items : List Node} (h : (Node.list items).FloatsFinite) :
    ∀ x ∈ items, x.FloatsFinite :=
  fun _ hx y hy => h y (.item hx hy)

theorem Node.FloatsFinite.entry {entries : Entries} (h : (Node.map entries).FloatsFinite) :
    ∀ e ∈ entries, e.2.FloatsFinite :=
  fun _ he y hy => h y (.entry he hy)

namespace Json

theorem isValue_scalar {style : Style} {s : Scalar} {text : String}
    (written : scalar style s = .ok text) (finite : s.isFinite = true) : IsValue text.toList := by
  have hplain (h : plain s = .ok text) : IsValue text.toList := by
    rcases plain_cases h with ⟨_, h | ⟨p, wellFormed, htext⟩⟩ | ⟨hodd, _⟩
    · exact .literal h
    · exact .number (htext ▸ NumberParts.isNumber_text wellFormed)
    · cases finite.symm.trans hodd
  cases s with
  | str s =>
    cases written
    exact .text (isText_quote _ _)
  | _ => exact hplain written

mutual

theorem isValue_of_notes {style : Style} {node : Node} {cs : List Char}
    (notes : Notes style node cs) (finite : node.FloatsFinite) : IsValue cs := by
  cases notes with
  | scalar written => exact isValue_scalar written finite.isFinite
  | emptyList => exact @IsValue.emptyArray [] isSpace_nil
  | list parts => exact .array (isItems_of_notes parts finite.item)
  | emptyMap => exact @IsValue.emptyObject [] isSpace_nil
  | map parts => exact .object (isMembers_of_notes parts finite.entry)

theorem isItems_of_notes {style : Style} {items : List Node} {cs : List Char}
    (notes : NotesItems style items cs) (finite : ∀ x ∈ items, x.FloatsFinite) : IsItems cs := by
  cases notes with
  | last hbefore value hafter =>
    have hvalue := isValue_of_notes value (finite _ List.mem_cons_self)
    exact .last hbefore.isSpace hvalue hafter.isSpace
  | more hbefore value items =>
    have hvalue := isValue_of_notes value (finite _ List.mem_cons_self)
    have hitems := isItems_of_notes items fun x hx => finite x (List.mem_cons_of_mem _ hx)
    exact .more hbefore.isSpace hvalue isSpace_nil hitems

theorem isMembers_of_notes {style : Style} {entries : Entries} {cs : List Char}
    (notes : NotesEntries style entries cs) (finite : ∀ e ∈ entries, e.2.FloatsFinite) :
    IsMembers cs := by
  cases notes with
  | last hbefore hbetween value hafter =>
    have hvalue := isValue_of_notes value (finite _ List.mem_cons_self)
    exact @IsMembers.last _ _ [] _ _ _ hbefore.isSpace (isText_quote _ _) isSpace_nil
      hbetween.isSpace hvalue hafter.isSpace
  | more hbefore hbetween value more =>
    have hvalue := isValue_of_notes value (finite _ List.mem_cons_self)
    have hmembers := isMembers_of_notes more fun e he => finite e (List.mem_cons_of_mem _ he)
    exact @IsMembers.more _ _ [] _ _ [] _ hbefore.isSpace (isText_quote _ _) isSpace_nil
      hbetween.isSpace hvalue isSpace_nil hmembers

end

/-! ### What is not strict -/

/-- The characters of a text that stand outside of its text literals; `inside` says whether it
begins within one. -/
def bare : (inside : Bool) → List Char → List Char
  | _, [] => []
  | false, '"' :: rest => bare true rest
  | false, c :: rest => c :: bare false rest
  | true, '\\' :: _ :: rest => bare true rest
  | true, '"' :: rest => bare false rest
  | true, _ :: rest => bare true rest

/-- Whether a text has a letter of the words for doubles that are no numbers. -/
def HasOddLetter (cs : List Char) : Prop := 'N' ∈ cs ∨ 'I' ∈ cs

theorem hasOddLetter_append {front back : List Char} :
    HasOddLetter (front ++ back) ↔ HasOddLetter front ∨ HasOddLetter back := by
  simp only [HasOddLetter, List.mem_append]
  tauto

/-- Whether a text is complete in itself, so that what stands outside of literals in it does so in
any text that goes on after it: the letters of `shown`. -/
def Shows (cs shown : List Char) : Prop :=
  ∀ rest, bare false (cs ++ rest) = shown ++ bare false rest

theorem shows_of_not_mem {cs : List Char} (h : '"' ∉ cs) : Shows cs cs := by
  intro rest
  induction cs with
  | nil => rfl
  | cons c cs ih =>
    rw [List.mem_cons, not_or] at h
    rw [List.cons_append, bare.eq_3 _ _ (Ne.symm h.1), ih h.2]
    rfl

theorem Shows.append {front back shown shown' : List Char} (h : Shows front shown)
    (h' : Shows back shown') : Shows (front ++ back) (shown ++ shown') := by
  intro rest
  rw [List.append_assoc, h, h', List.append_assoc]

theorem Shows.cons {c : Char} (hc : c ≠ '"') {cs shown : List Char} (h : Shows cs shown) :
    Shows (c :: cs) (c :: shown) :=
  (@shows_of_not_mem [c] (by simpa using hc.symm)).append h

theorem bare_plain {c : Char} (quote : c ≠ '"') (backslash : c ≠ '\\') (rest : List Char) :
    bare true (c :: rest) = bare true rest := by
  rw [bare.eq_6 c rest (fun _ _ h _ => backslash h) quote]

theorem bare_part {part : List Char} (h : IsTextPart part) (rest : List Char) :
    bare true (part ++ rest) = bare true rest := by
  cases h with
  | plain _ quote backslash => exact bare_plain quote backslash rest
  | letter _ => rfl
  | @unit digits _ hex =>
    have hdigits (ds : List Char) (hds : ∀ c ∈ ds, c ∈ hexDigits) :
        bare true (ds ++ rest) = bare true rest := by
      induction ds with
      | nil => rfl
      | cons c ds ih =>
        rw [List.forall_mem_cons] at hds
        have hc : c ≠ '"' ∧ c ≠ '\\' := by
          have hall : ∀ c ∈ hexDigits, c ≠ '"' ∧ c ≠ '\\' := Text.forall_mem_of_all (by decide)
          exact hall c hds.1
        rw [List.cons_append, bare_plain hc.1 hc.2, ih hds.2]
    exact hdigits digits hex

/-- A text literal shows nothing. -/
theorem shows_text {cs : List Char} (h : IsText cs) : Shows cs [] := by
  intro rest
  obtain ⟨hparts⟩ := h
  have hinside {parts : List Char} (hparts : IsTextParts parts) (rest : List Char) :
      bare true (parts ++ rest) = bare true rest := by
    induction hparts with
    | nil => rfl
    | cons first _ ih => rw [List.append_assoc, bare_part first, ih]
  rw [List.cons_append, bare, List.append_assoc, hinside hparts]
  rfl

/-- Whether a text shows none of the odd letters. -/
def ShowsNone (cs : List Char) : Prop := ∃ shown, Shows cs shown ∧ ¬ HasOddLetter shown

theorem ShowsNone.append {front back : List Char} (h : ShowsNone front) (h' : ShowsNone back) :
    ShowsNone (front ++ back) := by
  obtain ⟨shown, hshown, hnone⟩ := h
  obtain ⟨shown', hshown', hnone'⟩ := h'
  exact ⟨_, hshown.append hshown', fun hodd => (hasOddLetter_append.mp hodd).elim hnone hnone'⟩

theorem ShowsNone.cons {c : Char} (hc : c ≠ '"' ∧ c ≠ 'N' ∧ c ≠ 'I') {cs : List Char}
    (h : ShowsNone cs) : ShowsNone (c :: cs) := by
  refine @ShowsNone.append [c] cs ⟨[c], ?_, ?_⟩ h
  · exact shows_of_not_mem (by simpa using hc.1.symm)
  · simpa [HasOddLetter] using ⟨hc.2.1.symm, hc.2.2.symm⟩

theorem showsNone_of_forall {cs : List Char} (h : ∀ c ∈ cs, c ≠ '"' ∧ c ≠ 'N' ∧ c ≠ 'I') :
    ShowsNone cs := by
  induction cs with
  | nil => exact ⟨[], shows_of_not_mem nofun, nofun⟩
  | cons c rest ih =>
    rw [List.forall_mem_cons] at h
    exact (ih h.2).cons h.1

theorem showsNone_of_all {cs : List Char}
    (h : cs.all (fun c => c ≠ '"' ∧ c ≠ 'N' ∧ c ≠ 'I') = true) : ShowsNone cs :=
  showsNone_of_forall (Text.forall_mem_of_all h)

theorem showsNone_text {cs : List Char} (h : IsText cs) : ShowsNone cs := ⟨[], shows_text h, nofun⟩

theorem showsNone_space {cs : List Char} (h : IsSpace cs) : ShowsNone cs := by
  have hspace : ∀ c ∈ [' ', '\t', '\n', '\r'], c ≠ '"' ∧ c ≠ 'N' ∧ c ≠ 'I' :=
    Text.forall_mem_of_all (by decide)
  exact showsNone_of_forall fun c hc => hspace c (h c hc)

theorem showsNone_digits {ds : List Char} (h : ∀ c ∈ ds, c.isDigit = true) : ShowsNone ds := by
  refine showsNone_of_forall fun c hc => ?_
  have hdigit := h c hc
  refine ⟨?_, ?_, ?_⟩
  all_goals
    rintro rfl
    cases hdigit

theorem showsNone_number {cs : List Char} (h : IsNumber cs) : ShowsNone cs := by
  obtain ⟨hminus, hwhole, hfraction, hexponent⟩ := h
  have hsigns : ∀ sign ∈ [[], ['+'], ['-']], sign.all (fun c => c ≠ '"' ∧ c ≠ 'N' ∧ c ≠ 'I') =
      true := by decide
  refine ShowsNone.append (showsNone_of_all ?_) (ShowsNone.append ?_ (ShowsNone.append ?_ ?_))
  · exact hsigns _ ((((List.Sublist.refl [['-']]).cons ['+']).cons_cons []).subset hminus)
  · exact showsNone_digits hwhole.isDigit
  · cases hfraction with
    | none => exact showsNone_digits nofun
    | digits _ digit => exact (showsNone_digits digit).cons (by decide)
  · cases hexponent with
    | none => exact showsNone_digits nofun
    | digits hmark hsign _ digit =>
      refine ShowsNone.cons ?_ ((showsNone_of_all (hsigns _ hsign)).append
        (showsNone_digits digit))
      rcases hmark with rfl | rfl <;> decide

mutual

/-- Outside of its texts a strict value has none of the odd letters. -/
theorem showsNone_value {cs : List Char} : IsValue cs → ShowsNone cs
  | .literal known => by
    have hwords : ∀ word ∈ literals, word.toList.all (fun c => c ≠ '"' ∧ c ≠ 'N' ∧ c ≠ 'I') =
        true := by decide
    exact showsNone_of_all (hwords _ known)
  | .number h => showsNone_number h
  | .text h => showsNone_text h
  | .emptyArray h =>
    .cons (by decide) ((showsNone_space h).append (showsNone_of_all (by decide)))
  | .array items =>
    .cons (by decide) ((showsNone_items items).append (showsNone_of_all (by decide)))
  | .emptyObject h =>
    .cons (by decide) ((showsNone_space h).append (showsNone_of_all (by decide)))
  | .object members =>
    .cons (by decide) ((showsNone_members members).append (showsNone_of_all (by decide)))

theorem showsNone_items {cs : List Char} : IsItems cs → ShowsNone cs
  | .last hbefore hvalue hafter =>
    (showsNone_space hbefore).append ((showsNone_value hvalue).append (showsNone_space hafter))
  | .more hbefore hvalue hafter items => by
    have hitems : ShowsNone (',' :: _) := (showsNone_items items).cons (by decide)
    exact (showsNone_space hbefore).append
      ((showsNone_value hvalue).append ((showsNone_space hafter).append hitems))

theorem showsNone_members {cs : List Char} : IsMembers cs → ShowsNone cs
  | .last hbefore hname hbetween hbehind hvalue hafter => by
    have hend : ShowsNone (':' :: _) := ((showsNone_space hbehind).append
      ((showsNone_value hvalue).append (showsNone_space hafter))).cons (by decide)
    exact (showsNone_space hbefore).append ((showsNone_text hname).append
      ((showsNone_space hbetween).append hend))
  | .more hbefore hname hbetween hbehind hvalue hafter members => by
    have hmembers : ShowsNone (',' :: _) := (showsNone_members members).cons (by decide)
    have hend : ShowsNone (':' :: _) := ((showsNone_space hbehind).append
      ((showsNone_value hvalue).append ((showsNone_space hafter).append hmembers))).cons (by decide)
    exact (showsNone_space hbefore).append ((showsNone_text hname).append
      ((showsNone_space hbetween).append hend))

end

theorem not_hasOddLetter_of_isDocument {cs : List Char} (h : IsDocument cs) :
    ¬ HasOddLetter (bare false cs) := by
  obtain ⟨hbefore, hvalue, hafter⟩ := h
  obtain ⟨shown, hshown, hnone⟩ := (showsNone_space hbefore).append
    ((showsNone_value hvalue).append (showsNone_space hafter))
  have hbare := hshown []
  rw [List.append_nil] at hbare
  rw [hbare]
  simpa [bare] using hnone

/-- Whether a text shows an odd letter, unless something holds. -/
def ShowsUnless (P : Prop) (cs : List Char) : Prop :=
  ∃ shown, Shows cs shown ∧ (HasOddLetter shown ∨ P)

section
variable {P Q : Prop} {cs front back : List Char}

theorem ShowsUnless.append (h : ShowsUnless P front) (h' : ShowsUnless Q back) :
    ShowsUnless (P ∧ Q) (front ++ back) := by
  obtain ⟨shown, hshown, hor⟩ := h
  obtain ⟨shown', hshown', hor'⟩ := h'
  refine ⟨_, hshown.append hshown', ?_⟩
  rw [hasOddLetter_append]
  tauto

theorem ShowsUnless.mono (h : ShowsUnless P cs) (hPQ : P → Q) : ShowsUnless Q cs := by
  obtain ⟨shown, hshown, hor⟩ := h
  exact ⟨shown, hshown, hor.imp_right hPQ⟩

theorem ShowsNone.showsUnless (h : ShowsNone cs) (hP : P) : ShowsUnless P cs := by
  obtain ⟨shown, hshown, _⟩ := h
  exact ⟨shown, hshown, .inr hP⟩

theorem showsUnless_mark {c : Char} (h : c ≠ '"') : ShowsUnless True [c] :=
  ⟨[c], shows_of_not_mem (by simpa using h.symm), .inr trivial⟩

end

theorem showsUnless_scalar {style : Style} {s : Scalar} {text : String}
    (written : scalar style s = .ok text) :
    ShowsUnless (Node.scalar s).FloatsFinite text.toList := by
  have hplain (h : plain s = .ok text) : ShowsUnless (Node.scalar s).FloatsFinite text.toList := by
    rcases plain_cases h with ⟨hfinite, hword | ⟨p, wellFormed, htext⟩⟩ | ⟨_, hword⟩
    · exact (showsNone_value (.literal hword)).showsUnless (Node.floatsFinite_scalar hfinite)
    · have hnumber := showsNone_number (NumberParts.isNumber_text wellFormed)
      exact (htext ▸ hnumber).showsUnless (Node.floatsFinite_scalar hfinite)
    · have hwords : ∀ word ∈ oddities, '"' ∉ word.toList ∧ HasOddLetter word.toList := by
        unfold HasOddLetter
        decide
      exact ⟨_, shows_of_not_mem (hwords _ hword).1, .inl (hwords _ hword).2⟩
  cases s with
  | str s =>
    cases written
    exact (showsNone_text (isText_quote _ _)).showsUnless (Node.floatsFinite_scalar rfl)
  | _ => exact hplain written

theorem Blanks.showsUnless {cs : List Char} (h : Blanks cs) : ShowsUnless True cs :=
  (showsNone_space h.isSpace).showsUnless trivial

theorem showsUnless_quote (ascii : Bool) (s : String) :
    ShowsUnless True (quote ascii s).toList :=
  (showsNone_text (isText_quote ascii s)).showsUnless trivial

mutual

/-- What is written for a value shows an odd letter unless all doubles in it are finite. -/
theorem showsUnless_notes {style : Style} {node : Node} {cs : List Char}
    (notes : Notes style node cs) : ShowsUnless node.FloatsFinite cs := by
  cases notes with
  | scalar written => exact showsUnless_scalar written
  | emptyList =>
    exact (showsNone_of_all (by decide)).showsUnless
      (Node.floatsFinite_list (List.forall_mem_nil _))
  | list parts =>
    have hclosed := (showsUnless_notesItems parts).append (@showsUnless_mark ']' (by decide))
    exact ((@showsUnless_mark '[' (by decide)).append hclosed).mono fun h =>
      Node.floatsFinite_list h.2.1
  | emptyMap =>
    exact (showsNone_of_all (by decide)).showsUnless (Node.floatsFinite_map (List.forall_mem_nil _))
  | map parts =>
    have hclosed := (showsUnless_notesEntries parts).append (@showsUnless_mark '\x7d' (by decide))
    exact ((@showsUnless_mark '\x7b' (by decide)).append hclosed).mono fun h =>
      Node.floatsFinite_map h.2.1

theorem showsUnless_notesItems {style : Style} {items : List Node} {cs : List Char}
    (notes : NotesItems style items cs) : ShowsUnless (∀ x ∈ items, x.FloatsFinite) cs := by
  cases notes with
  | last hbefore value hafter =>
    have hvalue := (showsUnless_notes value).append hafter.showsUnless
    exact (hbefore.showsUnless.append hvalue).mono fun h => List.forall_mem_singleton.mpr h.2.1
  | more hbefore value items =>
    have hitems := (@showsUnless_mark ',' (by decide)).append (showsUnless_notesItems items)
    have hvalue := (showsUnless_notes value).append hitems
    exact (hbefore.showsUnless.append hvalue).mono fun h =>
      List.forall_mem_cons.mpr ⟨h.2.1, h.2.2.2⟩

theorem showsUnless_notesEntries {style : Style} {entries : Entries} {cs : List Char}
    (notes : NotesEntries style entries cs) :
    ShowsUnless (∀ e ∈ entries, e.2.FloatsFinite) cs := by
  cases notes with
  | @last key _ _ _ _ _ hbefore hbetween value hafter =>
    have hvalue := hbetween.showsUnless.append
      ((showsUnless_notes value).append hafter.showsUnless)
    have hentry := (showsUnless_quote style.ascii key).append
      ((@showsUnless_mark ':' (by decide)).append hvalue)
    exact (hbefore.showsUnless.append hentry).mono fun h =>
      List.forall_mem_singleton.mpr h.2.2.2.2.1
  | @more key _ _ _ _ _ _ hbefore hbetween value more =>
    have hmore := (@showsUnless_mark ',' (by decide)).append (showsUnless_notesEntries more)
    have hvalue := hbetween.showsUnless.append ((showsUnless_notes value).append hmore)
    have hentry := (showsUnless_quote style.ascii key).append
      ((@showsUnless_mark ':' (by decide)).append hvalue)
    exact (hbefore.showsUnless.append hentry).mono fun h =>
      List.forall_mem_cons.mpr ⟨h.2.2.2.2.1, h.2.2.2.2.2.2⟩

end

/-- What is written for a value is strict JSON just if all doubles in it are finite. -/
theorem isDocument_iff {style : Style} {node : Node} {cs after : List Char}
    (notes : Notes style node cs) (hafter : Blanks after) :
    IsDocument (cs ++ after) ↔ node.FloatsFinite := by
  constructor
  · intro h
    have hstrict := not_hasOddLetter_of_isDocument h
    obtain ⟨shown, hshown, hor⟩ := (showsUnless_notes notes).append hafter.showsUnless
    have hbare := hshown []
    rw [List.append_nil] at hbare
    rw [hbare, hasOddLetter_append, not_or] at hstrict
    exact (hor.resolve_left hstrict.1).1
  · intro finite
    exact @IsDocument.value [] _ _ isSpace_nil (isValue_of_notes notes finite) hafter.isSpace

end Json
end OpenApi
