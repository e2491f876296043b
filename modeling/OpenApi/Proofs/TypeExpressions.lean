import OpenApi.Proofs.DefinitionNames
import OpenApi.Proofs.KeptItems

/-
The grammar of type expressions.

An expression is a name or a name with an expression in brackets, and may lie in a namespace of the
dialect.  The type, its parts and its imports are given by recursion on the expression, and these
are what its text is read as (`ofNode_text`).  The text is taken apart at its first opening bracket
and its last closing one, and where it is the text of an expression, these are the brackets around
its argument (`brackets?_withArgument`).
-/
namespace OpenApi

/-! ### Words -/

/-- A name as expressions are made of: a primitive type, or an identifier. -/
inductive TypeWord where
  | primitive {name meaning : String} (known : Dialect.primitive? name = some meaning)
  | definition {name : String} (plain : Name.IsTypeName name)

namespace TypeWord

def isPrimitive : TypeWord → Bool
  | .primitive _ => true
  | .definition _ => false

def name : TypeWord → String
  | @primitive name _ _ => name
  | @definition name _ => name

def type : TypeWord → String
  | @primitive _ meaning _ => meaning
  | @definition name _ => name

/-- What has to be imported for a name: itself, unless it is a primitive type. -/
def imports : TypeWord → List String
  | .primitive _ => []
  | @definition name _ => [name]

theorem not_mem_name (w : TypeWord) {c : Char} (hc : Name.isTail c = false) (hyphen : c ≠ '-') :
    c ∉ w.name.toList := by
  cases w with
  | definition plain => exact plain.not_mem hc
  | @primitive name meaning known =>
    have hall : ∀ e ∈ Dialect.primitives,
        e.1.toList.all (fun d => Name.isTail d = true ∨ d = '-') = true := by decide
    have hname := Text.forall_mem_of_all (hall _ (Dialect.mem_primitives_of_primitive? known))
    intro hmem
    rcases hname c hmem with htail | heq
    · rw [htail] at hc
      cases hc
    · exact hyphen heq

theorem name_ne_nil (w : TypeWord) : w.name.toList ≠ [] := by
  cases w with
  | definition plain =>
    obtain ⟨c, rest, hcons, _⟩ := plain.head
    exact fun h => List.cons_ne_nil c rest (hcons.symm.trans h)
  | @primitive name meaning known =>
    have hall : ∀ e ∈ Dialect.primitives, e.1.toList ≠ [] := by decide
    exact hall _ (Dialect.mem_primitives_of_primitive? known)

/-- Only the name `array` stands for a list of anything. -/
theorem type_eq_anyList_iff (w : TypeWord) : w.type = "any[]" ↔ w.name = "array" := by
  cases w with
  | @definition name plain =>
    constructor
    · intro h
      have hbracket : '[' ∉ name.toList := plain.not_mem (by decide)
      rw [show name = "any[]" from h] at hbracket
      exact absurd (by decide) hbracket
    · intro h
      have hspecial := plain.special
      rw [show name = "array" from h] at hspecial
      cases hspecial
  | @primitive name meaning known =>
    have hall : ∀ e ∈ Dialect.primitives, e.2 = "any[]" ↔ e.1 = "array" := by decide
    exact hall _ (Dialect.mem_primitives_of_primitive? known)

theorem imports_of_array (w : TypeWord) (h : w.name = "array") : w.imports = [] := by
  cases w with
  | primitive _ => rfl
  | @definition name plain =>
    have hspecial := plain.special
    rw [show name = "array" from h] at hspecial
    cases hspecial

end TypeWord

/-! ### Expressions -/

/-- A text with another one in brackets behind it. -/
def withArgument (head argument : List Char) : List Char := head ++ '[' :: (argument ++ [']'])

/-- What may stand in front of an expression: nothing, or a namespace of the dialect. -/
structure TypePlace (dialect : Dialect) where
  text : String
  known : text = "" ∨ text ∈ dialect.namespaces

/-- A type expression.  The name of a primitive type means that type only where it stands alone or
takes an argument. -/
inductive TypeExpression (dialect : Dialect) where
  | word (place : TypePlace dialect) (w : TypeWord) (bare : w.isPrimitive = true → place.text = "")
  | generic (place : TypePlace dialect) (head : TypeWord) (argument : TypeExpression dialect)

namespace TypeExpression

variable {dialect : Dialect}

def text : TypeExpression dialect → List Char
  | .word place w _ => place.text.toList ++ w.name.toList
  | .generic place head argument =>
    place.text.toList ++ withArgument head.name.toList argument.text

/-- The whole type: a list for an array, else the head with its argument. -/
def type : TypeExpression dialect → String
  | .word _ w _ => w.type
  | .generic _ head argument =>
    if head.name = "array" then argument.type ++ "[]"
    else head.type ++ "<" ++ argument.type ++ ">"

def base : TypeExpression dialect → String
  | .word _ w _ => w.type
  | .generic _ head argument => if head.name = "array" then argument.type else head.type

def template : TypeExpression dialect → Option String
  | .word .. => none
  | .generic _ head argument => if head.name = "array" then none else some argument.type

/-- The names of definitions in an expression, from left to right. -/
def names : TypeExpression dialect → List String
  | .word _ w _ => w.imports
  | .generic _ head argument => head.imports ++ argument.names

def use (e : TypeExpression dialect) : TypeUse where
  type := e.type
  base := e.base
  template := e.template
  imports := e.names.eraseDups

theorem text_ne_nil (e : TypeExpression dialect) : e.text ≠ [] := by
  cases e with
  | word place w _ => exact List.append_ne_nil_of_right_ne_nil _ w.name_ne_nil
  | generic place head argument =>
    rw [text, withArgument]
    exact List.append_ne_nil_of_right_ne_nil _
      (List.append_ne_nil_of_right_ne_nil _ (List.cons_ne_nil _ _))

/-- Besides the characters of identifiers only a few marks occur in the text of an expression. -/
theorem not_mem_text (e : TypeExpression dialect) {c : Char} (hc : Name.isTail c = false)
    (hmark : c ∉ ['-', '#', '/', '[', ']']) : c ∉ e.text := by
  have hplace (place : TypePlace dialect) : c ∉ place.text.toList := by
    have hall : ∀ start ∈ "" :: dialect.namespaces, start.toList.all (fun d =>
        Name.isTail d = true ∨ d ∈ ['-', '#', '/', '[', ']']) = true := by
      cases dialect <;> decide
    have hstart := Text.forall_mem_of_all (hall place.text (List.mem_cons.mpr place.known))
    intro hmem
    rcases hstart c hmem with htail | hother
    · rw [htail] at hc
      cases hc
    · exact hmark hother
  have hword (w : TypeWord) : c ∉ w.name.toList :=
    w.not_mem_name hc fun heq => hmark (heq ▸ List.mem_cons_self)
  induction e with
  | word place w _ =>
    rw [text, List.mem_append, not_or]
    exact ⟨hplace place, hword w⟩
  | generic place head argument ih =>
    have hopen : c ≠ '[' := by
      rintro rfl
      exact hmark (by decide)
    have hclose : c ≠ ']' := by
      rintro rfl
      exact hmark (by decide)
    simp only [text, withArgument, List.mem_append, List.mem_cons, List.not_mem_nil, or_false,
      not_or]
    exact ⟨hplace place, hword head, hopen, ih, hclose⟩

theorem isBlank_of_mem_text (e : TypeExpression dialect) {c : Char} (hc : c ∈ e.text) :
    Text.isBlank c = false := by
  cases hblank : Text.isBlank c with
  | false => rfl
  | true =>
    have htail : Name.isTail c = false := by
      cases htail : Name.isTail c with
      | false => rfl
      | true =>
        rw [Name.isBlank_of_isTail htail] at hblank
        cases hblank
    have hmark : c ∉ ['-', '#', '/', '[', ']'] := by
      have hall : ∀ d ∈ ['-', '#', '/', '[', ']'], Text.isBlank d = false :=
        Text.forall_mem_of_all (by decide)
      intro hmem
      rw [hall c hmem] at hblank
      cases hblank
    exact absurd hc (e.not_mem_text htail hmark)

end TypeExpression

/-! ### Reading -/

namespace TypeUse

/-- Brackets around a text that ends with them are found, whatever brackets are in the text. -/
theorem brackets?_withArgument {outer inner : List Char} (hopen : '[' ∉ outer)
    (houter : '\n' ∉ outer) (hinner : '\n' ∉ inner) :
    brackets? (withArgument outer inner) = some (outer, inner) := by
  have hscan : ∀ c ∈ outer, (c != '[') = true := fun c hc => by
    rw [bne_iff_ne]
    exact fun heq => hopen (heq ▸ hc)
  have hstop : ∀ c ∈ ('[' :: (inner ++ [']'])).head?, (c != '[') = false := by
    intro c hc
    cases hc
    rfl
  obtain ⟨htake, hdrop⟩ := Text.takeWhile_dropWhile_append hscan hstop
  have hclosing : beforeClosing? (inner ++ [']']) = some inner := by
    rw [beforeClosing?, List.reverse_concat]
    exact congrArg some (List.reverse_reverse inner)
  have hbreaks : ¬ (outer.contains '\n' || inner.contains '\n') = true := by
    simp [houter, hinner]
  rw [withArgument, brackets?, hdrop]
  dsimp only
  rw [hclosing, htake]
  exact if_neg hbreaks

theorem appendNew_append (imports xs ys : List String) :
    appendNew imports (xs ++ ys) = appendNew (appendNew imports xs) ys := List.foldl_append

theorem appendNew_singleton (imports : List String) (name : String) :
    appendNew imports [name] = if name ∈ imports then imports else imports ++ [name] := rfl

theorem appendNew_nil (names : List String) : appendNew [] names = names.eraseDups := by
  have hstep : (fun (done : List String) name => if name ∈ done then done else done ++ [name]) =
      keepUnlike (fun a b => b == a) := by
    funext done name
    simp [keepUnlike]
  rw [appendNew, hstep]
  exact firstOnes_eq_eraseDupsBy names

/-- Repetitions among the names that are added make no difference. -/
theorem appendNew_eraseDups (imports names : List String) :
    appendNew imports names.eraseDups = appendNew imports names := by
  rw [← appendNew_nil]
  induction names using List.reverseRecOn with
  | nil => rfl
  | append_singleton names name ih =>
    rw [appendNew_append, appendNew_append imports, appendNew_singleton]
    by_cases hmem : name ∈ appendNew [] names
    · have hadded : name ∈ appendNew imports names :=
        mem_appendNew.mpr (.inr ((mem_appendNew.mp hmem).resolve_left List.not_mem_nil))
      rw [if_pos hmem, ih, appendNew_singleton, if_pos hadded]
    · rw [if_neg hmem, appendNew_append, ih]

variable {dialect : Dialect}

/-- What stands behind a place is the plain token of both. -/
theorem plainToken_append (place : TypePlace dialect) {body : List Char}
    (shown : ∀ c ∈ place.text.toList ++ body, Text.isBlank c = false) (unescaped : '%' ∉ body)
    (hhead : ∀ c ∈ body.head?, c ≠ '#') :
    plainToken dialect (place.text.toList ++ body) = body := by
  have htrim : Text.trim (place.text.toList ++ body) = place.text.toList ++ body :=
    Text.trimBy_eq_self shown
  have outside : ∀ start ∈ dialect.namespaces, ¬ start.toList <+: body := by
    rintro start hstart ⟨rest, rfl⟩
    exact hhead '#' (by rw [List.head?_append, head?_namespaces hstart]; rfl) rfl
  have hwithout : Name.withoutNamespaces dialect.namespaces (place.text.toList ++ body) = body := by
    rcases place.known with hempty | hmem
    · rw [hempty] at htrim ⊢
      rw [Name.withoutNamespaces, htrim]
      exact Name.foldl_dropStart_of_not_prefix outside
    · exact withoutNamespaces_of_mem hmem htrim outside
  rw [plainToken, hwithout, Text.Percent.decode_of_not_mem unescaped]

theorem ofToken_word (place : TypePlace dialect) (w : TypeWord)
    (bare : w.isPrimitive = true → place.text = "") :
    ofToken dialect (TypeExpression.word place w bare).text =
      (TypeExpression.word place w bare).use := by
  have shown {c : Char} := @TypeExpression.isBlank_of_mem_text dialect (.word place w bare) c
  rw [TypeExpression.text] at shown ⊢
  cases w with
  | @primitive name meaning known =>
    rw [bare rfl, String.toList_empty, List.nil_append]
    exact ofToken_of_primitive ((congrArg _ String.ofList_toList).trans known)
  | @definition name plain =>
    have hprimitive : Dialect.primitive? (String.ofList (place.text.toList ++ name.toList)) =
        none := by
      rcases place.known with hempty | hmem
      · rw [hempty, String.toList_empty, List.nil_append, String.ofList_toList, plain.special]
      · refine Dialect.primitive?_of_mem (c := '#') (by decide) ?_
        rw [String.toList_ofList]
        exact List.mem_append_left _ (mem_namespaces_mark hmem)
    have hplain : plainToken dialect (place.text.toList ++ name.toList) = name.toList := by
      refine plainToken_append place (fun c hc => shown hc) (plain.not_mem (by decide)) ?_
      rintro c hc rfl
      exact plain.not_mem (by decide) (List.mem_of_mem_head? hc)
    show ofToken dialect (place.text.toList ++ name.toList) = _
    rw [ofToken_of_not_primitive hprimitive, hplain,
      ofPlain_of_not_mem (plain.not_mem (by decide)), ofDefinition_of_isTypeName plain]
    rfl

theorem ofToken_name (w : TypeWord) : ofToken dialect w.name.toList =
    { type := w.type, base := w.type, imports := w.imports } := by
  have huse := @ofToken_word dialect ⟨"", .inl rfl⟩ w fun _ => rfl
  have himports : w.imports.eraseDups = w.imports := by cases w <;> rfl
  rw [TypeExpression.use, TypeExpression.names, himports] at huse
  exact huse

theorem applied_use (place : TypePlace dialect) (head : TypeWord)
    (argument : TypeExpression dialect) :
    applied { type := head.type, base := head.type, imports := head.imports } argument.use false =
      (TypeExpression.generic place head argument).use := by
  unfold applied
  dsimp only
  by_cases harray : head.name = "array"
  · have hargument : appendNew [] argument.use.imports =
        (TypeExpression.generic place head argument).names.eraseDups := by
      rw [TypeExpression.use, appendNew_eraseDups, appendNew_nil, TypeExpression.names,
        head.imports_of_array harray, List.nil_append]
    rw [if_pos (head.type_eq_anyList_iff.mpr harray), hargument, TypeExpression.use,
      TypeExpression.use, TypeExpression.type, TypeExpression.base, TypeExpression.template,
      if_pos harray, if_pos harray, if_pos harray]
  · have himports : appendNew (appendNew [] head.imports) argument.use.imports =
        (TypeExpression.generic place head argument).names.eraseDups := by
      rw [TypeExpression.use, appendNew_eraseDups, ← appendNew_append, appendNew_nil,
        TypeExpression.names]
    rw [if_neg (fun h => harray (head.type_eq_anyList_iff.mp h)), himports]
    show _ = (TypeExpression.generic place head argument).use
    rw [TypeExpression.use, TypeExpression.use, TypeExpression.type, TypeExpression.base,
      TypeExpression.template, if_neg harray, if_neg harray, if_neg harray]
    rfl

/-- The text of an expression is read as the recursion on the expression says. -/
theorem ofToken_text (e : TypeExpression dialect) : ofToken dialect e.text = e.use := by
  induction e with
  | word place w bare => exact ofToken_word place w bare
  | generic place head argument ih =>
    have shown {c : Char} := @TypeExpression.isBlank_of_mem_text dialect
      (.generic place head argument) c
    have hpercent : '%' ∉ (TypeExpression.generic place head argument).text :=
      TypeExpression.not_mem_text _ (by decide) (by decide)
    rw [TypeExpression.text] at shown hpercent ⊢
    have hprimitive : Dialect.primitive? (String.ofList
        (place.text.toList ++ withArgument head.name.toList argument.text)) = none := by
      refine Dialect.primitive?_of_mem (c := '[') (by decide) ?_
      rw [String.toList_ofList]
      exact List.mem_append_right _ (List.mem_append_right _ List.mem_cons_self)
    have hplain : plainToken dialect
        (place.text.toList ++ withArgument head.name.toList argument.text) =
          withArgument head.name.toList argument.text := by
      refine plainToken_append place (fun c hc => shown hc)
        (fun hc => hpercent (List.mem_append_right _ hc)) ?_
      rw [withArgument, List.head?_append_of_ne_nil _ head.name_ne_nil]
      rintro c hc rfl
      exact head.not_mem_name (by decide) (by decide) (List.mem_of_mem_head? hc)
    have hbrackets : brackets? (withArgument head.name.toList argument.text) =
        some (head.name.toList, argument.text) :=
      brackets?_withArgument (head.not_mem_name (by decide) (by decide))
        (head.not_mem_name (by decide) (by decide)) (argument.not_mem_text (by decide) (by decide))
    have htrim : (Text.trim argument.text).isEmpty = false := by
      have hself : Text.trim argument.text = argument.text :=
        Text.trimBy_eq_self fun c hc => argument.isBlank_of_mem_text hc
      rw [hself]
      exact List.isEmpty_eq_false_iff.mpr argument.text_ne_nil
    rw [ofToken_of_not_primitive hprimitive, hplain, ofPlain, hbrackets]
    dsimp only
    rw [ofToken_name, ih, htrim, applied_use place]

/-- A text that is an expression has the type, the parts and the imports of the expression. -/
theorem ofNode_text (e : TypeExpression dialect) (format : Node) :
    ofNode dialect (.str (String.ofList e.text)) format =
      .ok (if format.isText "binary" then ofName "binary" else e.use) := by
  rw [ofNode, ofText, String.toList_ofList, ofToken_text]

example : ofToken .v2 "#/definitions/array[Link[Model]]".toList =
    { type := "Link<Model>[]", base := "Link<Model>", imports := ["Link", "Model"] } := by
  decide +kernel

end TypeUse
end OpenApi
