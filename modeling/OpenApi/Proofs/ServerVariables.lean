import OpenApi.Proofs.ServerAddress
import OpenApi.Proofs.Texts
import Mathlib.Data.List.Nodup
import Mathlib.Data.List.Perm.Basic

/-
The variables of a server.

The address of a server may name variables in braces, and each of them stands for a text.  The texts
are put in one after the other, and every time the whole address is searched, with the texts that
came in before.  A reader of the description has another picture: every name that the address had
from the beginning is exchanged for its text, all at once (`fill`).

The two agree as long as putting in a text never makes a name in braces that was not there before
(`Separate`), and then the order of the variables is of no account.  The theorem this file exists
for is `server_eq_fill`.  Its induction is on the variables: the address in which the first of them
have been put in at once is searched for the next one (`replace_fill`).
-/
namespace OpenApi.Dialect

/-- A variable of a server: its name and the text that it stands for. -/
structure Variable where
  name : String
  text : String

/-- What stands in an address for the text of the variable. -/
def Variable.placeholder (v : Variable) : List Char := '\x7b' :: v.name.toList ++ ['\x7d']

def isBrace (c : Char) : Bool := c == '\x7b' || c == '\x7d'

/-- One pass of `fill`, with `skip` characters of the last placeholder still to be left out. -/
def fillFrom (vars : List Variable) : Nat → List Char → List Char
  | _, [] => []
  | skip + 1, _ :: rest => fillFrom vars skip rest
  | 0, c :: rest =>
    match vars.find? fun v => v.placeholder.isPrefixOf (c :: rest) with
    | some v => v.text.toList ++ fillFrom vars (v.placeholder.length - 1) rest
    | none => c :: fillFrom vars 0 rest

/-- The address with the texts of all variables put in at once. -/
def fill (vars : List Variable) (url : List Char) : List Char := fillFrom vars 0 url

/-- Whether a placeholder of a variable stands at the beginning. -/
def opens (vars : List Variable) (cs : List Char) : Bool :=
  vars.any fun v => v.placeholder.isPrefixOf cs

/-- Whether a placeholder stands behind an opening brace, with no other brace between them. -/
def nests (vars : List Variable) : List Char → Bool
  | [] => false
  | c :: rest => (c == '\x7b' && opens vars (rest.dropWhile (!isBrace ·))) || nests vars rest

/-- Whether no placeholder begins in a text, whatever comes behind it: every brace that opens is
followed by another brace, and is not the beginning of a placeholder. -/
def isSettled (vars : List Variable) : List Char → Bool
  | [] => true
  | c :: rest =>
    (c != '\x7b' || (rest.any isBrace && !opens vars (c :: rest))) && isSettled vars rest

/-- Whether variables have different names without braces. -/
structure Apart (vars : List Variable) : Prop where
  distinct : (vars.map (·.name)).Nodup
  names : ∀ v ∈ vars, ∀ c ∈ v.name.toList, isBrace c = false

/-- Whether no text that is put in can make another placeholder: no text brings in the beginning of
one, and none is put in between an opening brace and the brace that follows it. -/
structure Separate (vars : List Variable) (url : List Char) : Prop extends Apart vars where
  texts : ∀ v ∈ vars, isSettled vars v.text.toList = true
  unnested : nests vars url = false

section
variable {vars vars' : List Variable} {v w : Variable} {cs : List Char}

/-! ### Placeholders -/

theorem opens_iff : opens vars cs = true ↔ ∃ v ∈ vars, v.placeholder <+: cs := by
  simp only [opens, List.any_eq_true, List.isPrefixOf_iff_prefix]

theorem opens_of_subset (h : vars ⊆ vars') (hopens : opens vars' cs = false) :
    opens vars cs = false := by
  rw [← Bool.not_eq_true, opens_iff] at hopens ⊢
  exact fun ⟨v, hv, hprefix⟩ => hopens ⟨v, h hv, hprefix⟩

theorem nests_of_subset (h : vars ⊆ vars') (hnests : nests vars' cs = false) :
    nests vars cs = false := by
  induction cs with
  | nil => rfl
  | cons c rest ih =>
    rw [nests, Bool.or_eq_false_iff, Bool.and_eq_false_imp] at hnests ⊢
    exact ⟨fun hc => opens_of_subset h (hnests.1 hc), ih hnests.2⟩

theorem isSettled_of_subset (h : vars ⊆ vars') (hsettled : isSettled vars' cs = true) :
    isSettled vars cs = true := by
  induction cs with
  | nil => rfl
  | cons c rest ih =>
    rw [isSettled, Bool.and_eq_true, Bool.or_eq_true, Bool.and_eq_true,
      Bool.not_eq_true'] at hsettled ⊢
    exact ⟨hsettled.1.imp_right fun hc => ⟨hc.1, opens_of_subset h hc.2⟩, ih hsettled.2⟩

theorem nests_append {front : List Char} (h : nests vars (front ++ cs) = false) :
    nests vars cs = false := by
  induction front with
  | nil => exact h
  | cons c front ih =>
    rw [List.cons_append, nests, Bool.or_eq_false_iff] at h
    exact ih h.2

namespace Apart

variable (apart : Apart vars)
include apart

theorem of_subperm (h : vars'.Subperm vars) : Apart vars' where
  distinct := by
    obtain ⟨kept, perm, sublist⟩ := h
    exact (perm.map _).nodup_iff.mp ((sublist.map _).nodup apart.distinct)
  names v hv := apart.names v (h.subset hv)

theorem not_mem_name (hv : v ∈ vars) {brace : Char} (h : isBrace brace = true) :
    brace ∉ v.name.toList := fun hmem => by
  rw [apart.names v hv brace hmem] at h
  cases h

/-- A name ends at its brace. -/
theorem takeWhile_name (hv : v ∈ vars) :
    (v.name.toList ++ '\x7d' :: cs).takeWhile (!isBrace ·) = v.name.toList := by
  have hname : ∀ c ∈ v.name.toList, (!isBrace c) = true := fun c hc => by
    rw [apart.names v hv c hc]
    rfl
  exact (Text.takeWhile_dropWhile_append hname (by rintro c ⟨⟩; rfl)).1

/-- Only one variable has its placeholder at the beginning. -/
theorem eq_of_prefix (hv : v ∈ vars) (hw : w ∈ vars)
    (h : w.placeholder <+: v.placeholder ++ cs) : w = v := by
  obtain ⟨tail, heq⟩ := h
  have hnames : w.name.toList ++ '\x7d' :: tail = v.name.toList ++ '\x7d' :: cs := by
    simpa [Variable.placeholder] using heq
  have hsame := congrArg (List.takeWhile (!isBrace ·)) hnames
  rw [apart.takeWhile_name hw, apart.takeWhile_name hv] at hsame
  exact List.inj_on_of_nodup_map apart.distinct hw hv (String.toList_inj.mp hsame)

end Apart

/-! ### Putting in all at once -/

theorem fillFrom_append (skipped : List Char) :
    fillFrom vars skipped.length (skipped ++ cs) = fill vars cs := by
  induction skipped with
  | nil => rfl
  | cons c skipped ih => exact ih

theorem fill_placeholder (apart : Apart vars) (hv : v ∈ vars) :
    fill vars (v.placeholder ++ cs) = v.text.toList ++ fill vars cs := by
  have hfound : (vars.find? fun w => w.placeholder.isPrefixOf (v.placeholder ++ cs)) = some v := by
    cases hfind : vars.find? fun w => w.placeholder.isPrefixOf (v.placeholder ++ cs) with
    | some w =>
      have hfirst := List.find?_some hfind
      rw [apart.eq_of_prefix hv (List.mem_of_find?_eq_some hfind)
        (List.isPrefixOf_iff_prefix.mp hfirst)]
    | none =>
      exact absurd (List.isPrefixOf_iff_prefix.mpr (List.prefix_append _ _))
        (List.find?_eq_none.mp hfind v hv)
  have hskip := @fillFrom_append vars cs (v.name.toList ++ ['\x7d'])
  rw [Variable.placeholder, List.cons_append, List.cons_append, fill, fillFrom]
  rw [Variable.placeholder, List.cons_append, List.cons_append] at hfound
  rw [hfound]
  exact congrArg (v.text.toList ++ ·) hskip

theorem fill_cons {c : Char} (h : opens vars (c :: cs) = false) :
    fill vars (c :: cs) = c :: fill vars cs := by
  have hnone : (vars.find? fun v => v.placeholder.isPrefixOf (c :: cs)) = none := by
    rw [List.find?_eq_none]
    exact List.any_eq_false.mp h
  rw [fill, fillFrom, hnone]
  rfl

theorem opens_cons_of_ne {c : Char} (h : c ≠ '\x7b') : opens vars (c :: cs) = false := by
  rw [← Bool.not_eq_true, opens_iff]
  rintro ⟨v, -, hprefix⟩
  exact h (List.cons_prefix_cons.mp hprefix).1.symm

/-- Nothing is put in where no brace opens. -/
theorem fill_append_of_not_mem {piece : List Char} (h : '\x7b' ∉ piece) :
    fill vars (piece ++ cs) = piece ++ fill vars cs := by
  induction piece with
  | nil => rfl
  | cons c piece ih =>
    rw [List.mem_cons, not_or] at h
    rw [List.cons_append, fill_cons (opens_cons_of_ne (Ne.symm h.1)), ih h.2, List.cons_append]

theorem fill_nil (cs : List Char) : fill [] cs = cs := by
  induction cs with
  | nil => rfl
  | cons c cs ih => rw [fill_cons rfl, ih]

/-- An address is gone through by its placeholders, and by its characters where there are none. -/
@[elab_as_elim]
theorem fill_induction (vars : List Variable) {P : List Char → Prop} (nil : P [])
    (placeholder : ∀ v ∈ vars, ∀ cs, P cs → P (v.placeholder ++ cs))
    (char : ∀ c cs, opens vars (c :: cs) = false → P cs → P (c :: cs)) (cs : List Char) : P cs := by
  induction hn : cs.length using Nat.strongRecOn generalizing cs with
  | ind n ih =>
    cases cs with
    | nil => exact nil
    | cons c rest =>
      rw [List.length_cons] at hn
      by_cases hopens : opens vars (c :: rest) = true
      · obtain ⟨v, hv, tail, htail⟩ := opens_iff.mp hopens
        have hlen := congrArg List.length htail
        rw [List.length_append, List.length_cons, Variable.placeholder, List.length_append,
          List.length_cons] at hlen
        rw [← htail]
        exact placeholder v hv tail (ih tail.length (by omega) tail rfl)
      · rw [Bool.not_eq_true] at hopens
        exact char c rest hopens (ih rest.length (by omega) rest rfl)

/-- The order of the variables is of no account. -/
theorem fill_eq_of_perm (apart : Apart vars) (perm : vars'.Perm vars) (cs : List Char) :
    fill vars' cs = fill vars cs := by
  have apart' : Apart vars' := apart.of_subperm perm.subperm
  induction cs using fill_induction vars with
  | nil => rfl
  | placeholder v hv cs ih =>
    rw [fill_placeholder apart' (perm.mem_iff.mpr hv), fill_placeholder apart hv, ih]
  | char c cs hopens ih =>
    have hopens' : opens vars' (c :: cs) = false := by
      rw [← hopens]
      exact perm.any_eq
    rw [fill_cons hopens', fill_cons hopens, ih]

/-! ### Putting in one after the other -/

theorem Separate.of_subperm (separate : Separate vars cs) (h : vars'.Subperm vars) :
    Separate vars' cs where
  toApart := separate.toApart.of_subperm h
  texts v hv := isSettled_of_subset h.subset (separate.texts v (h.subset hv))
  unnested := nests_of_subset h.subset separate.unnested

theorem opens_cons_of_dropWhile {c : Char}
    (h : opens vars ((c :: cs).dropWhile (!isBrace ·)) = false) : opens vars (c :: cs) = false := by
  by_cases hc : c = '\x7b'
  · rwa [hc] at h ⊢
  · exact opens_cons_of_ne hc

/-- A name that ends after variables have been put in was there before, if none of them was put in
at a place before its end. -/
theorem prefix_of_prefix_fill {name : List Char} (hname : ∀ c ∈ name, isBrace c = false)
    (hopens : opens vars (cs.dropWhile (!isBrace ·)) = false)
    (h : name ++ ['\x7d'] <+: fill vars cs) : name ++ ['\x7d'] <+: cs := by
  induction name generalizing cs with
  | nil =>
    cases cs with
    | nil => exact h
    | cons c cs =>
      rw [fill_cons (opens_cons_of_dropWhile hopens), List.nil_append, List.cons_prefix_cons] at h
      rw [List.nil_append, List.cons_prefix_cons]
      exact ⟨h.1, List.nil_prefix⟩
  | cons x name ih =>
    rw [List.forall_mem_cons] at hname
    cases cs with
    | nil => exact h
    | cons c cs =>
      rw [fill_cons (opens_cons_of_dropWhile hopens), List.cons_append, List.cons_prefix_cons] at h
      obtain ⟨rfl, h⟩ := h
      rw [List.dropWhile_cons, hname.1] at hopens
      rw [List.cons_append, List.cons_prefix_cons]
      exact ⟨rfl, ih hname.2 hopens h⟩

/-- Where there was no placeholder, there is none after other variables have been put in. -/
theorem not_prefix_cons_fill {c : Char} (hname : ∀ d ∈ v.name.toList, isBrace d = false)
    (hnests : nests vars (c :: cs) = false) (h : ¬ v.placeholder <+: c :: cs) :
    ¬ v.placeholder <+: c :: fill vars cs := by
  intro hprefix
  rw [Variable.placeholder, List.cons_append, List.cons_prefix_cons] at hprefix h
  obtain ⟨rfl, hprefix⟩ := hprefix
  rw [nests, Bool.or_eq_false_iff] at hnests
  exact h ⟨rfl, prefix_of_prefix_fill hname hnests.1 hprefix⟩

/-- Nothing is found in a text that no placeholder begins in. -/
theorem replace_append_of_isSettled (apart : Apart vars) (hv : v ∈ vars) {piece new : List Char}
    (h : isSettled vars piece = true) : Text.replace v.placeholder new (piece ++ cs) =
      piece ++ Text.replace v.placeholder new cs := by
  induction piece with
  | nil => rfl
  | cons c piece ih =>
    rw [isSettled, Bool.and_eq_true, Bool.or_eq_true, Bool.and_eq_true, Bool.not_eq_true',
      bne_iff_ne] at h
    have hnone : ¬ v.placeholder <+: c :: (piece ++ cs) := by
      intro hprefix
      rw [Variable.placeholder, List.cons_append, List.cons_prefix_cons] at hprefix
      obtain ⟨rfl, hprefix⟩ := hprefix
      obtain ⟨hclosed, hopens⟩ := h.1.resolve_left fun hne => hne rfl
      obtain ⟨brace, hmem, hbrace⟩ := List.any_eq_true.mp hclosed
      -- The name ends in this text, because it cannot go on behind the brace.
      have hinside : v.name.toList ++ ['\x7d'] <+: piece := by
        obtain hlong | hlong := List.prefix_or_prefix_of_prefix hprefix (List.prefix_append piece cs)
        · exact hlong
        · obtain heq | hshort := List.prefix_concat_iff.mp hlong
          · rw [heq]
          · exact absurd (hshort.subset hmem) (apart.not_mem_name hv hbrace)
      rw [← Bool.not_eq_true, opens_iff] at hopens
      exact hopens ⟨v, hv, List.cons_prefix_cons.mpr ⟨rfl, hinside⟩⟩
    rw [List.cons_append, Text.replace_cons (List.isPrefixOf_iff_prefix.not.mpr hnone), ih h.2,
      List.cons_append]

/-- A placeholder of another variable stays. -/
theorem fill_placeholder_of_not_mem (apart : Apart (vars ++ [v])) :
    fill vars (v.placeholder ++ cs) = v.placeholder ++ fill vars cs := by
  have hlast : v ∈ vars ++ [v] := List.mem_append_right vars List.mem_cons_self
  have hother : opens vars (v.placeholder ++ cs) = false := by
    rw [← Bool.not_eq_true, opens_iff]
    rintro ⟨w, hw, hprefix⟩
    have heq := apart.eq_of_prefix hlast (List.mem_append_left [v] hw) hprefix
    have hdistinct := apart.distinct
    rw [List.map_append, List.nodup_append] at hdistinct
    exact hdistinct.2.2 _ (List.mem_map_of_mem hw) _ List.mem_cons_self (congrArg _ heq)
  have hclosed : '\x7b' ∉ v.name.toList ++ ['\x7d'] := by
    rw [List.mem_append, not_or]
    exact ⟨apart.not_mem_name hlast rfl, by decide⟩
  rw [Variable.placeholder, List.cons_append, List.cons_append] at hother ⊢
  rw [fill_cons hother, fill_append_of_not_mem hclosed]
  rfl

/-- One more variable: to search an address that is filled with the others is to fill it with all. -/
theorem replace_fill (separate : Separate (vars ++ [v]) cs) :
    Text.replace v.placeholder v.text.toList (fill vars cs) = fill (vars ++ [v]) cs := by
  have apart := separate.toApart
  have hsub : vars.Subperm (vars ++ [v]) := (List.sublist_append_left vars [v]).subperm
  have hlast : v ∈ vars ++ [v] := List.mem_append_right vars List.mem_cons_self
  have hnests := (separate.of_subperm hsub).unnested
  induction cs using fill_induction (vars ++ [v]) with
  | nil => rfl
  | placeholder w hw cs ih =>
    have hrest := nests_append separate.unnested
    rw [fill_placeholder apart hw, ← ih ⟨apart, separate.texts, hrest⟩ (nests_append hnests)]
    obtain hw | hw := List.mem_append.mp hw
    · rw [fill_placeholder (apart.of_subperm hsub) hw]
      exact replace_append_of_isSettled apart hlast (separate.texts w (List.mem_append_left [v] hw))
    · rw [List.mem_singleton.mp hw, fill_placeholder_of_not_mem apart]
      exact Text.replace_append (List.cons_ne_nil _ _)
  | char c cs hopens ih =>
    have hrest : nests (vars ++ [v]) cs = false := @nests_append _ _ [c] separate.unnested
    have hboth : opens vars (c :: cs) = false ∧ ¬ v.placeholder <+: c :: cs := by
      simp only [← Bool.not_eq_true, opens_iff] at hopens ⊢
      exact ⟨fun ⟨w, hw, h⟩ => hopens ⟨w, List.mem_append_left [v] hw, h⟩,
        fun h => hopens ⟨v, hlast, h⟩⟩
    have hnone := not_prefix_cons_fill (apart.names v hlast) hnests hboth.2
    rw [fill_cons hopens, fill_cons hboth.1,
      Text.replace_cons (List.isPrefixOf_iff_prefix.not.mpr hnone),
      ih ⟨apart, separate.texts, hrest⟩ (@nests_append _ _ [c] hnests)]

/-- All variables one after the other. -/
theorem foldl_replace_fill (more : List Variable) (separate : Separate (vars ++ more) cs) :
    more.foldl (fun url v => Text.replace v.placeholder v.text.toList url) (fill vars cs) =
      fill (vars ++ more) cs := by
  induction more generalizing vars with
  | nil => rw [List.append_nil, List.foldl_nil]
  | cons v more ih =>
    have hassoc : vars ++ v :: more = vars ++ [v] ++ more := by rw [List.append_assoc]; rfl
    rw [hassoc] at separate ⊢
    have hfirst := separate.of_subperm (List.sublist_append_left (vars ++ [v]) more).subperm
    rw [List.foldl_cons, replace_fill hfirst, ih separate]

end

/-! ### The address of the first server -/

section
variable {root slots : Entries} {url : String} {vars : List Variable}

/-- Whether the entries of a map declare variables, in their order. -/
def Declares (slots : Entries) (vars : List Variable) : Prop :=
  List.Forall₂ (fun slot v => slot.1.written = .ok v.name ∧ variableText slot.2 = .ok v.text)
    slots vars

/-- Whether the first server of a description has an address and a map of variables. -/
def FirstServer (root : Entries) (url : String) (slots : Entries) : Prop :=
  ∃ server rest, member "servers" root = .list (.map server :: rest) ∧
    member "url" server = .str url ∧ member "variables" server = .map slots

/-- An address without the slashes at its end. -/
def bare (url : List Char) : String := String.ofList (Text.dropRightWhile (· == '/') url)

theorem substitute_eq (declares : Declares slots vars) (url : List Char) :
    substitute url slots =
      .ok (vars.foldl (fun url v => Text.replace v.placeholder v.text.toList url) url) := by
  unfold substitute
  induction declares generalizing url with
  | nil => rfl
  | @cons slot v slots vars hslot _ ih =>
    rw [List.foldlM_cons, List.foldl_cons]
    dsimp only
    rw [hslot.1, hslot.2]
    exact ih _

theorem orElse_str (s : String) : orElse (.str s) (.str "") = .str s := by
  by_cases h : s = ""
  · rw [h]
    rfl
  · exact if_pos (by simpa [Node.isTruthy] using h)

theorem orElse_map (entries : Entries) : orElse (.map entries) (.map []) = .map entries := by
  cases entries <;> rfl

theorem server_eq_substitute (first : FirstServer root url slots) :
    Dialect.server .v3 (.map root) = (substitute url.toList slots).map bare := by
  obtain ⟨server, rest, hservers, hurl, hvariables⟩ := first
  have hserver : Dialect.server .v3 (.map root) = addressV3 root >>= withoutSlashes := rfl
  have haddress : addressV3 root = addressOf server := by
    rw [addressV3_eq, hservers]
    rfl
  rw [hserver, haddress, addressOf, hurl, hvariables, orElse_str, orElse_map]
  cases slots with
  | nil => rfl
  | cons slot slots =>
    show ((substitute url.toList (slot :: slots) >>= fun text =>
      pure (.str (String.ofList text))) >>= withoutSlashes) = _
    cases substitute url.toList (slot :: slots) with
    | ok text =>
      show withoutSlashes (.str (String.ofList text)) = .ok (bare text)
      rw [withoutSlashes, String.toList_ofList, bare]
    | error failure => rfl

theorem server_eq_of_separate (first : FirstServer root url slots) (declares : Declares slots vars)
    (separate : Separate vars url.toList) :
    Dialect.server .v3 (.map root) = .ok (bare (fill vars url.toList)) := by
  have hfold := @foldl_replace_fill [] url.toList vars separate
  rw [fill_nil] at hfold
  rw [server_eq_substitute first, substitute_eq declares, hfold]
  rfl

/-- The address of the first server is the declared one with the texts of its variables put in at
once, if they can be kept apart, and in whatever order they are declared. -/
theorem server_eq_fill (first : FirstServer root url slots) (declares : Declares slots vars)
    (separate : Separate vars url.toList) :
    Dialect.server .v3 (.map root) = .ok (bare (fill vars url.toList)) ∧
      ∀ root' slots', FirstServer root' url slots' → slots'.Perm slots →
        Dialect.server .v3 (.map root') = Dialect.server .v3 (.map root) := by
  have hserver := server_eq_of_separate first declares separate
  refine ⟨hserver, fun root' slots' first' perm => ?_⟩
  obtain ⟨vars', declares', perm'⟩ := List.perm_comp_forall₂ perm declares
  have separate' := separate.of_subperm perm'.subperm
  rw [hserver, server_eq_of_separate first' declares' separate',
    fill_eq_of_perm separate.toApart perm']

/-- The entries that declare variables by their defaults. -/
def slotsOf (vars : List Variable) : Entries :=
  vars.map fun v => (.str v.name, .map [(.str "default", .str v.text)])

/-- A description that says nothing but where its server is. -/
def describe (url : String) (slots : Entries) : Entries :=
  [(.str "servers", .list [.map [(.str "url", .str url), (.str "variables", .map slots)]])]

theorem declares_slotsOf (vars : List Variable) : Declares (slotsOf vars) vars :=
  List.forall₂_map_left_iff.mpr (List.forall₂_same.mpr fun _ _ => ⟨rfl, rfl⟩)

theorem firstServer_describe (url : String) (slots : Entries) :
    FirstServer (describe url slots) url slots :=
  ⟨_, _, rfl, rfl, rfl⟩

def regionUrl : String := "https://\x7bregion\x7d.example.com/\x7bversion\x7d/"

def regionVariables : List Variable := [⟨"region", "eu"⟩, ⟨"version", "v2"⟩]

theorem separate_regionVariables : Separate regionVariables regionUrl.toList where
  distinct := by decide
  names := by simp [regionVariables, isBrace]
  texts := by decide +kernel
  unnested := by decide +kernel

theorem server_eq_fill_region :
    Dialect.server .v3 (.map (describe regionUrl (slotsOf regionVariables))) =
        .ok "https://eu.example.com/v2" ∧
      Dialect.server .v3 (.map (describe regionUrl (slotsOf regionVariables.reverse))) =
        .ok "https://eu.example.com/v2" := by
  have hserver := server_eq_fill (firstServer_describe regionUrl (slotsOf regionVariables))
    (declares_slotsOf regionVariables) separate_regionVariables
  have hbare : bare (fill regionVariables regionUrl.toList) = "https://eu.example.com/v2" := by
    decide +kernel
  have hperm : (slotsOf regionVariables.reverse).Perm (slotsOf regionVariables) :=
    (List.reverse_perm regionVariables).map _
  rw [hserver.2 _ _ (firstServer_describe regionUrl _) hperm, hserver.1, hbare]
  exact ⟨rfl, rfl⟩

def hostUrl : String := "https://\x7bhost\x7d/"

/-- The text of the first variable names the second one. -/
def hostVariables : List Variable := [⟨"host", "\x7bregion\x7d.example.com"⟩, ⟨"region", "eu"⟩]

/-- Not if a text brings in a name: the variable of that name comes after it, and is put in too. -/
theorem not_server_eq_fill : ¬ ∀ (root : Entries) (url : String) (slots : Entries)
    (vars : List Variable), FirstServer root url slots → Declares slots vars → Apart vars →
      Dialect.server .v3 (.map root) = .ok (bare (fill vars url.toList)) := by
  intro h
  have apart : Apart hostVariables := ⟨by decide, by simp [hostVariables, isBrace]⟩
  have declares := declares_slotsOf hostVariables
  have first := firstServer_describe hostUrl (slotsOf hostVariables)
  have hserver := h _ _ _ _ first declares apart
  rw [server_eq_substitute first, substitute_eq declares] at hserver
  have hdiffers : bare (hostVariables.foldl (fun url v =>
      Text.replace v.placeholder v.text.toList url) hostUrl.toList) ≠
        bare (fill hostVariables hostUrl.toList) := by
    decide +kernel
  exact hdiffers (Except.ok.inj hserver)

end

end OpenApi.Dialect
