import OpenApi.Proofs.CamelCase
import OpenApi.Proofs.DeclaredParameters
import OpenApi.Proofs.Inventory
import OpenApi.Proofs.ShortestText

/-
Services and operations have names that code can use.

Tags and operation ids are free text.  What a name begins with is cut off up to the first letter, so
camel case gives a name exactly where the text has a letter (`isCamel_inCamelCase_iff`), and nothing
where it has none.  Then a service is named after the default tag, and an operation after its
method, which is a word.  So a default tag with a letter is all that names depend on
(`isCamel_serviceFor_iff`).

Nothing that is done to a service later spoils a name: filing gives a new service the name that its
operation has for it, and the number that sets namesakes apart is made of digits and stands at the
end (`isCamel_numbered`).
-/
namespace OpenApi

namespace Name

/-! ### Names in camel case -/

/-- The letters that a name in camel case begins with. -/
def Case.isFirst : Case → Char → Bool
  | .lower => Char.isLower
  | .upper => Char.isUpper

/-- Whether a name is a letter of the right case, followed by letters and digits only. -/
def isCamel (case : Case) (name : String) : Bool :=
  match name.toList with
  | [] => false
  | first :: rest => case.isFirst first && rest.all Char.isAlphanum

theorem isCamel_iff {case : Case} {name : String} : isCamel case name = true ↔
    ∃ first rest, name.toList = first :: rest ∧ case.isFirst first = true ∧
      ∀ c ∈ rest, c.isAlphanum = true := by
  unfold isCamel
  cases hname : name.toList with
  | nil => simp
  | cons first rest => simp

theorem ne_empty_of_isCamel {case : Case} {name : String} (h : isCamel case name = true) :
    name ≠ "" := by
  rintro rfl
  cases case <;> cases h

/-- What is appended to a name, if it is letters and digits, leaves it a name. -/
theorem isCamel_append {case : Case} {name more : String} (h : isCamel case name = true)
    (hmore : ∀ c ∈ more.toList, c.isAlphanum = true) : isCamel case (name ++ more) = true := by
  obtain ⟨first, rest, hname, hfirst, hrest⟩ := isCamel_iff.mp h
  refine isCamel_iff.mpr ⟨first, rest ++ more.toList, ?_, hfirst, fun c hc => ?_⟩
  · rw [String.toList_append, hname, List.cons_append]
  · rcases List.mem_append.mp hc with hc | hc
    · exact hrest c hc
    · exact hmore c hc

/-! ### Free text in camel case -/

/-- A text in camel case, from its first letter on. -/
def inCamelCase (case : Case) (text : String) : String :=
  String.ofList (camelChars case (hyphenated text.toList))

/-- Whether a text has a letter, so that something can be named after it. -/
def hasLetter (text : String) : Bool := text.toList.any Char.isAlpha

theorem hasLetter_eq_false_iff {text : String} :
    hasLetter text = false ↔ fromLetter text.toList = [] := by
  rw [fromLetter_eq_nil_iff]
  simp only [hasLetter, List.any_eq_false, Bool.not_eq_true]

theorem inCamelCase_eq (case : Case) (text : String) :
    inCamelCase case text = String.ofList (camelChars case (fromLetter text.toList)) := by
  rw [inCamelCase, camelChars_hyphenated]

theorem isFirst_of_camelChars {c : Char} (h : c.isAlpha = true) (case : Case) (rest : List Char) :
    ∃ first more, camelChars case (c :: rest) = first :: more ∧ case.isFirst first = true := by
  cases case with
  | lower =>
    obtain ⟨more, hmore⟩ := exists_camelChars_lower h rest
    refine ⟨c.toLower, more, hmore, ?_⟩
    show c.toLower.isLower = true
    simp [h]
  | upper =>
    obtain ⟨word, others, hwords⟩ := exists_words_cons (isAlphanum_of_isAlpha h) rest
    have hchars : camelChars .upper (c :: rest) =
        c.toUpper :: (word.map Char.toLower ++ others.flatMap capitalize) := by
      rw [camelChars_upper, hwords, List.flatMap_cons, capitalize, List.cons_append]
    refine ⟨c.toUpper, _, hchars, ?_⟩
    show c.toUpper.isUpper = true
    simp [h]

theorem inCamelCase_of_not_hasLetter {text : String} (h : hasLetter text = false) (case : Case) :
    inCamelCase case text = "" := by
  rw [inCamelCase_eq, hasLetter_eq_false_iff.mp h]
  cases case <;> rfl

theorem isCamel_inCamelCase {text : String} (h : hasLetter text = true) (case : Case) :
    isCamel case (inCamelCase case text) = true := by
  cases hfrom : fromLetter text.toList with
  | nil =>
    rw [hasLetter_eq_false_iff.mpr hfrom] at h
    cases h
  | cons c rest =>
    have hletter := letterFirst_fromLetter text.toList
    rw [hfrom] at hletter
    obtain ⟨first, more, hchars, hfirst⟩ := isFirst_of_camelChars (hletter c rfl) case rest
    have hlist : (inCamelCase case text).toList = first :: more := by
      rw [inCamelCase_eq, hfrom, hchars, String.toList_ofList]
    refine isCamel_iff.mpr ⟨first, more, hlist, hfirst, fun d hd => ?_⟩
    have hmem : d ∈ camelChars case (c :: rest) := by
      rw [hchars]
      exact List.mem_cons_of_mem _ hd
    exact isAlphanum_of_mem_camelChars hmem

/-- A text gives a name exactly if it has a letter. -/
theorem isCamel_inCamelCase_iff {case : Case} {text : String} :
    isCamel case (inCamelCase case text) = true ↔ hasLetter text = true := by
  refine ⟨fun h => ?_, fun h => isCamel_inCamelCase h case⟩
  by_contra hnone
  exact ne_empty_of_isCamel h (inCamelCase_of_not_hasLetter (Bool.not_eq_true _ ▸ hnone) case)

theorem ofTag_eq (tag : String) : ofTag tag = inCamelCase .upper tag := rfl

/-- An operation is named after its id or, without one, after its method. -/
theorem exists_ofOperation_eq (id : Option String) (method : String) :
    ∃ source, ofOperation id method = inCamelCase .lower source :=
  ⟨_, rfl⟩

theorem ofOperation_none (method : String) :
    ofOperation none method = inCamelCase .lower method := rfl

end Name

open Name

/-! ### Building -/

namespace OperationEntry

/-- A service has a name exactly if its tag or the default tag has a letter. -/
theorem isCamel_serviceFor_iff {preferences : Preferences} {tag : String} :
    isCamel .upper (serviceFor preferences tag) = true ↔
      hasLetter tag = true ∨ hasLetter preferences.defaultTag = true := by
  rw [serviceFor_eq, declaredService, ofTag_eq, ofTag_eq]
  cases htag : hasLetter tag with
  | true =>
    have hname := isCamel_inCamelCase htag .upper
    simp [hname, ne_empty_of_isCamel hname]
  | false => simp [inCamelCase_of_not_hasLetter htag, isCamel_inCamelCase_iff]

/-- Without a letter in either of them there is no name. -/
example : serviceFor { defaultTag := "1" } "(2)" = "" := by decide +kernel

theorem hasLetter_of_mem_requestMethods {method : String} (h : method ∈ requestMethods) :
    hasLetter method = true := by
  have hall : ∀ method ∈ requestMethods, hasLetter method = true := by decide
  exact hall method h

/-- An operation has a name, whatever its id is. -/
theorem isCamel_nameFor {method : String} (h : method ∈ requestMethods) (node : Node) :
    isCamel .lower (nameFor node method) = true := by
  obtain ⟨source, hsource⟩ := exists_ofOperation_eq (node.get "operationId").str? method
  unfold nameFor
  rw [hsource, ofOperation_none]
  dsimp only
  cases hletter : hasLetter source with
  | true =>
    have hname := isCamel_inCamelCase hletter .lower
    rwa [if_neg fun hempty => ne_empty_of_isCamel hname (String.isEmpty_iff.mp hempty)]
  | false =>
    rw [if_pos (String.isEmpty_iff.mpr (inCamelCase_of_not_hasLetter hletter .lower))]
    exact isCamel_inCamelCase (hasLetter_of_mem_requestMethods h) .lower

theorem method_mem_of_mem_operationEntries {preferences : Preferences} {root : Entries}
    {entry : OperationEntry} (h : entry ∈ operationEntries preferences root) :
    entry.method ∈ requestMethods := by
  unfold operationEntries at h
  split at h
  · obtain ⟨⟨path, item⟩, _, h⟩ := List.mem_flatMap.mp h
    obtain ⟨method, hmethod, h⟩ := List.mem_flatMap.mp h
    dsimp only at h
    split at h
    · obtain ⟨tag, _, rfl⟩ := List.mem_map.mp h
      exact hmethod
    · cases h
  · cases h

end OperationEntry

/-- Whether an operation and its service have names in camel case. -/
structure Operation.WellNamed (operation : Operation) : Prop where
  service : isCamel .upper operation.service = true
  name : isCamel .lower operation.name = true

/-- Whether a service and all its operations have names in camel case. -/
structure Service.WellNamed (service : Service) : Prop where
  name : isCamel .upper service.name = true
  operations : ∀ operation ∈ service.operations, isCamel .lower operation.name = true

theorem OperationEntry.wellNamed_of_build {shop : Workshop} {entry : OperationEntry}
    {operation : Operation} (hletter : hasLetter shop.preferences.defaultTag = true)
    (hmethod : entry.method ∈ requestMethods) (h : (entry.build shop).operation = .ok operation) :
    operation.WellNamed := by
  obtain ⟨path, declared, body, responses, _, _, _, _, rfl⟩ := exists_assemble_of_build h
  constructor
  · dsimp only [assemble]
    exact isCamel_serviceFor_iff.mpr (.inr hletter)
  · dsimp only [assemble]
    exact isCamel_nameFor hmethod entry.node

/-! ### Filing -/

theorem Service.wellNamed_file {operation : Operation} {services : List Service}
    (hoperation : operation.WellNamed) (h : ∀ service ∈ services, service.WellNamed) :
    ∀ service ∈ file operation services, service.WellNamed := by
  induction services with
  | nil =>
    refine List.forall_mem_singleton.mpr ⟨hoperation.service, ?_⟩
    exact List.forall_mem_singleton.mpr hoperation.name
  | cons first rest ih =>
    obtain ⟨hfirst, hrest⟩ := List.forall_mem_cons.mp h
    by_cases hname : first.name = operation.service
    · rw [file_cons_of_eq hname]
      refine List.forall_mem_cons.mpr ⟨⟨hfirst.name, fun o ho => ?_⟩, hrest⟩
      rcases List.mem_append.mp ho with ho | ho
      · exact hfirst.operations o ho
      · rw [List.mem_singleton.mp ho]
        exact hoperation.name
    · rw [file_cons_of_ne hname]
      exact List.forall_mem_cons.mpr ⟨hfirst, ih hrest⟩

theorem wellNamed_collect {shop : Workshop} {services : List Service}
    {entries : List OperationEntry} (hletter : hasLetter shop.preferences.defaultTag = true)
    (hmethods : ∀ entry ∈ entries, entry.method ∈ requestMethods)
    (h : ∀ service ∈ services, service.WellNamed) :
    ∀ service ∈ (collect shop services entries).services, service.WellNamed := by
  induction entries generalizing services with
  | nil => exact h
  | cons entry rest ih =>
    obtain ⟨hmethod, hrest⟩ := List.forall_mem_cons.mp hmethods
    cases hbuilt : (entry.build shop).operation with
    | error failure =>
      rw [(collect_of_error hbuilt services rest).2]
      exact h
    | ok operation =>
      rw [(collect_of_ok hbuilt services rest).2]
      have hoperation := OperationEntry.wellNamed_of_build hletter hmethod hbuilt
      exact ih hrest (Service.wellNamed_file hoperation h)

/-! ### Tidying -/

namespace Operation

theorem isCamel_numbered {case : Case} {name : String} (h : isCamel case name = true)
    (number : Nat) : isCamel case (numbered name number) = true := by
  unfold numbered
  split
  · exact h
  · refine isCamel_append h fun c hc => ?_
    rw [Nat.toString_eq_repr, Nat.toList_repr] at hc
    simp [Char.isAlphanum, Numeral.isDigit_of_mem_toDigits c hc]

theorem isCamel_of_mem_tidyFrom {case : Case} {earlier : List String} {operations : List Operation}
    (h : ∀ operation ∈ operations, isCamel case operation.name = true) :
    ∀ tidied ∈ tidyFrom earlier operations, isCamel case tidied.name = true := by
  induction operations generalizing earlier with
  | nil => exact List.forall_mem_nil _
  | cons first rest ih =>
    obtain ⟨hfirst, hrest⟩ := List.forall_mem_cons.mp h
    exact List.forall_mem_cons.mpr ⟨isCamel_numbered hfirst _, ih hrest⟩

end Operation

theorem Service.WellNamed.tidy {service : Service} (h : service.WellNamed) :
    service.tidy.WellNamed :=
  ⟨h.name, Operation.isCamel_of_mem_tidyFrom h.operations⟩

/-! ### The client -/

namespace Client

/-- All services and operations of a client have names in camel case, whatever the tags and the ids
of operations are, if there is a letter in the default tag. -/
theorem wellNamed_of_resolve {preferences : Preferences} {document : Node} {client : Client}
    (hletter : hasLetter preferences.defaultTag = true)
    (h : (Client.resolve preferences document).client = .ok client) :
    ∀ service ∈ client.services, service.WellNamed := by
  obtain ⟨dialect, root, models, _, made⟩ := exists_madeFrom_of_resolve h
  intro service hservice
  obtain ⟨before, hbefore, rfl⟩ := made.exists_of_mem_services hservice
  have hmethods : ∀ entry ∈ operationEntries preferences root, entry.method ∈ requestMethods :=
    fun _ => OperationEntry.method_mem_of_mem_operationEntries
  have hcollected : ∀ service ∈ (collect ⟨⟨document, dialect⟩, preferences⟩ []
      (operationEntries preferences root)).services, service.WellNamed :=
    wellNamed_collect hletter hmethods (List.forall_mem_nil _)
  exact (hcollected before hbefore).tidy

theorem wellNamed_taggedDocument : ∃ client,
    hasLetter ({} : Preferences).defaultTag = true ∧
      (Client.resolve {} taggedDocument).client = .ok client ∧
        ∀ service ∈ client.services, service.WellNamed := by
  obtain ⟨client, hclient⟩ := Except.exists_of_isOk resolve_taggedDocument
  exact ⟨client, by decide, hclient, wellNamed_of_resolve (by decide) hclient⟩

end Client
end OpenApi
