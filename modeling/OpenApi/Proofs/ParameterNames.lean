import OpenApi.Proofs.CamelCase
import OpenApi.Proofs.DeclaredParameters
import OpenApi.Proofs.DefinitionNames
import OpenApi.Proofs.ModelSources

/-
Names of parameters in code.

The parameters of an operation are told apart by their names in a request and their locations, and
in code by a name that is made of the former alone.  It is an identifier and no reserved word
whenever anything is left of the name in the request, that is, if this has a letter or ends in
brackets, which are spelled out (`ofParameter_ne_empty_iff`).  Parameters share a name in code when
what they are called in a request spells the same in camel case (`ofParameter_eq_iff`), wherever they
are located.

So the parameters of an operation are well named (`Operation.NamesParameters`) exactly when each of
them has such a name and no two different ones spell the same.
-/
namespace OpenApi

namespace Name

/-- A letter or underscore, and then letters, digits and underscores. -/
structure IsIdentifier (s : String) : Prop where
  head : ∃ c rest, s.toList = c :: rest ∧ (c.isAlpha = true ∨ c = '_')
  tail : ∀ c ∈ s.toList, c.isAlphanum = true ∨ c = '_'

/-- Whether a text ends in brackets, or in brackets and a line break. -/
def EndsInBrackets (cs : List Char) : Prop :=
  ∃ front, cs = front ++ ['[', ']'] ∨ cs = front ++ ['[', ']', '\n']

/-- Whether a name in a request has letters, of its own or for its brackets. -/
def IsNameable (wire : String) : Prop :=
  (∃ c ∈ wire.toList, c.isAlpha = true) ∨ EndsInBrackets wire.toList

/-- The letters and digits of a name in a request from its first letter on, in small letters and
with brackets spelled out, where letters that begin words are marked. -/
def spelling (wire : String) : List (Bool × Char) :=
  spell (fromLetter (spellOutBrackets wire.toList))

/-! ### Brackets -/

theorem exists_isAlpha_spellOutBrackets (cs : List Char) :
    (∃ c ∈ spellOutBrackets cs, c.isAlpha = true) ↔
      (∃ c ∈ cs, c.isAlpha = true) ∨ EndsInBrackets cs := by
  unfold spellOutBrackets
  split
  · rename_i rest hcs
    have hends : cs = rest.reverse ++ ['[', ']'] := by
      rw [← cs.reverse_reverse, hcs]
      simp
    refine iff_of_true ⟨'a', ?_, by decide⟩ (.inr ⟨rest.reverse, .inl hends⟩)
    exact List.mem_append_right _ (by decide)
  · rename_i rest hcs
    have hends : cs = rest.reverse ++ ['[', ']', '\n'] := by
      rw [← cs.reverse_reverse, hcs]
      simp
    refine iff_of_true ⟨'a', ?_, by decide⟩ (.inr ⟨rest.reverse, .inr hends⟩)
    exact List.mem_append_right _ (by decide)
  · rename_i hplain hbreak
    refine ⟨.inl, fun h => h.resolve_right ?_⟩
    rintro ⟨front, rfl | rfl⟩
    · exact hplain front.reverse (by simp)
    · exact hbreak front.reverse (by simp)

/-! ### Names -/

/-- The name of a parameter in code, before reserved words are avoided. -/
def plainName (wire : String) : String :=
  String.ofList (camelChars .lower (fromLetter (spellOutBrackets wire.toList)))

theorem ofParameter_eq (wire : String) : ofParameter wire = avoidReserved (plainName wire) := by
  rw [ofParameter, camelChars_hyphenated, plainName]

theorem isAlphanum_of_mem_plainName {wire : String} {c : Char} (h : c ∈ (plainName wire).toList) :
    c.isAlphanum = true := by
  rw [plainName, String.toList_ofList] at h
  exact isAlphanum_of_mem_camelChars_lower h

theorem plainName_ne_append {wire : String} (s : String) : plainName wire ≠ s ++ "_" := by
  intro h
  have hmem : '_' ∈ (plainName wire).toList := by
    rw [h, String.toList_append]
    exact List.mem_append_right _ (by decide)
  exact absurd (isAlphanum_of_mem_plainName hmem) (by decide)

/-- What is left of a name begins with a letter. -/
theorem exists_plainName {wire : String} (h : IsNameable wire) :
    ∃ c rest, (plainName wire).toList = c :: rest ∧ c.isAlpha = true := by
  have hletter := (exists_isAlpha_spellOutBrackets wire.toList).mpr h
  rw [plainName, String.toList_ofList]
  cases hcs : fromLetter (spellOutBrackets wire.toList) with
  | nil =>
    obtain ⟨c, hc, halpha⟩ := hletter
    rw [fromLetter_eq_nil_iff.mp hcs c hc] at halpha
    cases halpha
  | cons c rest =>
    have halpha : c.isAlpha = true := letterFirst_fromLetter _ c (by rw [hcs]; rfl)
    obtain ⟨more, hmore⟩ := exists_camelChars_lower halpha rest
    exact ⟨c.toLower, more, hmore, by simpa using halpha⟩

theorem plainName_of_not_isNameable {wire : String} (h : ¬ IsNameable wire) :
    plainName wire = "" := by
  have hnone : fromLetter (spellOutBrackets wire.toList) = [] := by
    refine fromLetter_eq_nil_iff.mpr fun c hc => ?_
    by_contra halpha
    exact h ((exists_isAlpha_spellOutBrackets _).mp ⟨c, hc, by simpa using halpha⟩)
  rw [plainName, hnone]
  rfl

/-- A name in code is lost exactly when the name in the request has no letters. -/
theorem ofParameter_ne_empty_iff {wire : String} : ofParameter wire ≠ "" ↔ IsNameable wire := by
  rw [ofParameter_eq]
  constructor
  · intro h
    by_contra hnot
    rw [plainName_of_not_isNameable hnot] at h
    exact h (by decide)
  · intro h hempty
    obtain ⟨c, rest, hcs, -⟩ := exists_plainName h
    unfold avoidReserved at hempty
    split at hempty
    · have hlast := congrArg String.toList hempty
      simp at hlast
    · rw [hempty] at hcs
      cases hcs

theorem avoidReserved_not_mem_reserved (s : String) : avoidReserved s ∉ reserved := by
  unfold avoidReserved
  split
  · rename_i hs
    exact append_not_mem_reserved s hs
  · assumption

/-- Whatever is left of a name is an identifier. -/
theorem isIdentifier_ofParameter {wire : String} (h : IsNameable wire) :
    IsIdentifier (ofParameter wire) := by
  obtain ⟨c, rest, hcs, halpha⟩ := exists_plainName h
  have htail : ∀ d ∈ (plainName wire).toList, d.isAlphanum = true ∨ d = '_' :=
    fun d hd => .inl (isAlphanum_of_mem_plainName hd)
  rw [ofParameter_eq]
  unfold avoidReserved
  split
  · have happend : (plainName wire ++ "_").toList = c :: (rest ++ ['_']) := by
      rw [String.toList_append, hcs]
      rfl
    refine ⟨⟨c, _, happend, .inl halpha⟩, fun d hd => ?_⟩
    rw [String.toList_append] at hd
    rcases List.mem_append.mp hd with hd | hd
    · exact htail d hd
    · exact .inr (List.mem_singleton.mp hd)
  · exact ⟨⟨c, rest, hcs, .inl halpha⟩, htail⟩

/-- Two parameters have one name in code exactly when their names in a request spell the same. -/
theorem ofParameter_eq_iff {wire wire' : String} :
    ofParameter wire = ofParameter wire' ↔ spelling wire = spelling wire' := by
  have hplain : avoidReserved (plainName wire) = avoidReserved (plainName wire') ↔
      plainName wire = plainName wire' := by
    rw [avoidReserved_eq_iff]
    refine ⟨fun h => ?_, .inl⟩
    rcases h with h | ⟨-, h⟩ | ⟨-, h⟩
    · exact h
    · exact absurd h (plainName_ne_append _)
    · exact absurd h (plainName_ne_append _)
  rw [ofParameter_eq, ofParameter_eq, hplain, plainName, plainName, String.ofList_inj,
    camelChars_lower_inj (letterFirst_fromLetter _) (letterFirst_fromLetter _), spelling, spelling]

end Name

/-! ### The parameters of an operation -/

namespace Operation

/-- Whether the parameters of an operation have names that code can use: identifiers, none of them
reserved, and different ones for parameters of different names in a request or locations. -/
structure NamesParameters (operation : Operation) : Prop where
  usable : ∀ p ∈ operation.parameters,
    p.name ≠ "" ∧ Name.IsIdentifier p.name ∧ p.name ∉ Name.reserved
  distinct : operation.parameters.Pairwise fun p q =>
    p.wireName ≠ q.wireName ∨ p.location ≠ q.location → p.name ≠ q.name

end Operation

theorem Parameter.name_of_buildBody? {shop : Workshop} {node : Node} {body : Parameter}
    (h : buildBody? shop node = .ok (some body)) : body.name = Name.ofParameter body.wireName := by
  have hof (target : Node) (mediaType : Option String) (model : Model) :
      (ofBody target mediaType model).name =
        Name.ofParameter (ofBody target mediaType model).wireName := by
    have hnames : ∀ name ∈ ["formData", "requestBody"], name = Name.ofParameter name := by
      decide +kernel
    refine hnames (ofBody target mediaType model).wireName ?_
    unfold ofBody
    dsimp only
    split <;> decide
  obtain ⟨target, _, h⟩ := Except.bind_eq_ok_iff.mp h
  split at h
  · cases h
  · obtain ⟨choice, _, h⟩ := Except.bind_eq_ok_iff.mp h
    split at h
    · obtain ⟨model, _, h⟩ := Except.bind_eq_ok_iff.mp h
      cases h
      exact hof _ _ _
    · cases h
      exact hof _ _ _

theorem Parameter.Declares.name {shop : Workshop} {nodes : List Node} {declared : List Parameter}
    (h : Declares shop nodes declared) : ∀ p ∈ declared, p.name = Name.ofParameter p.wireName := by
  induction h with
  | nil => exact nofun
  | unknown _ _ ih => exact ih
  | excluded _ _ _ ih => exact ih
  | kept built _ _ ih => exact List.forall_mem_cons.mpr ⟨(names_of_build? built).2, ih⟩

namespace OperationEntry

variable {shop : Workshop} {entry : OperationEntry} {operation : Operation}

/-- Every parameter of an operation is named after its name in a request, the body included. -/
theorem name_of_mem_parameters (h : (entry.build shop).operation = .ok operation) :
    ∀ p ∈ operation.parameters, p.name = Name.ofParameter p.wireName := by
  obtain ⟨path, declared, body, responses, -, hdeclared, hbody, -, rfl⟩ := exists_assemble_of_build h
  intro p hp
  rcases List.mem_append.mp (Parameter.mem_indispensableFirst.mp hp) with hp | hp
  · exact hdeclared.name p hp
  · obtain rfl := Option.mem_toList.mp hp
    obtain ⟨node, _, hmade⟩ := exists_node_of_body? hbody
    exact Parameter.name_of_buildBody? hmade

/-- The parameters of an operation are well named exactly when all of them have letters in their
names and different ones spell differently. -/
theorem namesParameters_iff (h : (entry.build shop).operation = .ok operation) :
    operation.NamesParameters ↔
      (∀ p ∈ operation.parameters, Name.IsNameable p.wireName) ∧
        operation.parameters.Pairwise fun p q =>
          p.wireName ≠ q.wireName ∨ p.location ≠ q.location →
            Name.spelling p.wireName ≠ Name.spelling q.wireName := by
  have hname := name_of_mem_parameters h
  have hdistinct {p q : Parameter} (hp : p ∈ operation.parameters) (hq : q ∈ operation.parameters) :
      p.name ≠ q.name ↔ Name.spelling p.wireName ≠ Name.spelling q.wireName := by
    rw [hname p hp, hname q hq, ne_eq, Name.ofParameter_eq_iff]
  constructor
  · intro hnames
    constructor
    · intro p hp
      have hne := (hnames.usable p hp).1
      rwa [hname p hp, Name.ofParameter_ne_empty_iff] at hne
    · refine hnames.distinct.imp_of_mem fun hp hq hpq hdiffer => ?_
      exact (hdistinct hp hq).mp (hpq hdiffer)
  · rintro ⟨hnameable, hspelled⟩
    constructor
    · intro p hp
      have hword := hnameable p hp
      rw [hname p hp]
      exact ⟨Name.ofParameter_ne_empty_iff.mpr hword, Name.isIdentifier_ofParameter hword,
        by rw [Name.ofParameter_eq]; exact Name.avoidReserved_not_mem_reserved _⟩
    · refine hspelled.imp_of_mem fun hp hq hpq hdiffer => ?_
      exact (hdistinct hp hq).mpr (hpq hdiffer)

/-- An operation with parameters of its path and a body. -/
def updateEntry (parameters : List (String × String)) : OperationEntry where
  path := .str "/pets"
  method := "put"
  tag := "pets"
  node := .map
    [(.str "parameters", .list (parameters.map fun (name, location) => .map
        [(.str "name", .str name), (.str "in", .str location)])),
      (.str "requestBody", .map [])]
  pathParameters := []

/-- What tells the parameters of an operation apart. -/
def parameterNames (operation : Operation) : List (String × Location × String) :=
  operation.parameters.map fun p => (p.wireName, p.location, p.name)

theorem parameterNames_wellNamed :
    ((updateEntry [("petId", "path"), ("pet[]", "query"), ("class", "header")]).build
      ⟨⟨.map [], .v3⟩, {}⟩).operation.toOption.map parameterNames =
        some [("petId", .path, "petId"), ("pet[]", .query, "petArray"),
          ("class", .header, "class_"), ("requestBody", .body, "requestBody")] := by
  delta build finish Parameter.buildAll Parameter.build? body? Parameter.buildBody?
    Response.buildAll Response.ofMember? Response.build
  rw [Schema.build_eq fun _ => .error (.malformed .endless)]
  decide +kernel

theorem namesParameters_wellNamed : ∃ operation,
    ((updateEntry [("petId", "path"), ("pet[]", "query"), ("class", "header")]).build
      ⟨⟨.map [], .v3⟩, {}⟩).operation = .ok operation ∧ operation.NamesParameters := by
  obtain ⟨operation, hbuilt, hnames⟩ := Except.exists_of_toOption_map parameterNames_wellNamed
  have hwire : operation.parameters.map (·.wireName) =
      ["petId", "pet[]", "class", "requestBody"] := by
    have hfirst := congrArg (List.map Prod.fst) hnames
    rwa [parameterNames, List.map_map] at hfirst
  refine ⟨operation, hbuilt, (namesParameters_iff hbuilt).mpr ⟨fun p hp => .inl ?_, ?_⟩⟩
  · have hall : (["petId", "pet[]", "class", "requestBody"].all fun wire =>
        wire.toList.any Char.isAlpha) = true := by decide +kernel
    rw [← hwire] at hall
    exact List.any_eq_true.mp (List.all_eq_true.mp hall _ (List.mem_map_of_mem hp))
  · have hall : ["petId", "pet[]", "class", "requestBody"].Pairwise fun wire wire' =>
        Name.spelling wire ≠ Name.spelling wire' := by decide +kernel
    rw [← hwire, List.pairwise_map] at hall
    refine hall.imp ?_
    intro p q hspelled _
    exact hspelled

theorem parameterNames_lost :
    ((updateEntry [("id", "path"), ("id", "query"), ("1", "query")]).build
      ⟨⟨.map [], .v3⟩, {}⟩).operation.toOption.map parameterNames =
        some [("id", .path, "id"), ("id", .query, "id"), ("1", .query, ""),
          ("requestBody", .body, "requestBody")] := by
  delta build finish Parameter.buildAll Parameter.build? body? Parameter.buildBody?
    Response.buildAll Response.ofMember? Response.build
  rw [Schema.build_eq fun _ => .error (.malformed .endless)]
  decide +kernel

/-- A name of digits is lost, and one name in two locations is given to two parameters. -/
theorem not_namesParameters : ¬ ∀ (shop : Workshop) (entry : OperationEntry)
    (operation : Operation), (entry.build shop).operation = .ok operation →
      operation.NamesParameters := by
  intro hall
  obtain ⟨operation, hbuilt, hnames⟩ := Except.exists_of_toOption_map parameterNames_lost
  have hlost : ("1", .query, "") ∈ parameterNames operation := by
    rw [hnames]
    decide
  obtain ⟨p, hp, heq⟩ := List.mem_map.mp hlost
  have hempty : p.name = "" := congrArg (fun names => names.2.2) heq
  exact ((hall _ _ _ hbuilt).usable p hp).1 hempty

end OperationEntry
end OpenApi
