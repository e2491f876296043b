import OpenApi.Loading
import OpenApi.Proofs.Except
import OpenApi.Proofs.JsonLimits
import OpenApi.Proofs.Utf8

/-
Which sources are loaded, and which are refused with a message.

Whoever names a source is told what is wrong with it: it cannot be reached, holds nothing, is not
well formed or is no map.  What nobody has made provision for is collected in `Overlooked`.  Such
are bytes that are those of no text, and texts in which a value has a form, but no meaning.  All
other sources are loaded or refused (`load_cases`).
-/
namespace OpenApi

namespace Text

theorem dropRightWhile_eq_nil_iff {p : Char → Bool} {cs : List Char} :
    dropRightWhile p cs = [] ↔ ∀ c ∈ cs, p c = true := by
  rw [dropRightWhile, List.reverse_eq_nil_iff, List.dropWhile_eq_nil_iff]
  simp only [List.mem_reverse]

theorem isEmpty_trim_iff {cs : List Char} :
    (trim cs).isEmpty = true ↔ ∀ c ∈ cs, isBlank c = true := by
  rw [List.isEmpty_iff, trim, trimBy, dropRightWhile_eq_nil_iff]
  constructor
  · intro h c hc
    rw [← List.takeWhile_append_dropWhile (p := isBlank) (l := cs), List.mem_append] at hc
    rcases hc with hc | hc
    · exact List.mem_takeWhile_imp hc
    · exact h c hc
  · intro h c hc
    exact h c ((List.dropWhile_sublist _).subset hc)

end Text

theorem Defect.ofJson?_eq_none_iff {fault : Json.Fault} :
    Defect.ofJson? fault = none ↔ fault.isLimit = false := by
  cases fault <;> simp [Defect.ofJson?, Json.Fault.isLimit]

/-! ### Bytes and texts -/

theorem fileText_eq_ok_iff {bytes : List UInt8} {text : List Char} :
    fileText bytes = .ok text ↔
      ∃ cs, bytes = Text.Utf8.encode cs ∧ text = Text.unifyLineEnds cs := by
  unfold fileText
  constructor
  · intro h
    split at h
    · rename_i cs hcs
      cases h
      exact ⟨cs, Text.Utf8.eq_encode_of_decode? hcs, rfl⟩
    · cases h
  · rintro ⟨cs, rfl, rfl⟩
    rw [Text.Utf8.decode?_encode]

theorem fileText_eq_error_iff {bytes : List UInt8} {trouble : Trouble} :
    fileText bytes = .error trouble ↔
      trouble = .defect .notText ∧ ∀ cs, bytes ≠ Text.Utf8.encode cs := by
  cases h : fileText bytes with
  | ok text =>
    obtain ⟨cs, hcs, _⟩ := fileText_eq_ok_iff.mp h
    exact ⟨nofun, fun ⟨_, hnone⟩ => absurd hcs (hnone cs)⟩
  | error found =>
    have hnone : ∀ cs, bytes ≠ Text.Utf8.encode cs := by
      intro cs hcs
      rw [fileText_eq_ok_iff.mpr ⟨cs, hcs, rfl⟩] at h
      cases h
    have hfound : found = .defect .notText := by
      unfold fileText at h
      split at h
      · cases h
      · cases h
        rfl
    rw [hfound]
    exact ⟨fun h => ⟨(Except.error.inj h).symm, hnone⟩, fun h => congrArg _ h.1.symm⟩

/-- A source that is a path: neither the input nor an address on the web. -/
def IsPath (source : String) : Prop := (source == "-") = false ∧ isUrl source = false

/-- The text that a source holds, and its notation as far as it is told. -/
inductive Surroundings.Holds (s : Surroundings) (source : String) :
    List Char → Option Format → Prop where
  | input (named : source = "-") : Holds s source s.inputText none
  | answer {status : Int} {contentType : String} {body : List UInt8} (web : isUrl source = true)
      (legal : Url.check source = .ok ()) (replied : s.reply = .answer status contentType body)
      (succeeded : 200 ≤ status ∧ status < 300) :
      Holds s source (Text.Charset.decode body (.ofContentType contentType))
        (Format.ofContentType? contentType)
  | file {cs : List Char} (path : IsPath source)
      (found : s.read (.ofText source) = .ok (some (Text.Utf8.encode cs))) :
      Holds s source (Text.unifyLineEnds cs) (Format.ofPath? (.ofText source))

/-- Whether a text is read as YAML: it is marked so, or it may be either and is no JSON. -/
def TriedAsYaml (format : Option Format) (text : List Char) : Prop :=
  format = some .yaml ∨
    format = none ∧ ∃ error, Json.read text = .error error ∧ error.fault.isLimit = false

/-- A text that is not all white space. -/
def IsShown (text : List Char) : Prop := ∃ c ∈ text, Text.isBlank c = false

/-- What keeps a text from being read, and nobody has made provision for. -/
inductive Unread (format : Option Format) (text : List Char) : Defect → Prop where
  /-- The text is beyond the limits of the reader of JSON. -/
  | json {error : Json.Error} {defect : Defect} (tried : format ≠ some .yaml)
      (refused : Json.read text = .error error)
      (limit : Defect.ofJson? error.fault = some defect) : Unread format text defect
  /-- A value in the text has no meaning. -/
  | yaml {fault : Yaml.Fault} (tried : TriedAsYaml format text)
      (refused : Yaml.read text = .error fault) (wellFormed : fault ≠ .illFormed) :
      Unread format text (.noValue fault)

/-- What keeps a source from being loaded, and nobody has made provision for. -/
inductive Overlooked (s : Surroundings) (source : String) : Defect → Prop where
  /-- No request can be made to the address. -/
  | address {fault : Url.Fault} (web : isUrl source = true)
      (illegal : Url.check source = .error fault) : Overlooked s source (.url fault)
  /-- The path leads through names that are too long. -/
  | path {fault : DiskFault} (path : IsPath source)
      (blocked : s.read (.ofText source) = .error fault) : Overlooked s source (.disk fault)
  /-- The bytes of the file are not those of a text. -/
  | bytes {bytes : List UInt8} (path : IsPath source)
      (found : s.read (.ofText source) = .ok (some bytes))
      (noText : ∀ cs, bytes ≠ Text.Utf8.encode cs) : Overlooked s source .notText
  | text {text : List Char} {format : Option Format} {defect : Defect}
      (holds : s.Holds source text format) (shown : IsShown text)
      (unread : Unread format text defect) : Overlooked s source defect

theorem not_dash_of_isUrl {source : String} (h : isUrl source = true) :
    (source == "-") = false := by
  rw [beq_eq_false_iff_ne]
  rintro rfl
  exact absurd h (by decide)

variable {s : Surroundings} {source : String} {text : List Char} {format : Option Format}

theorem readSource_of_isUrl (h : isUrl source = true) : s.readSource source = s.fetch source := by
  rw [Surroundings.readSource, if_neg (by rw [not_dash_of_isUrl h]; decide), if_pos h]

theorem readSource_of_isPath (h : IsPath source) : s.readSource source = s.readFile source := by
  rw [Surroundings.readSource, if_neg (by rw [h.1]; decide), if_neg (by rw [h.2]; decide)]

theorem source_cases (source : String) : source = "-" ∨ isUrl source = true ∨ IsPath source := by
  by_cases hinput : source = "-"
  · exact .inl hinput
  · cases hweb : isUrl source with
    | true => exact .inr (.inl rfl)
    | false => exact .inr (.inr ⟨beq_eq_false_iff_ne.mpr hinput, hweb⟩)

theorem readSource_eq_ok_iff :
    s.readSource source = .ok (text, format) ↔ s.Holds source text format := by
  constructor
  · intro h
    rcases source_cases source with rfl | web | path
    · cases h
      exact .input rfl
    · rw [readSource_of_isUrl web] at h
      unfold Surroundings.fetch at h
      split at h
      · cases h
      · cases h
      · rename_i legal replied
        split at h
        · cases h
        · rename_i hstatus
          cases h
          simp only [Bool.or_eq_true, decide_eq_true_eq, not_or, Int.not_lt, Int.not_le] at hstatus
          exact .answer web legal replied hstatus
    · rw [readSource_of_isPath path] at h
      unfold Surroundings.readFile at h
      dsimp only at h
      split at h
      · cases h
      · cases h
      · rename_i bytes found
        obtain ⟨_, htext, h⟩ := Except.map_eq_ok_iff.mp h
        cases h
        obtain ⟨cs, rfl, rfl⟩ := fileText_eq_ok_iff.mp htext
        exact .file path found
  · rintro (named | ⟨web, legal, replied, succeeded⟩ | ⟨path, found⟩)
    · rw [Surroundings.readSource, named]
      rfl
    · rw [readSource_of_isUrl web, Surroundings.fetch, legal, replied]
      refine if_neg ?_
      simp only [Bool.or_eq_true, decide_eq_true_eq]
      omega
    · rw [readSource_of_isPath path, Surroundings.readFile, found]
      exact Except.map_eq_ok_iff.mpr ⟨_, fileText_eq_ok_iff.mpr ⟨_, rfl, rfl⟩, rfl⟩

theorem readSource_eq_defect_iff {defect : Defect} :
    s.readSource source = .error (.defect defect) ↔
      (isUrl source = true ∧ ∃ fault, Url.check source = .error fault ∧ defect = .url fault) ∨
      (IsPath source ∧ ∃ fault, s.read (.ofText source) = .error fault ∧ defect = .disk fault) ∨
      (IsPath source ∧ ∃ bytes, s.read (.ofText source) = .ok (some bytes) ∧
        (∀ cs, bytes ≠ Text.Utf8.encode cs) ∧ defect = .notText) := by
  constructor
  · intro h
    rcases source_cases source with rfl | web | path
    · cases h
    · rw [readSource_of_isUrl web] at h
      unfold Surroundings.fetch at h
      split at h
      · rename_i fault illegal
        cases h
        exact .inl ⟨web, fault, illegal, rfl⟩
      · cases h
      · split at h <;> cases h
    · rw [readSource_of_isPath path] at h
      unfold Surroundings.readFile at h
      dsimp only at h
      split at h
      · rename_i fault blocked
        cases h
        exact .inr (.inl ⟨path, fault, blocked, rfl⟩)
      · cases h
      · rename_i bytes found
        obtain ⟨h, noText⟩ := fileText_eq_error_iff.mp (Except.map_eq_error_iff.mp h)
        cases h
        exact .inr (.inr ⟨path, bytes, found, noText, rfl⟩)
  · rintro (⟨web, fault, illegal, rfl⟩ | ⟨path, fault, blocked, rfl⟩ |
      ⟨path, bytes, found, noText, rfl⟩)
    · rw [readSource_of_isUrl web, Surroundings.fetch, illegal]
    · rw [readSource_of_isPath path, Surroundings.readFile, blocked]
    · rw [readSource_of_isPath path, Surroundings.readFile, found]
      exact Except.map_eq_error_iff.mpr (fileText_eq_error_iff.mpr ⟨rfl, noText⟩)

/-! ### Outcomes -/

/-- What may become of a source: its document, which is a map, or a message for the user. -/
def IsOrderly (outcome : Except Trouble Node) : Prop :=
  (∃ node, outcome = .ok node ∧ node.isMap = true) ∨ ∃ problem, outcome = .error (.source problem)

theorem isOrderly_asDocument (node : Node) : IsOrderly (asDocument node) := by
  unfold asDocument
  split
  · rename_i h
    exact .inl ⟨node, rfl, h⟩
  · exact .inr ⟨_, rfl⟩

theorem isOrderly_source (problem : SourceProblem) : IsOrderly (.error (.source problem)) :=
  .inr ⟨problem, rfl⟩

theorem not_isOrderly_defect (defect : Defect) : ¬ IsOrderly (.error (.defect defect)) := by
  rintro (⟨node, h, _⟩ | ⟨problem, h⟩) <;> cases h

/-- Nothing becomes of a source but a map, a message or a defect. -/
def IsOutcome (outcome : Except Trouble Node) : Prop :=
  IsOrderly outcome ∨ ∃ defect, outcome = .error (.defect defect)

/-- Whatever is no defect is orderly. -/
theorem IsOutcome.isOrderly_iff {outcome : Except Trouble Node} (h : IsOutcome outcome) :
    IsOrderly outcome ↔ ∀ defect, outcome ≠ .error (.defect defect) := by
  constructor
  · rintro orderly defect rfl
    exact not_isOrderly_defect defect orderly
  · intro none
    rcases h with orderly | ⟨defect, h⟩
    · exact orderly
    · exact absurd h (none defect)

theorem isOutcome_readYaml (json : Option Json.Error) (text : List Char) :
    IsOutcome (readYaml json text) := by
  unfold readYaml
  split
  · exact .inl (isOrderly_asDocument _)
  · exact .inl (isOrderly_source _)
  · exact .inr ⟨_, rfl⟩

theorem readYaml_eq_defect_iff {json : Option Json.Error} {defect : Defect} :
    readYaml json text = .error (.defect defect) ↔
      ∃ fault, Yaml.read text = .error fault ∧ fault ≠ .illFormed ∧ defect = .noValue fault := by
  unfold readYaml
  cases Yaml.read text with
  | ok node =>
    constructor
    · intro h
      exact (not_isOrderly_defect defect (h ▸ isOrderly_asDocument node)).elim
    · rintro ⟨fault, h, _⟩
      cases h
  | error found =>
    constructor
    · intro h
      split at h
      · rename_i heq
        cases heq
      · cases h
      · rename_i fault hne heq
        cases heq
        cases h
        exact ⟨found, rfl, hne, rfl⟩
    · rintro ⟨fault, h, hne, rfl⟩
      cases h
      cases found with
      | illFormed => exact absurd rfl hne
      | _ => rfl

/-- A text that may be JSON is tried as YAML if it is malformed as JSON, and nothing is known of
its notation. -/
theorem triedAsYaml_iff (hformat : format ≠ some .yaml) {error : Json.Error}
    (refused : Json.read text = .error error) :
    TriedAsYaml format text ↔ format = none ∧ Defect.ofJson? error.fault = none := by
  rw [TriedAsYaml, refused, Defect.ofJson?_eq_none_iff]
  simp only [hformat, false_or, Except.error.injEq, exists_eq_left']

/-- What may become of a text: it is read as YAML, it is beyond the limits of the reader of JSON, or
it is settled as JSON. -/
inductive Reading (format : Option Format) (text : List Char) : Except Trouble Node → Prop where
  | yaml (json : Option Json.Error) (tried : TriedAsYaml format text) :
      Reading format text (readYaml json text)
  | limit {error : Json.Error} {defect : Defect} (marked : format ≠ some .yaml)
      (refused : Json.read text = .error error)
      (limit : Defect.ofJson? error.fault = some defect) :
      Reading format text (.error (.defect defect))
  | settled {outcome : Except Trouble Node} (untried : ¬ TriedAsYaml format text)
      (within : ∀ error, Json.read text = .error error → Defect.ofJson? error.fault = none)
      (orderly : IsOrderly outcome) : Reading format text outcome

theorem reading_readDocument (format : Option Format) (text : List Char) :
    Reading format text (readDocument format text) := by
  unfold readDocument
  by_cases hformat : format = some .yaml
  · rw [if_pos hformat]
    exact .yaml none (.inl hformat)
  rw [if_neg hformat]
  cases hjson : Json.read text with
  | ok node =>
    refine .settled ?_ (fun error refused => ?_) (isOrderly_asDocument node)
    · rintro (marked | ⟨_, _, refused, _⟩)
      · exact hformat marked
      · cases hjson.symm.trans refused
    · cases hjson.symm.trans refused
  | error error =>
    have htried := triedAsYaml_iff hformat hjson
    dsimp only
    cases hlimit : Defect.ofJson? error.fault with
    | some defect => exact .limit hformat hjson hlimit
    | none =>
      dsimp only
      split
      · rename_i marked
        refine .settled (fun tried => ?_) (fun found refused => ?_) (isOrderly_source _)
        · cases marked.symm.trans (htried.mp tried).1
        · cases hjson.symm.trans refused
          exact hlimit
      · rename_i marked
        refine .yaml _ (htried.mpr ⟨?_, hlimit⟩)
        rcases format with _ | _ | _
        · rfl
        · exact absurd rfl marked
        · exact absurd rfl hformat

theorem isOutcome_readDocument (format : Option Format) (text : List Char) :
    IsOutcome (readDocument format text) := by
  have reading := reading_readDocument format text
  generalize readDocument format text = outcome at reading ⊢
  cases reading with
  | yaml json _ => exact isOutcome_readYaml json text
  | limit => exact .inr ⟨_, rfl⟩
  | settled _ _ orderly => exact .inl orderly

theorem readDocument_eq_defect_iff {defect : Defect} :
    readDocument format text = .error (.defect defect) ↔ Unread format text defect := by
  have reading := reading_readDocument format text
  generalize readDocument format text = outcome at reading ⊢
  cases reading with
  | yaml json tried =>
    rw [readYaml_eq_defect_iff]
    constructor
    · rintro ⟨fault, refused, hne, rfl⟩
      exact .yaml tried refused hne
    · rintro (⟨marked, refused, limit⟩ | ⟨_, refused, hne⟩)
      · cases ((triedAsYaml_iff marked refused).mp tried).2.symm.trans limit
      · exact ⟨_, refused, hne, rfl⟩
  | limit marked refused limit =>
    constructor
    · intro h
      cases h
      exact .json marked refused limit
    · rintro (⟨_, refused', limit'⟩ | ⟨tried, _, _⟩)
      · cases refused.symm.trans refused'
        cases limit.symm.trans limit'
        rfl
      · cases limit.symm.trans ((triedAsYaml_iff marked refused).mp tried).2
  | settled untried within orderly =>
    constructor
    · intro h
      exact (not_isOrderly_defect defect (h ▸ orderly)).elim
    · rintro (⟨_, refused, limit⟩ | ⟨tried, _, _⟩)
      · cases (within _ refused).symm.trans limit
      · exact absurd tried untried

/-! ### Sources -/

theorem isOutcome_readSource {trouble : Trouble} (h : s.readSource source = .error trouble) :
    IsOutcome (.error trouble) := by
  rcases source_cases source with rfl | web | path
  · cases h
  · rw [readSource_of_isUrl web] at h
    unfold Surroundings.fetch at h
    split at h
    · cases h
      exact .inr ⟨_, rfl⟩
    · cases h
      exact .inl (isOrderly_source _)
    · split at h
      · cases h
        exact .inl (isOrderly_source _)
      · cases h
  · rw [readSource_of_isPath path] at h
    unfold Surroundings.readFile at h
    dsimp only at h
    split at h
    · cases h
      exact .inr ⟨_, rfl⟩
    · cases h
      exact .inl (isOrderly_source _)
    · obtain ⟨rfl, _⟩ := fileText_eq_error_iff.mp (Except.map_eq_error_iff.mp h)
      exact .inr ⟨_, rfl⟩

namespace Surroundings

theorem isOutcome_load (s : Surroundings) (source : String) : IsOutcome (s.load source) := by
  unfold load
  cases h : s.readSource source with
  | error trouble => exact isOutcome_readSource h
  | ok found =>
    obtain ⟨text, format⟩ := found
    dsimp only
    split
    · exact .inl (isOrderly_source _)
    · exact isOutcome_readDocument format text

theorem isShown_iff : IsShown text ↔ (Text.trim text).isEmpty = false := by
  rw [← Bool.not_eq_true, Text.isEmpty_trim_iff, IsShown]
  simp only [not_forall, exists_prop, Bool.not_eq_true]

/-- What has been overlooked shows when the source is read, or when its text is. -/
theorem overlooked_iff {defect : Defect} :
    Overlooked s source defect ↔ s.readSource source = .error (.defect defect) ∨
      ∃ text format, s.readSource source = .ok (text, format) ∧ IsShown text ∧
        Unread format text defect := by
  simp only [readSource_eq_defect_iff, readSource_eq_ok_iff]
  constructor
  · rintro (⟨web, illegal⟩ | ⟨path, blocked⟩ | ⟨path, found, noText⟩ | ⟨holds, shown, unread⟩)
    · exact .inl (.inl ⟨web, _, illegal, rfl⟩)
    · exact .inl (.inr (.inl ⟨path, _, blocked, rfl⟩))
    · exact .inl (.inr (.inr ⟨path, _, found, noText, rfl⟩))
    · exact .inr ⟨_, _, holds, shown, unread⟩
  · rintro ((⟨web, fault, illegal, rfl⟩ | ⟨path, fault, blocked, rfl⟩ |
      ⟨path, bytes, found, noText, rfl⟩) | ⟨text, format, holds, shown, unread⟩)
    · exact .address web illegal
    · exact .path path blocked
    · exact .bytes path found noText
    · exact .text holds shown unread

theorem load_eq_defect_iff {defect : Defect} :
    s.load source = .error (.defect defect) ↔ Overlooked s source defect := by
  rw [overlooked_iff, load]
  cases hsource : s.readSource source with
  | error trouble =>
    constructor
    · intro h
      cases h
      exact .inl rfl
    · rintro (h | ⟨_, _, h, _⟩)
      · cases h
        rfl
      · cases h
  | ok found =>
    obtain ⟨text, format⟩ := found
    dsimp only
    cases hshown : (Text.trim text).isEmpty with
    | true =>
      constructor
      · intro h
        cases h
      · rintro (h | ⟨_, _, h, shown, _⟩)
        · cases h
        · cases h
          cases hshown.symm.trans (isShown_iff.mp shown)
    | false =>
      rw [if_neg Bool.false_ne_true, readDocument_eq_defect_iff]
      constructor
      · exact fun unread => .inr ⟨text, format, rfl, isShown_iff.mpr hshown, unread⟩
      · rintro (h | ⟨_, _, h, _, unread⟩)
        · cases h
        · cases h
          exact unread

/-- A source has one text at most. -/
theorem Holds.unique {text' : List Char} {format' : Option Format} (h : s.Holds source text format)
    (h' : s.Holds source text' format') : text = text' ∧ format = format' := by
  cases (readSource_eq_ok_iff.mpr h).symm.trans (readSource_eq_ok_iff.mpr h')
  exact ⟨rfl, rfl⟩

/-- Nothing has been overlooked about a text within the limits of the reader of JSON, unless it is
read as YAML. -/
theorem not_overlooked_of_isModest (holds : s.Holds source text format)
    (modest : Json.IsModest text) (noYaml : ¬ TriedAsYaml format text) (defect : Defect) :
    ¬ Overlooked s source defect := by
  rw [overlooked_iff, readSource_eq_ok_iff.mpr holds]
  rintro (h | ⟨_, _, h, _, unread⟩)
  · cases h
  · cases h
    cases unread with
    | json _ refused limit =>
      have hlimit := Json.isLimit_of_read modest refused
      rw [← Defect.ofJson?_eq_none_iff, limit] at hlimit
      cases hlimit
    | yaml tried _ _ => exact noYaml tried

/-- A source is loaded or refused with a message, unless something about it has been overlooked.
Then it is not: loading ends in that defect.  Nothing has been overlooked about JSON texts within
the limits of the reader. -/
theorem load_cases (source : String) (s : Surroundings) :
    (((∃ node, s.load source = .ok node ∧ node.isMap = true) ∨
        ∃ problem, s.load source = .error (.source problem)) ↔
      ∀ defect, ¬ Overlooked s source defect) ∧
    (∀ defect, s.load source = .error (.defect defect) ↔ Overlooked s source defect) ∧
    ∀ text format, s.Holds source text format → Json.IsModest text → ¬ TriedAsYaml format text →
      ∀ defect, ¬ Overlooked s source defect := by
  refine ⟨?_, fun _ => load_eq_defect_iff, ?_⟩
  · refine (isOutcome_load s source).isOrderly_iff.trans (forall_congr' fun defect => ?_)
    exact not_congr load_eq_defect_iff
  · intro text format
    exact not_overlooked_of_isModest

end Surroundings

/-- A file that begins as a JSON text does, and goes on with a byte that is in no text. -/
def brokenFile : Surroundings where
  disk := ⟨[(["petstore.json"], .file [0x7B, 0x22, 0xFF])]⟩

/-- Loading a file that holds no text ends without a message. -/
theorem not_isOrderly_brokenFile : ¬ ∀ (source : String) (s : Surroundings),
    (∃ node, s.load source = .ok node ∧ node.isMap = true) ∨
      ∃ problem, s.load source = .error (.source problem) := by
  intro h
  have path : IsPath "petstore.json" := ⟨by decide, by decide⟩
  have found : brokenFile.read (.ofText "petstore.json") = .ok (some [0x7B, 0x22, 0xFF]) := by
    decide +kernel
  have noText (cs : List Char) : [0x7B, 0x22, 0xFF] ≠ Text.Utf8.encode cs := by
    intro hcs
    have hread := Text.Utf8.decode?_encode cs
    rw [← hcs] at hread
    have hnone : Text.Utf8.decode? [0x7B, 0x22, 0xFF] = none := by decide +kernel
    cases hnone.symm.trans hread
  have defect := Surroundings.load_eq_defect_iff.mpr (.bytes path found noText)
  exact ((Surroundings.isOutcome_load brokenFile "petstore.json").isOrderly_iff.mp
    (h "petstore.json" brokenFile)) .notText defect

end OpenApi
