import OpenApi.Proofs.StoredSettings

/-
Stored settings as a map from settings to values.

A run of the program that sets or resets something makes a `Change`, or none if it fails or is
declined.  One run does just this to what is stored (`Outcome`, `exists_outcome`), so after any
number of runs each setting has the value that it was given last (`storedSettings_history`).
-/
namespace OpenApi

/-! ### Keys -/

namespace Setting

def key : Setting → String
  | .format => "output.format"
  | .defaultTag => "resolver.default_tag"
  | .excludedParameters => "resolver.excluded_parameters"
  | .mediaTypes => "resolver.media_type_priority"

theorem split_key (setting : Setting) :
    (Text.split '.' setting.key.toList).map String.ofList = setting.path := by
  cases setting <;> decide

/-- Only the keys of settings lead to settings. -/
theorem ofKey_eq_ok_iff {key : String} {setting : Setting} :
    ofKey key = .ok setting ↔ key = setting.key := by
  constructor
  · intro h
    unfold ofKey at h
    dsimp only at h
    split at h
    · rename_i found hfound
      cases h
      have hpath := List.find?_some hfound
      rw [beq_iff_eq, ← split_key] at hpath
      have hpieces := List.map_injective_iff.mpr (fun _ _ => String.ofList_injective) hpath
      have hchars := congrArg (Text.join ['.']) hpieces
      rw [Text.join_split, Text.join_split] at hchars
      exact (String.toList_inj.mp hchars).symm
    · cases h
  · rintro rfl
    cases setting <;> decide

end Setting

/-! ### Changes -/

/-- What a run of the program does to the settings as a whole. -/
inductive Change where
  | set (setting : Setting) (value : String)
  | reset
  | nothing
  deriving DecidableEq

namespace Change

def apply : Change → Settings → Settings
  | .set setting value, settings => setting.put value settings
  | .reset, _ => {}
  | .nothing, settings => settings

/-- The value that a change gives to a setting. -/
def valueOf? (setting : Setting) : Change → Option Node
  | .set other value => if other = setting then some (setting.read value) else none
  | _ => none

end Change

/-- The value of a setting after changes: the one that it was given last since the last reset, or
the usual one. -/
def Setting.valueAfter (setting : Setting) (changes : List Change) : Node :=
  let since := changes.reverse.takeWhile (· ≠ .reset)
  (since.findSome? (Change.valueOf? setting)).getD (setting.get {})

theorem Setting.get_apply (setting : Setting) (change : Change) (settings : Settings) :
    setting.get (change.apply settings) =
      if change = .reset then setting.get {}
      else (change.valueOf? setting).getD (setting.get settings) := by
  cases change with
  | set other value =>
    rw [if_neg nofun]
    unfold Change.valueOf? Change.apply
    dsimp only
    by_cases hsame : other = setting
    · rw [if_pos hsame, hsame]
      exact Setting.get_put_self setting value settings
    · rw [if_neg hsame]
      exact Setting.get_put_of_ne (Ne.symm hsame) value settings
  | reset => rfl
  | nothing => rfl

/-- Changes one after the other give each setting its last value. -/
theorem Setting.get_foldl_apply (setting : Setting) (changes : List Change) :
    setting.get (changes.foldl (fun settings change => change.apply settings) {}) =
      setting.valueAfter changes := by
  induction changes using List.reverseRecOn with
  | nil => rfl
  | append_singleton changes change ih =>
    rw [List.foldl_append, List.foldl_cons, List.foldl_nil, get_apply, ih, valueAfter, valueAfter,
      List.reverse_append, List.reverse_singleton, List.singleton_append]
    by_cases hreset : change = .reset
    · rw [if_pos hreset, List.takeWhile_cons_of_neg (by simpa using hreset)]
      rfl
    · rw [if_neg hreset, List.takeWhile_cons_of_pos (by simpa using hreset), List.findSome?_cons]
      cases change.valueOf? setting <;> rfl

/-! ### Runs -/

/-- A run of the program: its arguments, and what is typed in. -/
structure Call where
  arguments : List String
  input : List Char := []

namespace Call

def invocation (call : Call) : Invocation := Invocation.ofArguments call.arguments

/-- The session that the run begins with. -/
def session (call : Call) (s : Surroundings) : Session :=
  { surroundings := { s with input := call.input } }

/-- Run the program.  The number is its exit code. -/
def run (call : Call) (s : Surroundings) : Except DiskFault Nat × Surroundings :=
  let (code, after) := Session.run call.arguments (call.session s)
  (code, after.surroundings)

def isConfirmed (call : Call) (conduct : Conduct) : Bool :=
  conduct.isForced || Answer.first (call.session {}).surroundings.inputLines == .yes

/-- Every key and every value can be given on the command line. -/
theorem invocation_set (key value : String) (input : List Char) :
    (Call.mk ["config", "set", "--", key, value] input).invocation =
      .run (CommandLine.conductOf []) (.setSetting key value) := by
  have hconfig : CommandLine.commonOptions.read false ["config", "set", "--", key, value] =
      .ok ([], ["config", "set", "--", key, value]) :=
    CommandLine.Lexicon.read_argument _ (by decide) (by simp)
  have hset : CommandLine.helpOption.read false ["set", "--", key, value] =
      .ok ([], ["set", "--", key, value]) :=
    CommandLine.Lexicon.read_argument _ (by decide) (by simp)
  have hsettings : CommandLine.readSettings (CommandLine.conductOf [])
      ["set", "--", key, value] = .run (CommandLine.conductOf []) (.setSetting key value) := by
    rw [CommandLine.readSettings, CommandLine.readGroup, hset]
    rfl
  rw [invocation, Invocation.ofArguments, CommandLine.readGroup, hconfig]
  exact hsettings

/-- Whether the program is asked to set or to reset something. -/
def changesSettings (call : Call) : Bool :=
  match call.invocation with
  | .run _ (.setSetting ..) => true
  | .run _ .resetSettings => true
  | _ => false

/-- The change that a run with an exit code has made. -/
def change (call : Call) (code : Except DiskFault Nat) : Change :=
  match call.invocation, code with
  | .run _ (.setSetting key value), .ok 0 =>
    match Setting.ofKey key with
    | .ok setting => .set setting value
    | .error _ => .nothing
  | .run conduct .resetSettings, .ok 0 => if call.isConfirmed conduct then .reset else .nothing
  | _, _ => .nothing

/-- Run after run: the changes that have been made, and what is there in the end. -/
def runAll : List Call → Surroundings → List Change × Surroundings
  | [], s => ([], s)
  | call :: rest, s =>
    let (code, after) := call.run s
    let (changes, last) := runAll rest after
    (call.change code :: changes, last)

end Call

open Surroundings

theorem Session.report_defect (defect : Defect) (session : Session) :
    session.report (.defect defect) =
      match session.writeCrashLog with
      | .error fault => (.error fault, session)
      | .ok (path, s) => (.ok 1, s.note ("Error: Unexpected error. Debug log: " ++ path.text)) :=
  rfl

/-- What has been made of a defect: a log, which is no file of settings. -/
theorem Session.exists_report_defect (defect : Defect) (session : Session)
    (reached : session.surroundings.disk.Reaches session.surroundings.here) :
    ∃ code later noted,
      session.report (.defect defect) = (code, { session.withDisk later with noted := noted }) ∧
        code ≠ .ok 0 ∧ session.surroundings.disk.KeepsFolders later ∧
        ∀ place, later.bytes? (fileIn place) = session.surroundings.disk.bytes? (fileIn place) := by
  rw [report_defect]
  cases hlog : session.writeCrashLog with
  | error fault =>
    exact ⟨.error fault, session.surroundings.disk, session.noted, rfl, nofun, .refl _,
      fun _ => rfl⟩
  | ok found =>
    unfold writeCrashLog at hlog
    split at hlog
    · cases hlog
    · rename_i folder provided hprovide
      obtain ⟨written, hwrite, rfl⟩ := Except.map_eq_ok_iff.mp hlog
      obtain ⟨place, middle, _, way, rfl⟩ := exists_way_of_provide hprovide
      obtain ⟨later, hlater, rfl⟩ := Except.map_eq_ok_iff.mp hwrite
      obtain ⟨hgrows, _⟩ := Disk.grows_of_makeWay reached way
      obtain ⟨hfolders, hfiles⟩ :=
        Disk.keeps_of_write (hgrows.keepsFolders.reaches reached) hlater
      refine ⟨.ok 1, later, _, rfl, by decide, hgrows.keepsFolders.trans hfolders, fun place => ?_⟩
      rw [hfiles _ (by rw [fileIn, List.getLast?_concat]; decide)]
      exact hgrows.bytes? _

namespace Call

/-- What a run does to settings that are stored, from what was there and the disk with the way to
them. -/
inductive Outcome (place : Place) (before disk : Disk) (settings : Settings) :
    Change → Except DiskFault Nat → Disk → Prop where
  | declined (code : Except DiskFault Nat) : Outcome place before disk settings .nothing code before
  | unknown : Outcome place before disk settings .nothing (.ok 2) disk
  | obstructed {code : Except DiskFault Nat} {later : Disk}
      (folder : disk.isFolder (fileIn place) = true) (failed : code ≠ .ok 0)
      (folders : disk.KeepsFolders later)
      (file : later.bytes? (fileIn place) = disk.bytes? (fileIn place)) :
      Outcome place before disk settings .nothing code later
  | saved {change : Change} (free : disk.isFolder (fileIn place) = false) :
      Outcome place before disk settings change (.ok 0) ((change.apply settings).storeIn place disk)

variable {s : Surroundings} {folder : Path} {place : Place} {disk : Disk} {settings : Settings}
  {call : Call} {conduct : Conduct} {key value : String} {code : Except DiskFault Nat}

/-- The exit code of an action that has ended, and what it leaves behind. -/
def conclude : Except Trouble Nat × Session → Except DiskFault Nat × Surroundings
  | (.ok code, after) => (.ok code, after.surroundings)
  | (.error trouble, after) => ((after.report trouble).1, (after.report trouble).2.surroundings)

theorem run_eq {command : Command} (h : call.invocation = .run conduct command)
    (s : Surroundings) :
    call.run s = conclude ((command.action conduct).run (call.session s)) := by
  have asked : Invocation.ofArguments call.arguments = .run conduct command := h
  rw [run, Session.run_eq asked]
  rcases (command.action conduct).run (call.session s) with ⟨result, after⟩
  cases result <;> rfl

/-- A run that fails has changed nothing. -/
theorem change_of_ne (h : code ≠ .ok 0) : call.change code = .nothing := by
  unfold change
  split
  · exact absurd rfl h
  · exact absurd rfl h
  · rfl

theorem change_of_set (h : call.invocation = .run conduct (.setSetting key value))
    {setting : Setting} (hkey : Setting.ofKey key = .ok setting) :
    call.change (.ok 0) = .set setting value := by
  unfold change
  rw [h]
  show (match Setting.ofKey key with
    | .ok setting => Change.set setting value
    | .error _ => .nothing) = _
  rw [hkey]

theorem change_of_reset (h : call.invocation = .run conduct .resetSettings) :
    call.change (.ok 0) = if call.isConfirmed conduct then .reset else .nothing := by
  unfold change
  rw [h]
  rfl

/-- The input is not where settings are kept. -/
theorem settingsAt_session (kept : s.SettingsAt folder place) (call : Call) :
    (call.session s).surroundings.SettingsAt folder place :=
  ⟨kept.named, kept.reached, kept.way, kept.short⟩

section
variable {session : Session} (kept : session.surroundings.SettingsAt folder place)
  (way : session.surroundings.disk.makeWay session.surroundings.here folder = .ok (place, disk))
include kept way

/-- What happens when a folder lies in the place of the file. -/
theorem exists_conclude_obstructed (hfolder : disk.isFolder (fileIn place) = true)
    (before : Disk) (settings : Settings) :
    ∃ code later, conclude (.error (.defect (.disk .isFolder)), session.withDisk disk) =
        (code, session.surroundings.withDisk later) ∧ code ≠ .ok 0 ∧
      Outcome place before disk settings .nothing code later := by
  have hreached : disk.Reaches session.surroundings.here :=
    (Disk.grows_of_makeWay kept.reached way).1.keepsFolders.reaches kept.reached
  obtain ⟨code, later, noted, hreport, hcode, hfolders, hfile⟩ :=
    (session.withDisk disk).exists_report_defect (.disk .isFolder) hreached
  exact ⟨code, later, by rw [conclude, hreport]; rfl, hcode,
    .obstructed hfolder hcode hfolders (hfile place)⟩

theorem exists_conclude_reset (output : Output) (before : Disk) (settings : Settings) :
    ∃ code later, conclude ((do Action.resetSettings output; return 0 : Action Nat).run session) =
        (code, session.surroundings.withDisk later) ∧
      ((code ≠ .ok 0 ∧ Outcome place before disk settings .nothing code later) ∨
        (code = .ok 0 ∧ Outcome place before disk settings .reset code later)) := by
  rw [Action.run_return]
  rcases Action.run_resetSettings kept way output with ⟨hfolder, hrun⟩ | ⟨noted, hfree, hrun⟩
  · rw [hrun]
    obtain ⟨code, later, hreport, hcode, houtcome⟩ :=
      exists_conclude_obstructed kept way hfolder before settings
    exact ⟨code, later, hreport, .inl ⟨hcode, houtcome⟩⟩
  · rw [hrun]
    exact ⟨.ok 0, _, rfl, .inr ⟨rfl, .saved hfree⟩⟩

end

section
variable (kept : s.SettingsAt folder place)
  (way : s.disk.makeWay s.here folder = .ok (place, disk))
include kept way

theorem exists_outcome_of_set (stored : Settings.ofUserFile (settingsFile folder)
      (s.disk.bytes? (fileIn place)) = .ok settings)
    (h : call.invocation = .run conduct (.setSetting key value)) :
    ∃ code later, call.run s = (code, (call.session s).surroundings.withDisk later) ∧
      Outcome place s.disk disk settings (call.change code) code later ∧
      ((∀ setting, Setting.ofKey key ≠ .ok setting) → code = .ok 2) ∧
      ((∃ setting, Setting.ofKey key = .ok setting) →
        code = .ok 0 ∨ disk.isFolder (fileIn place) = true) := by
  have hkept := settingsAt_session kept call
  rw [run_eq h, Command.action, Action.run_return]
  rcases Action.run_setSetting hkept way stored conduct.output key value with
    ⟨fault, hkey, hrun⟩ | ⟨setting, hkey, hfolder, hrun⟩ | ⟨setting, noted, hkey, hfree, hrun⟩
  · rw [hrun]
    refine ⟨.ok 2, disk, rfl, ?_, fun _ => rfl, fun ⟨setting, hsome⟩ => ?_⟩
    · rw [change_of_ne (by decide)]
      exact .unknown
    · cases hkey.symm.trans hsome
  · rw [hrun]
    obtain ⟨code, later, hreport, hcode, houtcome⟩ :=
      exists_conclude_obstructed hkept way hfolder s.disk settings
    refine ⟨code, later, hreport, ?_, fun hnone => absurd hkey (hnone setting),
      fun _ => .inr hfolder⟩
    rw [change_of_ne hcode]
    exact houtcome
  · rw [hrun]
    refine ⟨.ok 0, _, rfl, ?_, fun hnone => absurd hkey (hnone setting), fun _ => .inl rfl⟩
    rw [change_of_set h hkey]
    exact .saved hfree

theorem exists_outcome_of_reset (h : call.invocation = .run conduct .resetSettings)
    (settings : Settings) :
    ∃ code later, call.run s = (code, (call.session s).surroundings.withDisk later) ∧
      Outcome place s.disk disk settings (call.change code) code later := by
  have hkept := settingsAt_session kept call
  rw [run_eq h, Command.action]
  have hreset (session : Session) (hsame : session.surroundings = (call.session s).surroundings)
      (hconfirmed : call.isConfirmed conduct = true) :
      ∃ code later,
        conclude ((do Action.resetSettings conduct.output; return 0 : Action Nat).run session) =
          (code, (call.session s).surroundings.withDisk later) ∧
        Outcome place s.disk disk settings (call.change code) code later := by
    obtain ⟨code, later, hrun, houtcome⟩ := @exists_conclude_reset folder place disk session
      (hsame ▸ hkept) (hsame ▸ way) conduct.output s.disk settings
    refine ⟨code, later, hsame ▸ hrun, ?_⟩
    rcases houtcome with ⟨hcode, houtcome⟩ | ⟨rfl, houtcome⟩
    · rwa [change_of_ne hcode]
    · rwa [change_of_reset h, hconfirmed]
  have hdeclined (code : Except DiskFault Nat) (hconfirmed : call.isConfirmed conduct = false) :
      call.change code = .nothing := by
    by_cases hcode : code = .ok 0
    · rw [hcode, change_of_reset h, hconfirmed]
      rfl
    · exact change_of_ne hcode
  have hlines : (call.session {}).surroundings.inputLines =
      (call.session s).surroundings.inputLines := rfl
  cases hforced : conduct.isForced with
  | true => exact hreset _ rfl (by rw [isConfirmed, hforced]; rfl)
  | false =>
    rw [if_neg Bool.false_ne_true]
    obtain ⟨printed, hrun⟩ := Action.exists_confirmReset conduct.output (call.session s)
    rw [hrun]
    cases hanswer : Answer.first (call.session s).surroundings.inputLines with
    | yes => exact hreset _ rfl (by rw [isConfirmed, hforced, hlines, hanswer]; rfl)
    | no =>
      obtain ⟨noted, hnoted⟩ :=
        Action.exists_inform conduct.output "Cancelled." ((call.session s).print printed)
      dsimp only
      rw [Action.run_return, hnoted]
      refine ⟨.ok 0, s.disk, rfl, ?_⟩
      rw [hdeclined _ (by rw [isConfirmed, hforced, hlines, hanswer]; rfl)]
      exact .declined _
    | missing =>
      refine ⟨.ok 1, s.disk, rfl, ?_⟩
      rw [change_of_ne (by decide)]
      exact .declined _

end

/-- Whether settings are stored: in their file, or nowhere if they are the usual ones. -/
structure Stored (folder : Path) (place : Place) (settings : Settings) (s : Surroundings) :
    Prop where
  kept : s.SettingsAt folder place
  file : (s.disk.bytes? (fileIn place) = none ∧ settings = {}) ∨
    s.disk.bytes? (fileIn place) = some (Text.Utf8.encode settings.fileText.toList)

theorem Stored.ofUserFile (h : Stored folder place settings s) (path : Path) :
    Settings.ofUserFile path (s.disk.bytes? (fileIn place)) = .ok settings := by
  rcases h.file with ⟨hfile, rfl⟩ | hfile
  · rw [hfile]
    rfl
  · rw [hfile]
    exact Settings.ofUserFile_fileText path settings

/-- Whether a folder lies where the file of the settings belongs. -/
def IsObstructed (s : Surroundings) : Prop :=
  ∃ folder place disk, s.settingsFolder = .ok folder ∧
    s.disk.makeWay s.here folder = .ok (place, disk) ∧ disk.isFolder (fileIn place) = true

theorem isObstructed_iff (named : s.settingsFolder = .ok folder)
    (way : s.disk.makeWay s.here folder = .ok (place, disk)) :
    IsObstructed s ↔ disk.isFolder (fileIn place) = true := by
  constructor
  · rintro ⟨folder', place', disk', named', way', hfolder⟩
    cases named.symm.trans named'
    cases way.symm.trans way'
    exact hfolder
  · exact fun hfolder => ⟨folder, place, disk, named, way, hfolder⟩

section
variable {change : Change} {later : Disk} (before : Stored folder place settings s)
  (way : s.disk.makeWay s.here folder = .ok (place, disk))
  (outcome : Outcome place s.disk disk settings change code later) (call : Call)
include before way outcome

/-- A run leaves the settings behind as it has changed them. -/
theorem Outcome.stored : Stored folder place (change.apply settings)
    ((call.session s).surroundings.withDisk later) := by
  have hkept := settingsAt_session before.kept call
  have hgrows := (Disk.grows_of_makeWay before.kept.reached way).1
  cases outcome with
  | declined code => exact ⟨⟨hkept.named, hkept.reached, hkept.way, hkept.short⟩, before.file⟩
  | unknown =>
    refine ⟨hkept.stay way (.refl disk), ?_⟩
    have hsame := hgrows.bytes? (fileIn place)
    exact hsame ▸ before.file
  | obstructed _ _ folders file =>
    refine ⟨hkept.stay way folders, ?_⟩
    have hsame := file.trans (hgrows.bytes? (fileIn place))
    exact hsame ▸ before.file
  | saved free =>
    have hplace := (Disk.grows_of_makeWay before.kept.reached way).2
    refine ⟨hkept.stay way (Disk.keeps_of_put hplace free _).1, .inr ?_⟩
    exact Disk.bytes?_put _ _ _

/-- A run that fails leaves the file alone. -/
theorem Outcome.bytes?_eq (hcode : code ≠ .ok 0) :
    later.bytes? (fileIn place) = s.disk.bytes? (fileIn place) := by
  have hgrows := (Disk.grows_of_makeWay before.kept.reached way).1
  cases outcome with
  | declined code => rfl
  | unknown => exact hgrows.bytes? _
  | obstructed _ _ _ file => exact file.trans (hgrows.bytes? _)
  | saved free => exact absurd rfl hcode

/-- No run puts a folder where the file belongs. -/
theorem Outcome.isObstructed (h : IsObstructed ((call.session s).surroundings.withDisk later)) :
    IsObstructed s := by
  have hkept := settingsAt_session before.kept call
  rw [isObstructed_iff before.kept.named way]
  have hagain (folders : disk.KeepsFolders later) :
      IsObstructed ((call.session s).surroundings.withDisk later) ↔
        later.isFolder (fileIn place) = true :=
    isObstructed_iff (hkept.stay way folders).named
      (Disk.makeWay_again before.kept.reached way folders)
  cases outcome with
  | declined code =>
    exact (isObstructed_iff hkept.named way).mp h
  | unknown => exact (hagain (.refl disk)).mp h
  | obstructed folder _ _ _ => exact folder
  | saved free =>
    have hplace := (Disk.grows_of_makeWay before.kept.reached way).2
    have hfolder := (hagain (Disk.keeps_of_put hplace free _).1).mp h
    rw [Disk.isFolder_iff, Settings.storeIn, Disk.find?_put_self] at hfolder
    cases hfolder

end

/-- One run: it leaves settings behind, and obstructs nothing. -/
theorem exists_outcome (stored : Stored folder place settings s)
    (way : s.disk.makeWay s.here folder = .ok (place, disk)) (h : call.changesSettings = true) :
    ∃ code later, call.run s = (code, (call.session s).surroundings.withDisk later) ∧
      Outcome place s.disk disk settings (call.change code) code later := by
  unfold changesSettings at h
  split at h
  · rename_i hset
    obtain ⟨code, later, hrun, houtcome, _⟩ :=
      exists_outcome_of_set stored.kept way (stored.ofUserFile _) hset
    exact ⟨code, later, hrun, houtcome⟩
  · rename_i hreset
    exact exists_outcome_of_reset stored.kept way hreset settings
  · cases h

/-- Any number of runs: the settings change as the runs say. -/
theorem stored_runAll {calls : List Call} (stored : Stored folder place settings s)
    (h : ∀ call ∈ calls, call.changesSettings = true) :
    Stored folder place ((runAll calls s).1.foldl (fun settings change => change.apply settings)
        settings) (runAll calls s).2 ∧
      (IsObstructed (runAll calls s).2 → IsObstructed s) := by
  induction calls generalizing s settings with
  | nil => exact ⟨stored, id⟩
  | cons call rest ih =>
    rw [List.forall_mem_cons] at h
    obtain ⟨disk, way⟩ := stored.kept.way
    obtain ⟨code, later, hrun, houtcome⟩ := exists_outcome stored way h.1
    obtain ⟨hstored, hobstructed⟩ := ih (houtcome.stored stored way call) h.2
    have hall : runAll (call :: rest) s =
        (call.change code ::
          (runAll rest ((call.session s).surroundings.withDisk later)).1,
          (runAll rest ((call.session s).surroundings.withDisk later)).2) := by
      rw [runAll, hrun]
    rw [hall]
    exact ⟨hstored, fun hlast => houtcome.isObstructed stored way call (hobstructed hlast)⟩

end Call

/-- Beginning without a file, the settings that are stored are a map from settings to values.  After
any runs that set or reset something, each setting has the value that it was given last.  The next
run that sets one leaves the file as it was if it fails; it does if its key is none of a setting, and
otherwise only if a folder lies in the place of the file. -/
theorem Surroundings.storedSettings_history {s after : Surroundings}
    (reached : s.disk.Reaches s.here) (start : s.storedFile = .ok none) {calls : List Call}
    (h : ∀ call ∈ calls, call.changesSettings = true) {changes : List Change}
    (runs : Call.runAll calls s = (changes, after)) :
    (∃ settings, after.storedSettings = .ok settings ∧
        ∀ setting : Setting, setting.get settings = setting.valueAfter changes) ∧
      ∀ {call : Call} {conduct : Conduct} {key value : String} {code : Except DiskFault Nat}
        {later : Surroundings}, call.invocation = .run conduct (.setSetting key value) →
          call.run after = (code, later) →
            (code ≠ .ok 0 → later.storedFile = after.storedFile) ∧
              ((∀ setting : Setting, key ≠ setting.key) → code = .ok 2) ∧
              ((∃ setting : Setting, key = setting.key) → code = .ok 0 ∨ Call.IsObstructed s) := by
  obtain ⟨folder, place, kept⟩ := exists_settingsAt reached start
  have hnone : s.disk.bytes? (fileIn place) = none :=
    Except.ok.inj ((storedFile_eq kept).symm.trans start)
  obtain ⟨hstored, hobstructed⟩ := Call.stored_runAll ⟨kept, .inl ⟨hnone, rfl⟩⟩ h
  rw [runs] at hstored hobstructed
  refine ⟨⟨_, ?_, fun setting => setting.get_foldl_apply _⟩,
    fun {call conduct key value code later} hset hrun => ?_⟩
  · rw [storedSettings_eq hstored.kept]
    exact hstored.ofUserFile _
  · obtain ⟨disk, way⟩ := hstored.kept.way
    obtain ⟨_, disk', hrun', houtcome, hunknown, hknown⟩ :=
      Call.exists_outcome_of_set hstored.kept way (hstored.ofUserFile _) hset
    cases hrun.symm.trans hrun'
    refine ⟨fun hcode => ?_, fun hkey => hunknown fun setting hsome => ?_, fun ⟨setting, hkey⟩ => ?_⟩
    · rw [storedFile_eq (houtcome.stored hstored way call).kept, storedFile_eq hstored.kept]
      exact congrArg _ (houtcome.bytes?_eq hstored way hcode)
    · exact hkey setting (Setting.ofKey_eq_ok_iff.mp hsome)
    · refine (hknown ⟨setting, Setting.ofKey_eq_ok_iff.mpr hkey⟩).imp_right fun hfolder => ?_
      exact hobstructed ((Call.isObstructed_iff hstored.kept.named way).mpr hfolder)

/-- A setting is given a value, and a section is refused one. -/
theorem Surroundings.storedSettings_after_two_runs :
    let s : Surroundings := { environment := [("HOME", "/home/u")] }
    let calls : List Call :=
      [⟨["config", "set", "--", "resolver.excluded_parameters", "X-Trace, ,X-Tenant"], []⟩,
        ⟨["config", "set", "--", "resolver", "X-Trace"], []⟩]
    s.disk.Reaches s.here ∧ s.storedFile = .ok none ∧
      (∀ call ∈ calls, call.changesSettings = true) ∧
      ∃ changes after settings, Call.runAll calls s = (changes, after) ∧
        after.storedSettings = .ok settings ∧
        Setting.excludedParameters.get settings = Settings.textsNode ["X-Trace", "X-Tenant"] ∧
        Setting.format.get settings = .str "auto" := by
  intro s calls
  have reached : s.disk.Reaches s.here := by
    intro p hp
    rw [List.prefix_nil.mp hp]
    rfl
  have start : s.storedFile = .ok none := by
    show ({ environment := [("HOME", "/home/u")] } : Surroundings).storedFile = .ok none
    rfl
  have hfree : ¬ Call.IsObstructed s := by
    rintro ⟨folder, place, disk, named, way, h⟩
    have hfolder : s.settingsFolder = .ok ⟨.root, ["home", "u", ".config", "specir"]⟩ := by
      decide +kernel
    cases named.symm.trans hfolder
    cases way
    revert h
    decide
  have hset (key value : String) : (Call.mk ["config", "set", "--", key, value] []).changesSettings =
      true := by
    rw [Call.changesSettings, Call.invocation_set]
  have hcalls : ∀ call ∈ calls, call.changesSettings = true := by
    intro call hcall
    rcases List.mem_cons.mp hcall with rfl | hcall
    · exact hset _ _
    · rw [List.mem_singleton.mp hcall]
      exact hset _ _
  rcases hfirst : calls[0].run s with ⟨first, middle⟩
  rcases hsecond : calls[1].run middle with ⟨second, after⟩
  have hzero : first = .ok 0 := by
    have hnext := (@storedSettings_history s s reached start [] nofun [] rfl).2
      (Call.invocation_set _ _ _) hfirst
    exact (hnext.2.2 ⟨.excludedParameters, rfl⟩).resolve_right hfree
  have htwo : second = .ok 2 := by
    have hone := @storedSettings_history s middle reached start [calls[0]]
      (fun call hcall => hcalls call (List.mem_of_mem_take (i := 1) hcall)) [calls[0].change first]
      (by rw [Call.runAll, hfirst]; rfl)
    refine (hone.2 (Call.invocation_set _ _ _) hsecond).2.1 fun setting => ?_
    cases setting <;> decide
  have hchange : calls[0].change first = .set .excludedParameters "X-Trace, ,X-Tenant" := by
    rw [hzero]
    exact Call.change_of_set (Call.invocation_set _ _ _) (Setting.ofKey_eq_ok_iff.mpr rfl)
  have hnothing : calls[1].change second = .nothing := Call.change_of_ne (by rw [htwo]; decide)
  have runs : Call.runAll calls s =
      ([.set .excludedParameters "X-Trace, ,X-Tenant", .nothing], after) := by
    rw [← hchange, ← hnothing]
    show Call.runAll [calls[0], calls[1]] s = _
    rw [Call.runAll, hfirst]
    dsimp only
    rw [Call.runAll, hsecond]
    rfl
  obtain ⟨⟨settings, hstored, hget⟩, _⟩ := storedSettings_history reached start hcalls runs
  have hitems : Settings.commaSeparated "X-Trace, ,X-Tenant" = ["X-Trace", "X-Tenant"] := by
    decide +kernel
  refine ⟨reached, start, hcalls, _, after, settings, runs, hstored, ?_, hget .format⟩
  exact (hget .excludedParameters).trans (congrArg Settings.textsNode hitems)

end OpenApi
