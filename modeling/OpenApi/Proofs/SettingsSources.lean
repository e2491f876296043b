import Mathlib.Data.Set.List
import OpenApi.Proofs.LoadedSources
import OpenApi.Proofs.SettingsTexts
import OpenApi.Settings.Key

/-
Which source decides about a setting.

There are four sources of settings: the command line, the environment, the file of the working
folder and the user's settings.  Each may be silent about a setting, except for the last one.  What
`Sources.given` reads off a source does not depend on the others, and the highest source that is not
silent about a setting decides about it.

The settings in effect are put together in another way: from the lowest source upwards, each putting
what it has in the place of what is there, with one check at the end.  Setting by setting that
leaves what the highest source says, and the check passes exactly if this is a value of the setting
(`Draft.check_ofValues`).  So what decides is all that the settings in effect depend on
(`Sources.effective_eq_ok_iff`), and what stands below it does not matter
(`Sources.AgreeDown.value_eq`), not even whether it is a value of its setting.
-/
namespace OpenApi

namespace Settings

/-! ### Drafts setting by setting -/

namespace Draft

theorem isSome_str?_iff {node : Node} : node.str?.isSome = true ↔ ∃ text, node = .str text := by
  constructor
  · intro h
    unfold Node.str? at h
    split at h
    · exact ⟨_, rfl⟩
    · cases h
  · rintro ⟨text, rfl⟩
    rfl

theorem textFaults_eq_zero_iff {node : Node} :
    textFaults node = 0 ↔ ∃ text, node = .str text := by
  rw [textFaults, ← isSome_str?_iff]
  by_cases h : node.str?.isSome = true <;> simp [h]

theorem textsFaults_eq_zero_iff {node : Node} :
    textsFaults node = 0 ↔ ∃ items, node = textsNode items := by
  constructor
  · intro h
    unfold textsFaults at h
    split at h
    · cases h
    · rename_i items hitems
      have hnode : node = .list items := by
        unfold Node.items? at hitems
        split at hitems
        · rw [Option.some.inj hitems]
        · cases hitems
      have htexts : items ∈ Set.range (List.map Node.str) := by
        rw [Set.range_list_map]
        intro item hitem
        have hsome : item.str?.isSome = true := by
          simpa [Option.isSome_iff_ne_none] using List.countP_eq_zero.mp h item hitem
        obtain ⟨text, rfl⟩ := isSome_str?_iff.mp hsome
        exact ⟨text, rfl⟩
      obtain ⟨texts, rfl⟩ := htexts
      exact ⟨texts, hnode⟩
  · rintro ⟨items, rfl⟩
    exact textsFaults_textsNode items

/-- The draft that has a given value for each setting. -/
def ofValues (value : Setting → Node) : Draft where
  format := value .format
  defaultTag := value .defaultTag
  excludedParameters := value .excludedParameters
  mediaTypes := value .mediaTypes

/-- A draft passes its check exactly if its values are those of some settings. -/
theorem check_ofValues {value : Setting → Node} {settings : Settings} :
    (ofValues value).check = .ok settings ↔ ∀ setting, value setting = setting.get settings := by
  constructor
  · intro h
    unfold check at h
    split at h
    · rename_i hfaults
      simp only [faults, resolverFaults, Nat.add_eq_zero_iff] at hfaults
      obtain ⟨hformat, ⟨htag, hexcluded⟩, hmedia⟩ := hfaults
      obtain ⟨format, hformat⟩ := textFaults_eq_zero_iff.mp hformat
      obtain ⟨tag, htag⟩ := textFaults_eq_zero_iff.mp htag
      obtain ⟨excluded, hexcluded⟩ := textsFaults_eq_zero_iff.mp hexcluded
      obtain ⟨media, hmedia⟩ := textsFaults_eq_zero_iff.mp hmedia
      have hsettings : settings = ⟨format, ⟨tag, excluded, media⟩⟩ := by
        rw [← Except.ok.inj h, preferences, hformat, htag, hexcluded, hmedia, texts_textsNode,
          texts_textsNode]
        rfl
      rw [hsettings]
      intro setting
      cases setting with
      | format => exact hformat
      | defaultTag => exact htag
      | excludedParameters => exact hexcluded
      | mediaTypes => exact hmedia
    · cases h
  · intro h
    have hvalue : value = fun setting => setting.get settings := funext h
    rw [hvalue]
    exact check_ofSettings settings

end Draft

/-! ### Sources -/

/-- Where something may be said about settings, from the highest source to the lowest. -/
inductive Origin where
  | commandLine
  | environment
  | project
  | user
  deriving DecidableEq, Repr

/-- How many sources come before. -/
def Origin.rank : Origin → Nat
  | .commandLine => 0
  | .environment => 1
  | .project => 2
  | .user => 3

/-- What is found in the four sources. -/
structure Sources where
  user : Settings
  /-- The document in the file of the working folder, if there is one. -/
  project : Option Node
  /-- The variables of the environment that are about settings, unless they are empty. -/
  tag : Option String
  excluded : Option String
  overrides : Overrides

namespace Sources

/-- The settings in effect. -/
def effective (s : Sources) : Except Trouble Settings :=
  combine s.user s.project s.tag s.excluded s.overrides

/-- A value with parts as a list of them. -/
def itemized (value : Node) : Node := (value.parts?.map Node.list).getD value

/-- What a source says about a setting, if it says something.  On the command line an empty list
says nothing, and a project says nothing in a section that is no map. -/
def given (s : Sources) : Origin → Setting → Option Node
  | .commandLine, .format => s.overrides.format
  | .commandLine, .defaultTag => s.overrides.defaultTag
  | .commandLine, .excludedParameters =>
    (s.overrides.excludedParameters.filter Node.isTruthy).map itemized
  | .commandLine, .mediaTypes => none
  | .environment, .format => none
  | .environment, .defaultTag => s.tag.map Node.str
  | .environment, .excludedParameters =>
    s.excluded.map fun text => textsNode (commaSeparated text)
  | .environment, .mediaTypes => none
  | .project, setting =>
    s.project.bind fun document => setting.path.foldlM (fun node name => node.get? name) document
  | .user, setting => some (setting.get s.user)

/-- Whether a source is the highest that says something about a setting. -/
structure Decides (s : Sources) (origin : Origin) (setting : Setting) (value : Node) : Prop where
  given : s.given origin setting = some value
  silent : ∀ higher : Origin, higher.rank < origin.rank → s.given higher setting = none

/-- What the highest source says that says something about a setting. -/
def value (s : Sources) (setting : Setting) : Node :=
  (s.given .commandLine setting).getD <| (s.given .environment setting).getD <|
    (s.given .project setting).getD (setting.get s.user)

variable {s other : Sources} {setting : Setting} {origin origin' : Origin} {value value' : Node}

theorem exists_decides (s : Sources) (setting : Setting) :
    ∃ origin, s.Decides origin setting (s.value setting) := by
  unfold Sources.value
  cases hcommand : s.given .commandLine setting with
  | some value => exact ⟨.commandLine, hcommand, fun _ h => absurd h (Nat.not_lt_zero _)⟩
  | none =>
    cases henvironment : s.given .environment setting with
    | some value =>
      refine ⟨.environment, henvironment, fun higher h => ?_⟩
      cases higher <;> first | assumption | exact absurd h (by decide)
    | none =>
      cases hproject : s.given .project setting with
      | some value =>
        refine ⟨.project, hproject, fun higher h => ?_⟩
        cases higher <;> first | assumption | exact absurd h (by decide)
      | none =>
        refine ⟨.user, rfl, fun higher h => ?_⟩
        cases higher <;> first | assumption | exact absurd h (by decide)

theorem rank_inj (h : origin.rank = origin'.rank) : origin = origin' := by
  cases origin <;> cases origin' <;> first | rfl | cases h

/-- Only one source decides about a setting. -/
theorem Decides.unique (h : s.Decides origin setting value)
    (h' : s.Decides origin' setting value') : origin = origin' ∧ value = value' := by
  rcases Nat.lt_trichotomy origin.rank origin'.rank with hlt | heq | hlt
  · cases h.given.symm.trans (h'.silent origin hlt)
  · obtain rfl := rank_inj heq
    exact ⟨rfl, Option.some.inj (h.given.symm.trans h'.given)⟩
  · cases h'.given.symm.trans (h.silent origin' hlt)

theorem exists_decides_iff :
    (∃ origin, s.Decides origin setting value) ↔ s.value setting = value := by
  obtain ⟨origin, h⟩ := s.exists_decides setting
  constructor
  · rintro ⟨_, h'⟩
    exact (h.unique h').2
  · rintro rfl
    exact ⟨origin, h⟩

/-- Whether other sources say the same about every setting, down to the one that decides about
it. -/
def AgreeDown (s other : Sources) : Prop :=
  ∀ (setting : Setting) (origin : Origin),
    (∀ higher : Origin, higher.rank < origin.rank → s.given higher setting = none) →
      other.given origin setting = s.given origin setting

theorem AgreeDown.value_eq (h : s.AgreeDown other) (setting : Setting) :
    other.value setting = s.value setting := by
  obtain ⟨origin, hgiven, hsilent⟩ := s.exists_decides setting
  refine exists_decides_iff.mp ⟨origin, ?_, fun higher hlt => ?_⟩
  · rw [h setting origin hsilent, hgiven]
  · rw [h setting higher fun highest hlt' => hsilent highest (Nat.lt_trans hlt' hlt)]
    exact hsilent higher hlt

/-! ### The settings in effect -/

/-- The command line puts what it says in the place of what is there, or names something that is no
list and could not be one. -/
theorem overriding_cases (excluded : Option Node) (present : Node) :
    overriding excluded present =
        .ok (((excluded.filter Node.isTruthy).map itemized).getD present) ∨
      (∃ trouble, overriding excluded present = .error trouble) ∧
        ∀ items, ((excluded.filter Node.isTruthy).map itemized).getD present ≠ textsNode items := by
  unfold overriding
  cases excluded.filter Node.isTruthy with
  | none => exact .inl rfl
  | some value =>
    dsimp only [Option.map_some, Option.getD_some]
    unfold itemized
    cases hparts : value.parts? with
    | some parts => exact .inl rfl
    | none =>
      refine .inr ⟨⟨_, rfl⟩, fun items hitems => ?_⟩
      rw [show value = textsNode items from hitems] at hparts
      cases hparts

/-- The project puts what it says in the place of the user's settings. -/
theorem withProject_ofSettings (s : Sources) :
    (Draft.ofSettings s.user).withProject s.project =
      .ofValues fun setting => (s.given .project setting).getD (setting.get s.user) := by
  cases hproject : s.project with
  | none => simp only [Draft.withProject, Draft.ofValues, given, hproject]; rfl
  | some document =>
    have hmember (place name : String) : (document.get place).get? name =
        [place, name].foldlM (fun node name => node.get? name) document := by
      simp only [List.foldlM_cons, List.foldlM_nil, bind_pure, Node.get]
      cases document.get? place <;> rfl
    simp only [Draft.withProject, Draft.withOutput, Draft.withResolver, hmember]
    simp only [Draft.ofValues, given, hproject]
    rfl

theorem withEnvironment_ofValues (s : Sources) (value : Setting → Node) :
    (Draft.ofValues value).withEnvironment s.tag s.excluded =
      .ofValues fun setting => (s.given .environment setting).getD (value setting) := rfl

/-- The settings in effect are those that have what decides about each setting. -/
theorem effective_eq_ok_iff {settings : Settings} :
    s.effective = .ok settings ↔ ∀ setting, s.value setting = setting.get settings := by
  unfold effective combine
  dsimp only
  rw [withProject_ofSettings, withEnvironment_ofValues, Draft.withOverrides]
  rcases overriding_cases s.overrides.excludedParameters
    ((s.given .environment .excludedParameters).getD
      ((s.given .project .excludedParameters).getD
        (Setting.excludedParameters.get s.user))) with hlist | ⟨⟨trouble, hnone⟩, hne⟩
  · dsimp only [Draft.ofValues]
    rw [hlist]
    show (Draft.ofValues s.value).check.mapError _ = .ok settings ↔ _
    rw [Except.mapError_eq_ok_iff, Draft.check_ofValues]
  · dsimp only [Draft.ofValues]
    rw [hnone]
    refine ⟨nofun, fun h => ?_⟩
    exact absurd (h .excludedParameters) (hne settings.preferences.excludedParameters)

end Sources
end Settings

open Settings

/-! ### The settings of surroundings -/

namespace Surroundings

variable {folder : Path} {overrides : Overrides} {s : Surroundings} {settings : Settings}

/-- What is found in the sources of settings, if both files are fit to be read. -/
def settingsSources (folder : Path) (overrides : Overrides) (s : Surroundings) :
    Except Trouble Sources := do
  let user ← s.userSettings folder
  let project ← s.projectSettings
  return ⟨user, project, s.variableValue? "SPECIR_DEFAULT_TAG",
    s.variableValue? "SPECIR_EXCLUDE_PARAMETERS", overrides⟩

theorem settings_eq :
    s.settings folder overrides = s.settingsSources folder overrides >>= Sources.effective := by
  unfold settings settingsSources
  cases s.userSettings folder with
  | error trouble => rfl
  | ok user =>
    cases s.projectSettings with
    | error trouble => rfl
    | ok project => rfl

/-- There are settings in effect exactly if both files are fit to be read and what decides about
each setting is a value of it. -/
theorem settings_eq_ok_iff : s.settings folder overrides = .ok settings ↔
    ∃ sources, s.settingsSources folder overrides = .ok sources ∧
      ∀ setting : Setting, ∃ origin, sources.Decides origin setting (setting.get settings) := by
  rw [settings_eq, Except.bind_eq_ok_iff]
  refine exists_congr fun sources => and_congr_right fun _ => ?_
  rw [Sources.effective_eq_ok_iff]
  exact forall_congr' fun setting => Sources.exists_decides_iff.symm

/-- Each setting in effect is what the highest source says that says something about it.  Whatever
is found elsewhere, if both files are fit to be read and the sources say the same down to those
which decide, the settings in effect are the same. -/
theorem settings_decided (h : s.settings folder overrides = .ok settings) :
    ∃ sources, s.settingsSources folder overrides = .ok sources ∧
      (∀ setting : Setting, ∃ origin, sources.Decides origin setting (setting.get settings)) ∧
        ∀ {folder' : Path} {overrides' : Overrides} {s' : Surroundings} {other : Sources},
          s'.settingsSources folder' overrides' = .ok other → sources.AgreeDown other →
            s'.settings folder' overrides' = .ok settings := by
  obtain ⟨sources, hsources, hdecides⟩ := settings_eq_ok_iff.mp h
  refine ⟨sources, hsources, hdecides, fun {folder' overrides' s' other} hother hagree => ?_⟩
  refine settings_eq_ok_iff.mpr ⟨other, hother, fun setting => ?_⟩
  have hvalue := Sources.exists_decides_iff.mp (hdecides setting)
  exact Sources.exists_decides_iff.mpr ((hagree.value_eq setting).trans hvalue)

/-- The user has a file with settings and the working folder has one, and a variable is set. -/
def manySources (own project : List UInt8) : Surroundings where
  disk := ⟨[(["home", "u", ".config", "specir", "config.json"], .file own),
    (["specir.json"], .file project)]⟩
  environment := [("SPECIR_DEFAULT_TAG", "Variable")]

/-- The settings that the user has written down. -/
def ownSettings : Settings where
  format := "json"
  preferences := ⟨"Own", ["X-Own"], ["text/csv"]⟩

def projectText : String :=
  "\x7b\"output\": \x7b\"format\": \"plain\"\x7d, \"resolver\": \x7b\"default_tag\": 1\x7d\x7d"

def projectNode : Node :=
  membersNode [("output", membersNode [("format", .str "plain")]),
    ("resolver", membersNode [("default_tag", .int 1)])]

theorem userSettings_manySources (settings : Settings) (project : List UInt8) :
    (manySources (Text.Utf8.encode settings.fileText.toList) project).userSettings
      ⟨.root, ["home", "u", ".config", "specir"]⟩ = .ok settings := by
  have hread (own : List UInt8) : (manySources own project).read
      (settingsFile ⟨.root, ["home", "u", ".config", "specir"]⟩) = .ok (some own) := rfl
  rw [userSettings, hread]
  exact ofUserFile_fileText _ settings

theorem projectSettings_manySources (own : List UInt8) :
    (manySources own (Text.Utf8.encode projectText.toList)).projectSettings =
      .ok (some projectNode) := by
  have hread (project : List UInt8) : (manySources own project).read ⟨.root, ["specir.json"]⟩ =
      .ok (some project) := rfl
  have htext : fileText (Text.Utf8.encode projectText.toList) =
      .ok (Text.unifyLineEnds projectText.toList) := fileText_eq_ok_iff.mpr ⟨_, rfl, rfl⟩
  have hnode : Json.read (Text.unifyLineEnds projectText.toList) = .ok projectNode := rfl
  rw [projectSettings, show projectPath _ = ⟨.root, ["specir.json"]⟩ from rfl, hread]
  show ofProjectFile _ (some _) = _
  rw [ofProjectFile, readJson, htext]
  dsimp only
  rw [hnode]
  rfl

theorem settingsSources_manySources (settings : Settings) (overrides : Overrides) :
    (manySources (Text.Utf8.encode settings.fileText.toList)
      (Text.Utf8.encode projectText.toList)).settingsSources
        ⟨.root, ["home", "u", ".config", "specir"]⟩ overrides =
      .ok ⟨settings, some projectNode, some "Variable", none, overrides⟩ := by
  rw [settingsSources, userSettings_manySources, projectSettings_manySources]
  rfl

/-- All four sources decide about something: what the project's file says about the default tag is
no text, but the variable stands above it.  Of the user's settings only the media types matter. -/
theorem settings_decided_manySources :
    let s := fun own : Settings => manySources (Text.Utf8.encode own.fileText.toList)
      (Text.Utf8.encode projectText.toList)
    let folder : Path := ⟨.root, ["home", "u", ".config", "specir"]⟩
    let overrides : Overrides := { excludedParameters := some (.list [.str "X-Trace"]) }
    let settings : Settings := ⟨"plain", "Variable", ["X-Trace"], ["text/csv"]⟩
    (s ownSettings).settings folder overrides = .ok settings ∧
      (∃ sources, (s ownSettings).settingsSources folder overrides = .ok sources ∧
        ∀ setting : Setting, ∃ origin, sources.Decides origin setting (setting.get settings)) ∧
      ∀ own : Settings, own.preferences.mediaTypes = ["text/csv"] →
        (s own).settings folder overrides = .ok settings := by
  intro s folder overrides settings
  have hsources (own : Settings) := settingsSources_manySources own overrides
  have hsettings : (s ownSettings).settings folder overrides = .ok settings := by
    rw [settings_eq, hsources]
    refine Except.bind_eq_ok_iff.mpr ⟨_, rfl, ?_⟩
    refine Sources.effective_eq_ok_iff.mpr fun setting => ?_
    cases setting <;> rfl
  obtain ⟨sources, hfound, hdecides, hsame⟩ := settings_decided hsettings
  refine ⟨hsettings, ⟨sources, hfound, hdecides⟩, fun own hmedia => hsame (hsources own) ?_⟩
  obtain rfl := Except.ok.inj ((hsources ownSettings).symm.trans hfound)
  intro setting origin hsilent
  cases origin with
  | user =>
    cases setting with
    | mediaTypes => exact congrArg (fun items => some (textsNode items)) hmedia
    | format => cases hsilent .project (by decide)
    | defaultTag => cases hsilent .environment (by decide)
    | excludedParameters => cases hsilent .commandLine (by decide)
  | _ => cases setting <;> rfl

end Surroundings
end OpenApi
