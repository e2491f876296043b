import OpenApi.Json.Writer
import OpenApi.Loading
import OpenApi.Settings.Basic

/-
The settings that are in effect.

Each value is taken from the highest source that has one: the command line, the environment, the
file of the working folder, the user's file, and what is usual.
-/
namespace OpenApi

/-- What the command line says about settings, if it says something. -/
structure Overrides where
  defaultTag : Option Node := none
  excludedParameters : Option Node := none
  format : Option Node := none

namespace Settings

/-- What the file of the working folder says, section by section. -/
def Draft.withProject (project : Option Node) (d : Draft) : Draft :=
  match project with
  | none => d
  | some document => (d.withOutput (document.get "output")).withResolver (document.get "resolver")

/-- What the environment says; a variable that is empty says nothing. -/
def Draft.withEnvironment (tag excluded : Option String) (d : Draft) : Draft :=
  { d with
    defaultTag := (tag.map Node.str).getD d.defaultTag
    excludedParameters :=
      (excluded.map fun text => textsNode (commaSeparated text)).getD d.excludedParameters }

/-- The list that the command line has instead of the one that is there.  An empty one says nothing,
and of another value its parts count. -/
def overriding (excluded : Option Node) (present : Node) : Except Trouble Node :=
  match excluded.filter Node.isTruthy with
  | none => .ok present
  | some value =>
    match value.parts? with
    | some parts => .ok (.list parts)
    | none => .error (.defect (.malformed .noItems))

def Draft.withOverrides (overrides : Overrides) (d : Draft) : Except Trouble Draft :=
  (overriding overrides.excludedParameters d.excludedParameters).map fun excluded =>
    { d with
      format := overrides.format.getD d.format
      defaultTag := overrides.defaultTag.getD d.defaultTag
      excludedParameters := excluded }

/-- All sources on top of each other. -/
def combine (user : Settings) (project : Option Node) (tag excluded : Option String)
    (overrides : Overrides) : Except Trouble Settings :=
  let draft := ((Draft.ofSettings user).withProject project).withEnvironment tag excluded
  match draft.withOverrides overrides with
  | .error trouble => .error trouble
  | .ok draft => draft.check.mapError fun count => .settings .combined (.badValues count)

def readJson (source : SettingsSource) (bytes : List UInt8) : Except Trouble Node :=
  match fileText bytes with
  | .error trouble => .error trouble
  | .ok text =>
    match Json.read text with
    | .ok node => .ok node
    | .error error =>
      .error <|
        match Defect.ofJson? error.fault with
        | some defect => .defect defect
        | none => .settings source (.notJson error)

/-- The user's settings in the file at a path; what is usual if there is no file. -/
def ofUserFile (path : Path) (bytes : Option (List UInt8)) : Except Trouble Settings :=
  let source := SettingsSource.user path.text
  match bytes with
  | none => .ok {}
  | some bytes =>
    match readJson source bytes with
    | .error trouble => .error trouble
    | .ok node =>
      match ofNode? node with
      | .ok settings => .ok settings
      | .error count => .error (.settings source (.badValues count))

def ofProjectFile (path : Path) (bytes : Option (List UInt8)) : Except Trouble (Option Node) :=
  let source := SettingsSource.project path.text
  match bytes with
  | none => .ok none
  | some bytes =>
    match readJson source bytes with
    | .error trouble => .error trouble
    | .ok node => if node.isMap then .ok (some node) else .error (.settings source .noMap)

def fileText (s : Settings) : String := (Json.render? .indented s.toNode).getD "" ++ "\n"

end Settings

/-- What is found on the disk, or the defect that it cannot be reached. -/
def orDefect (found : Except DiskFault α) : Except Trouble α :=
  found.mapError fun fault => .defect (.disk fault)

namespace Surroundings

/-- The folder of the user's settings, which is made when it is needed. -/
def provideSettings (s : Surroundings) : Except Trouble (Path × Surroundings) :=
  orDefect (s.provide settingsFolder)

/-- The user's settings in their folder. -/
def userSettings (folder : Path) (s : Surroundings) : Except Trouble Settings :=
  (orDefect (s.read (settingsFile folder))).bind (Settings.ofUserFile (settingsFile folder))

def projectSettings (s : Surroundings) : Except Trouble (Option Node) :=
  (orDefect (s.read s.projectPath)).bind (Settings.ofProjectFile s.projectPath)

def settings (folder : Path) (overrides : Overrides) (s : Surroundings) :
    Except Trouble Settings :=
  match s.userSettings folder with
  | .error trouble => .error trouble
  | .ok user =>
    match s.projectSettings with
    | .error trouble => .error trouble
    | .ok project =>
      Settings.combine user project (s.variableValue? "SPECIR_DEFAULT_TAG")
        (s.variableValue? "SPECIR_EXCLUDE_PARAMETERS") overrides

/-- Write down the user's settings in their folder. -/
def saveSettings (folder : Path) (settings : Settings) (s : Surroundings) :
    Except Trouble Surroundings :=
  orDefect (s.write (settingsFile folder) settings.fileText)

end Surroundings
end OpenApi
