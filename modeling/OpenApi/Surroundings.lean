import OpenApi.Disk
import OpenApi.Text.LineEnd

/-
What a program finds around it: files, environment variables, its input, and the web.
-/
namespace OpenApi

inductive Reply where
  /-- There is no connection, for the given reason. -/
  | failure (reason : String)
  | answer (status : Int) (contentType : String) (body : List UInt8)
  deriving Inhabited

structure Surroundings where
  disk : Disk := {}
  /-- The folder that the program works in. -/
  here : Place := []
  environment : List (String × String) := []
  platform : String := "Linux"
  input : List Char := []
  reply : Reply := .answer 200 "" []
  deriving Inhabited

namespace Surroundings

/-- The value of an environment variable, unless it is empty. -/
def variableValue? (name : String) (s : Surroundings) : Option String :=
  ((s.environment.find? (·.1 == name)).map (·.2)).filter (!·.isEmpty)

/-- The input as a text, in which every line ends in the same way. -/
def inputText (s : Surroundings) : List Char := Text.unifyLineEnds s.input

def inputLines (s : Surroundings) : List (List Char) :=
  let lines := Text.split '\n' s.inputText
  if lines.getLast? == some [] then lines.dropLast else lines

/-- Whether the system keeps settings and data of programs in folders that variables name. -/
def namesFolders (s : Surroundings) : Bool :=
  s.platform == "Linux" || "DSB".toList.isPrefixOf s.platform.toList.reverse

/-- The home folder.  Slashes at the end of what the variable says do not count, and nobody knows
where it is if the variable stands for it by a tilde again. -/
def home (s : Surroundings) : Except DiskFault Path :=
  let named := ((s.variableValue? "HOME").getD "").toList
  let name := (named.reverse.dropWhile (· == '/')).reverse
  if name.head? = some '~' then .error .noHome
  else .ok (.ofText (if name.isEmpty then "/" else String.ofList name))

/-- The folder that a variable names, or the one that is usual in the home folder. -/
def baseFolder (name : String) (usual : List String) (s : Surroundings) : Except DiskFault Path :=
  match s.variableValue? name with
  | some path => .ok (.ofText path)
  | none => s.home.map fun home => usual.foldl Path.enter home

def settingsFolder (s : Surroundings) : Except DiskFault Path :=
  if s.namesFolders then
    (s.baseFolder "XDG_CONFIG_HOME" [".config"]).map fun folder => folder.enter "specir"
  else s.home.map fun home => home.enter ".specir"

/-- The folder of what the program writes down for itself. -/
def dataFolder (s : Surroundings) : Except DiskFault Path :=
  if s.namesFolders then
    (s.baseFolder "XDG_DATA_HOME" [".local", "share"]).map fun folder => folder.enter "specir"
  else s.home.map fun home => (home.enter ".specir").enter "logs"

def settingsFile (folder : Path) : Path := folder.enter "config.json"

/-- The file of the settings for the folder that the program works in. -/
def projectPath (s : Surroundings) : Path := ⟨.root, s.here ++ ["specir.json"]⟩

def read (path : Path) (s : Surroundings) : Except DiskFault (Option (List UInt8)) :=
  s.disk.read s.here path

def makeFolder (path : Path) (s : Surroundings) : Except DiskFault Surroundings :=
  (s.disk.makeFolder s.here path).map fun disk => { s with disk := disk }

/-- The path of a folder, and the surroundings in which it is there. -/
def provide (folder : Surroundings → Except DiskFault Path) (s : Surroundings) :
    Except DiskFault (Path × Surroundings) :=
  match folder s with
  | .error fault => .error fault
  | .ok path => (s.makeFolder path).map fun s => (path, s)

def write (path : Path) (text : String) (s : Surroundings) : Except DiskFault Surroundings :=
  (s.disk.write s.here path (Text.Utf8.encode text.toList)).map fun disk =>
    { s with disk := disk }

end Surroundings
end OpenApi
