import OpenApi.CommandLine.Run

/-
The program itself: it collects what a command needs from its surroundings, runs the command, and
carries out what has become of files and streams.
-/
namespace OpenApi

partial def readAll (stream : IO.FS.Stream) (done : ByteArray) : IO ByteArray := do
  let chunk ← stream.read 65536
  if chunk.isEmpty then return done
  readAll stream (done ++ chunk)

def readFile (path : Path) : IO (Option (List UInt8)) := do
  try
    return some (← IO.FS.readBinFile path.text).toList
  catch _ => return none

def variableNames : List String :=
  ["HOME", "XDG_CONFIG_HOME", "XDG_DATA_HOME", "SPECIR_DEFAULT_TAG", "SPECIR_EXCLUDE_PARAMETERS"]

def readVariables : IO (List (String × String)) :=
  variableNames.filterMapM fun name => do
    return (← IO.getEnv name).map (name, ·)

/-- The source that a command reads, if it does. -/
def Command.source? : Command → Option String
  | .resolve source _ _ => some source
  | .inspect _ source => some source
  | _ => none

def readsInput (conduct : Conduct) : Command → Bool
  | .resetSettings => !conduct.isForced
  | command => Command.source? command == some "-"

/-- The place that names lead to from a folder. -/
def placeFrom (here : Place) (names : List String) : Place :=
  names.foldl (fun place name => if name == ".." then place.dropLast else place ++ [name]) here

/-- Add a file to a disk, with the folders on the way to it. -/
def addFile (here : Place) (path : Path) (bytes : List UInt8) (disk : Disk) : Disk :=
  let start := Disk.origin here path
  let folders := (List.range path.names.length).map fun n => placeFrom start (path.names.take n)
  (folders.foldl (fun disk place => disk.put place .folder) disk).put
    (placeFrom start path.names) (.file bytes)

/-- A disk with those of the files that there are. -/
def readDisk (here : Place) (paths : List Path) : IO Disk :=
  paths.foldlM (fun disk path => do
    match ← readFile path with
    | some bytes => return addFile here path bytes disk
    | none => return disk) ⟨[(here, .folder)]⟩

/-- Carry out what is different on a disk. -/
def writeDisk (before after : Disk) : IO Unit :=
  after.items.reverse.forM fun (place, item) => do
    let path : Path := ⟨.root, place⟩
    match item with
    | .folder => if !before.isFolder place then IO.FS.createDirAll path.text
    | .file bytes =>
      if before.bytes? place != some bytes then
        IO.FS.writeBinFile path.text ⟨bytes.toArray⟩

end OpenApi

open OpenApi in
def main (arguments : List String) : IO UInt32 := do
  let here := (Path.ofText (← IO.currentDir).toString).names
  let bare : Surroundings :=
    { here := here
      environment := ← readVariables
      reply := .failure "there is no connection" }
  let (paths, needsInput) :=
    match Invocation.ofArguments arguments with
    | .run conduct command =>
      ((bare.settingsFolder.toOption.map Surroundings.settingsFile).toList ++ [bare.projectPath] ++
        (Command.source? command).toList.map Path.ofText ++ conduct.output.file.toList,
        readsInput conduct command)
    | _ => ([], false)
  let disk ← readDisk here paths
  let input ← if needsInput then readAll (← IO.getStdin) .empty else pure .empty
  let surroundings :=
    { bare with disk := disk, input := Text.Utf8.decodeLossy input.toList }
  let (code, session) := Session.run arguments { surroundings := surroundings }
  writeDisk disk session.surroundings.disk
  (← IO.getStderr).putStr session.noted
  (← IO.getStdout).putStr session.printed
  match code with
  | .ok code => return UInt32.ofNat code
  | .error _ => return 1
