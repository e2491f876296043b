import OpenApi.Text.Replace
import OpenApi.Text.Utf8

/-
Files and folders.

A disk is a value: a list of what lies at which place.  A program that reads and writes files is
then a function from disks to disks.  Folders that are not listed, but in which something lies, are
there all the same.
-/
namespace OpenApi

/-- What lies at a place. -/
inductive Item where
  | folder
  | file (bytes : List UInt8)
  deriving DecidableEq

/-- A place: the names on the way to it from the root. -/
abbrev Place := List String

inductive Start where
  /-- The folder that one works in. -/
  | here
  | root
  /-- The root, written with two slashes, to which some systems give a meaning of their own. -/
  | doubleRoot
  deriving DecidableEq, Repr, Inhabited

/-- A place as it is written. -/
structure Path where
  start : Start
  names : List String
  deriving DecidableEq, Repr, Inhabited

namespace Start

/-- The start of a path that is written; three slashes mean no more than one. -/
def ofText (text : String) : Start :=
  match text.toList with
  | '/' :: '/' :: '/' :: _ => .root
  | '/' :: '/' :: _ => .doubleRoot
  | '/' :: _ => .root
  | _ => .here

def text : Start → String
  | .here => ""
  | .root => "/"
  | .doubleRoot => "//"

end Start

namespace Path

/-- The path that is written; an empty name and a dot in it lead nowhere. -/
def ofText (text : String) : Path :=
  let pieces := (Text.split '/' text.toList).map String.ofList
  ⟨.ofText text, pieces.filter fun name => name != "" && name != "."⟩

def text (path : Path) : String :=
  if path.start = .here && path.names.isEmpty then "."
  else path.start.text ++ String.intercalate "/" path.names

def enter (path : Path) (name : String) : Path := { path with names := path.names ++ [name] }

/-- The end of the last name from its last point on, unless the name begins or ends there. -/
def suffix (path : Path) : String :=
  let name := (path.names.getLast?.getD "").toList
  let ending := (name.reverse.takeWhile (· != '.')).reverse
  if ending.isEmpty || name.length ≤ ending.length + 1 then "" else String.ofList ('.' :: ending)

/-- The most bytes that a path has. -/
def longest : Nat := 4095

def isLong (path : Path) : Bool := longest < path.text.utf8ByteSize

/-- Whether a path has a null character in it, which no name can have. -/
def hasNull (path : Path) : Bool := path.names.any fun name => name.toList.contains '\x00'

end Path

/-- What keeps a program from reading or writing at a place. -/
inductive DiskFault where
  /-- A folder lies where a file is wanted. -/
  | isFolder
  /-- A file lies where a folder is wanted. -/
  | isFile
  /-- A file lies on the way to the place. -/
  | blocked
  | longName
  | nullName
  /-- The place is in a home folder, and nobody knows where that is. -/
  | noHome
  deriving DecidableEq, Repr

structure Disk where
  items : List (Place × Item) := []
  deriving Inhabited

namespace Disk

def find? (place : Place) (disk : Disk) : Option Item :=
  match disk.items.find? (·.1 == place) with
  | some (_, item) => some item
  | none =>
    if disk.items.any fun (other, _) => place.isPrefixOf other then some .folder
    else if place.isEmpty then some .folder
    else none

def isFolder (place : Place) (disk : Disk) : Bool :=
  match disk.find? place with
  | some .folder => true
  | _ => false

def bytes? (place : Place) (disk : Disk) : Option (List UInt8) :=
  match disk.find? place with
  | some (.file bytes) => some bytes
  | _ => none

/-- Put something at a place, instead of what lies there. -/
def put (place : Place) (item : Item) (disk : Disk) : Disk :=
  { items := (place, item) :: disk.items.filter (·.1 != place) }

/-- The most bytes that a name has. -/
def longestName : Nat := 255

def isLongName (name : String) : Bool := longestName < name.utf8ByteSize

/-- Follow names from a place.  Each step starts in a folder, and two dots lead out of it. -/
def follow (disk : Disk) : Place → List String → Except DiskFault (Option Place)
  | here, [] => .ok (some here)
  | here, name :: rest =>
    if !disk.isFolder here then .ok none
    else if isLongName name then .error .longName
    else disk.follow (if name == ".." then here.dropLast else here ++ [name]) rest

/-- Make the folders on the way from a place, as far as they are missing. -/
def makeFolders (disk : Disk) : Place → List String → Except DiskFault (Place × Disk)
  | here, [] => .ok (here, disk)
  | here, ".." :: rest => makeFolders disk here.dropLast rest
  | here, name :: rest =>
    let place := here ++ [name]
    if isLongName name then .error .longName
    else
      match disk.find? place with
      | some .folder => makeFolders disk place rest
      | some (.file _) => .error (if rest.isEmpty then .isFile else .blocked)
      | none => makeFolders (disk.put place .folder) place rest

/-- Write a file in a folder that is there. -/
def writeIn (folder : Place) (name : String) (bytes : List UInt8) (disk : Disk) :
    Except DiskFault Disk :=
  let place := folder ++ [name]
  if name == ".." || disk.isFolder place then .error .isFolder
  else if isLongName name then .error .longName
  else .ok (disk.put place (.file bytes))

/-- The place from which a path is followed. -/
def origin (here : Place) (path : Path) : Place := if path.start = .here then here else []

def read (disk : Disk) (here : Place) (path : Path) : Except DiskFault (Option (List UInt8)) :=
  if path.hasNull then .ok none
  else if path.isLong then .error .longName
  else (disk.follow (origin here path) path.names).map fun place => place.bind disk.bytes?

/-- Make the folders that a path leads through, and tell the place at its end. -/
def makeWay (here : Place) (path : Path) (disk : Disk) : Except DiskFault (Place × Disk) :=
  if path.hasNull then .error .nullName
  else if path.isLong then .error .longName
  else disk.makeFolders (origin here path) path.names

/-- Make the folder that a path leads to, and those on the way. -/
def makeFolder (here : Place) (path : Path) (disk : Disk) : Except DiskFault Disk :=
  (disk.makeWay here path).map (·.2)

/-- Write a file, and make the folders on the way to it. -/
def write (here : Place) (path : Path) (bytes : List UInt8) (disk : Disk) :
    Except DiskFault Disk :=
  match path.names.getLast? with
  | none => .error .isFolder
  | some name =>
    match disk.makeWay here { path with names := path.names.dropLast } with
    | .error fault => .error fault
    | .ok (folder, disk) =>
      if path.hasNull then .error .nullName
      else if path.isLong then .error .longName
      else disk.writeIn folder name bytes

theorem find?_put_self (place : Place) (item : Item) (disk : Disk) :
    (disk.put place item).find? place = some item := by
  simp [put, find?]

/-- What has been put at a place is read there. -/
theorem bytes?_put (place : Place) (bytes : List UInt8) (disk : Disk) :
    (disk.put place (.file bytes)).bytes? place = some bytes := by
  simp [bytes?, find?_put_self]

end Disk
end OpenApi
