import OpenApi.Surroundings
import OpenApi.Text.Blank
import OpenApi.Text.Charset
import OpenApi.Trouble
import OpenApi.Yaml.Value

/-
Loading a description: from a file, from standard input, or from the web.

The ending of a file's name or the content type of an answer may tell whether the text is JSON or
YAML.  If nothing tells, JSON is tried first.
-/
namespace OpenApi

inductive Format where
  | json
  | yaml
  deriving DecidableEq, Repr

/-- A document, which has to be a map. -/
def asDocument (node : Node) : Except Trouble Node :=
  if node.isMap then .ok node else .error (.source (.noMap node.kind))

/-- The document in a YAML text, which may have been refused as JSON before. -/
def readYaml (json : Option Json.Error) (text : List Char) : Except Trouble Node :=
  match Yaml.read text with
  | .ok node => asDocument node
  | .error .illFormed => .error (.source (.unreadable json))
  | .error fault => .error (.defect (.noValue fault))

def readDocument (format : Option Format) (text : List Char) : Except Trouble Node :=
  if format = some .yaml then readYaml none text
  else
    match Json.read text with
    | .ok node => asDocument node
    | .error error =>
      match Defect.ofJson? error.fault with
      | some defect => .error (.defect defect)
      | none =>
        if format = some .json then .error (.source (.notJson error))
        else readYaml (some error) text

def fileText (bytes : List UInt8) : Except Trouble (List Char) :=
  match Text.Utf8.decode? bytes with
  | some cs => .ok (Text.unifyLineEnds cs)
  | none => .error (.defect .notText)

/-- The notation that a file's name tells. -/
def Format.ofPath? (path : Path) : Option Format :=
  match Text.lower path.suffix with
  | ".json" => some .json
  | ".yaml" => some .yaml
  | ".yml" => some .yaml
  | _ => none

def Format.ofContentType? (contentType : String) : Option Format :=
  let mentions (name : String) := Text.occurs name.toList contentType.toList
  if mentions "json" then some .json
  else if mentions "yaml" || mentions "yml" then some .yaml
  else none

/-- The text between quotes or angle brackets, or the whole text if there are none around it. -/
def unquoted (cs : List Char) : List Char :=
  match cs.head?, cs.getLast? with
  | some '"', some '"' => (cs.drop 1).dropLast
  | some '<', some '>' => (cs.drop 1).dropLast
  | _, _ => cs

/-- The charset that a content type names after one of its semicolons. -/
def Text.Charset.ofContentType (contentType : String) : Text.Charset :=
  let named := (Text.split ';' contentType.toList).findSome? fun part =>
    let (name, value) := Text.cut '=' part
    if Text.lowerChars false (Text.trim name) == "charset".toList then
      some (String.ofList (unquoted (Text.trim value)))
    else none
  (named.map Text.Charset.ofName).getD .utf8

def isUrl (source : String) : Bool :=
  "http://".toList.isPrefixOf source.toList || "https://".toList.isPrefixOf source.toList

/-- The text that the web has at an address, and its notation.  An answer is one if its status says
that the request has succeeded. -/
def Surroundings.fetch (url : String) (s : Surroundings) :
    Except Trouble (List Char × Option Format) :=
  match Url.check url, s.reply with
  | .error fault, _ => .error (.defect (.url fault))
  | .ok _, .failure reason => .error (.source (.unreachable url reason))
  | .ok _, .answer status contentType body =>
    if status < 200 || 300 ≤ status then .error (.source (.refused url status))
    else
      .ok (Text.Charset.decode body (.ofContentType contentType), Format.ofContentType? contentType)

/-- The text of the file at a path that is written, and its notation. -/
def Surroundings.readFile (source : String) (s : Surroundings) :
    Except Trouble (List Char × Option Format) :=
  let path := Path.ofText source
  match s.read path with
  | .error fault => .error (.defect (.disk fault))
  | .ok none => .error (.source (.missing source))
  | .ok (some bytes) => (fileText bytes).map fun text => (text, Format.ofPath? path)

def Surroundings.readSource (source : String) (s : Surroundings) :
    Except Trouble (List Char × Option Format) :=
  if source == "-" then .ok (s.inputText, none)
  else if isUrl source then s.fetch source
  else s.readFile source

def Surroundings.load (source : String) (s : Surroundings) : Except Trouble Node :=
  match s.readSource source with
  | .error trouble => .error trouble
  | .ok (text, format) =>
    if (Text.trim text).isEmpty then
      .error (.source (.blank (if source == "-" then "<stdin>" else source)))
    else readDocument format text

end OpenApi
