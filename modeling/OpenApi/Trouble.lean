import OpenApi.Disk
import OpenApi.Failure
import OpenApi.Json.Reader
import OpenApi.Url
import OpenApi.Yaml.Token

/-
Why a command cannot do its work.

Most troubles are the user's to mend: settings, sources and descriptions that are not as they
should be.  They have a message and an exit code.  A `Defect` is what nobody has made provision
for; it has neither.
-/
namespace OpenApi

inductive SettingsProblem where
  | notJson (error : Json.Error)
  | noMap
  /-- So many values are not of the kind that they should be. -/
  | badValues (count : Nat)
  deriving Repr

inductive SettingsSource where
  | user (path : String)
  | project (path : String)
  | combined
  deriving Repr

/-- What is wrong with the key of a setting. -/
inductive KeyFault where
  /-- It leads through something that is no section. -/
  | invalid (key : String)
  /-- It leads to a section, or to nothing. -/
  | unknown (key : String)
  deriving DecidableEq, Repr

inductive SourceProblem where
  | unreachable (url reason : String)
  | refused (url : String) (status : Int)
  | missing (path : String)
  /-- It holds nothing but white space. -/
  | blank (name : String)
  | notJson (error : Json.Error)
  /-- It is no YAML and, if it could be JSON, no JSON either. -/
  | unreadable (json : Option Json.Error)
  | noMap (kind : Node.Kind)
  deriving Repr

/-- What nobody has made provision for. -/
inductive Defect where
  | malformed (cause : Malformation)
  | notText
  | longNumeral
  | tooDeep
  /-- No request can be made to an address on the web. -/
  | url (fault : Url.Fault)
  /-- A scalar of a YAML text has no value. -/
  | noValue (fault : Yaml.Fault)
  | disk (fault : DiskFault)
  deriving DecidableEq, Repr

/-- The defect behind a fault of a JSON text, unless its author has to mend it. -/
def Defect.ofJson? : Json.Fault → Option Defect
  | .tooLong => some .longNumeral
  | .tooDeep => some .tooDeep
  | _ => none

inductive Trouble where
  | settings (source : SettingsSource) (problem : SettingsProblem)
  | key (fault : KeyFault)
  | source (problem : SourceProblem)
  | resolution (failure : Failure)
  | defect (defect : Defect)

namespace SettingsProblem

/-- The number of values that are not as they should be, in words. -/
def countText (count : Nat) : String :=
  toString count ++ (if count = 1 then " validation error" else " validation errors")

def message : SettingsProblem → String
  | .notJson error => error.message
  | .noMap => "expected a JSON object"
  | .badValues count => countText count ++ " for GlobalConfig"

end SettingsProblem

def SettingsSource.message : SettingsSource → String
  | .user path => "Invalid global config at " ++ path
  | .project path => "Invalid project config at " ++ path
  | .combined => "Invalid configuration"

def KeyFault.message : KeyFault → String
  | .invalid key => "Invalid config key: " ++ key
  | .unknown key => "Unknown config key: " ++ key

def SourceProblem.message : SourceProblem → String
  | .unreachable url reason => "Failed to fetch document from " ++ url ++ ": " ++ reason
  | .refused url status =>
    "HTTP " ++ Number.intText status ++ " fetching document from " ++ url
  | .missing path => "Document not found: " ++ path
  | .blank name => "Document is empty: " ++ name
  | .notJson error => "Invalid JSON: " ++ error.message
  | .unreadable json =>
    "Failed to parse document as JSON or YAML" ++
      (match json with
        | some error => "\n  JSON error: " ++ error.message
        | none => "") ++
      "\n  YAML error: the text is not well formed"
  | .noMap kind =>
    "Document must be a JSON/YAML object (got " ++
      (if kind = .null then "empty document" else kind.name) ++ ")"

namespace Trouble

/-- What is reported to the user, and the exit code that goes with it; nothing for a defect. -/
def report? : Trouble → Option (String × Nat)
  | .settings origin problem => some (origin.message ++ ": " ++ problem.message, 1)
  | .key fault => some (fault.message, 2)
  | .source problem => some (problem.message, 7)
  | .resolution failure => failure.report?
  | .defect _ => none

end Trouble
end OpenApi
