import OpenApi.Document.Display
import OpenApi.Json.Writer

/-
Why a description cannot be resolved.

Resolution is all or nothing, so one cause is reported.  A reference that leads nowhere and a
version that is not supported are problems of the description that its author can mend, and have a
message and an exit code of their own.  A value of the wrong kind in a place that is read without
looking is a `Malformation`.
-/
namespace OpenApi

/-- Where a reference stops making sense. -/
inductive PointerFault where
  /-- It does not begin with `#/`, or is no text at all. -/
  | external
  /-- A map on its way lacks the key. -/
  | missingKey (key : String)
  /-- A list on its way has no such index. -/
  | badIndex (segment : String)
  /-- It leads into a value that has no parts to name. -/
  | leaf (kind : Node.Kind)
  deriving DecidableEq, Repr

/-- A value of the wrong kind where a description is read without looking at the kind first. -/
inductive Malformation where
  | noMembers
  | noItems
  | noFirstKey
  | noText
  /-- Bytes or a date are used as a text. -/
  | nearlyText
  /-- A list or a map is looked up, as if it were a key. -/
  | compoundKey
  /-- A numeral has digits that are not decimal, or too many digits. -/
  | noDecimal
  | longNumber
  /-- A value has no JSON text, or its keys have no order. -/
  | unwritable
  /-- A value contains itself, and so has no JSON text. -/
  | circular
  /-- A schema contains itself, without a reference between. -/
  | endless
  deriving DecidableEq, Repr

inductive Failure where
  /-- A reference, as a text, and where it stops making sense. -/
  | unresolvable (ref : String) (fault : PointerFault)
  /-- The version marker that names no dialect, null if there is none. -/
  | unsupported (marker : Node)
  | malformed (cause : Malformation)
  deriving Inhabited

/-- A text that exists unless a number in it has too many digits. -/
def Failure.orTooLong : Option String → Except Failure String
  | some text => .ok text
  | none => .error (.malformed .longNumber)

/-- The plain text of a value. -/
def Node.written (node : Node) : Except Failure String := Failure.orTooLong node.plain?

def Scalar.written (key : Scalar) : Except Failure String := Failure.orTooLong key.text?

def Failure.ofUnwritable : Json.Unwritable → Failure
  | .noText => .malformed .unwritable
  | .tooLong => .malformed .longNumber
  | .endless => .malformed .circular

def PointerFault.message : PointerFault → String
  | .external => "only internal references (#/...) are supported"
  | .missingKey key => "key '" ++ key ++ "' not found at path"
  | .badIndex segment => "invalid array index '" ++ segment ++ "'"
  | .leaf kind => "cannot navigate into " ++ kind.name

namespace Failure

def referenceMessage (ref : String) (fault : PointerFault) : String :=
  "Could not find reference: \"" ++ ref ++ "\" (" ++ fault.message ++ ")"

def versionMessage : Node → String
  | .null =>
    "Missing 'swagger' or 'openapi' version marker. Is this an OpenAPI 2 or 3 document?"
  | .str s =>
    "Unsupported OpenAPI version: \"" ++ s ++
      "\". Only Swagger 2.x and OpenAPI 3.x documents are supported."
  | marker =>
    "Version marker must be a string, got " ++ marker.kind.name ++ " (" ++
      marker.display?.getD "" ++ "). Quote the version in the document."

/-- What is reported to the author of the description, and the exit code that goes with it; nothing
for a malformation. -/
def report? : Failure → Option (String × Nat)
  | .unresolvable ref fault => some (referenceMessage ref fault, 8)
  | .unsupported marker => some (versionMessage marker, 9)
  | .malformed _ => none

end Failure
end OpenApi
