import OpenApi.Document.Node
import OpenApi.Preferences
import OpenApi.Text.Blank
import OpenApi.Text.Replace

/-
Settings: what a user may choose about the output and the resolution.

Settings are written down as a document with two sections.  What is read is first a `Draft`, whose
values may be of any kind; checking it counts the values that are not of the kind they should be.
-/
namespace OpenApi

structure Settings where
  format : String := "auto"
  preferences : Preferences := {}
  deriving DecidableEq, Repr, Inhabited

namespace Settings

/-- The items between commas, trimmed; empty ones do not count. -/
def commaSeparated (text : String) : List String :=
  (((Text.split ',' text.toList).map Text.trim).filter (!·.isEmpty)).map String.ofList

def textsNode (items : List String) : Node := .list (items.map Node.str)

/-- A section or a document with members in the given order. -/
def membersNode (members : List (String × Node)) : Node :=
  .map (members.map fun (name, value) => (.str name, value))

def outputNode (s : Settings) : Node := membersNode [("format", .str s.format)]

def resolverNode (s : Settings) : Node :=
  membersNode [("default_tag", .str s.preferences.defaultTag),
    ("excluded_parameters", textsNode s.preferences.excludedParameters),
    ("media_type_priority", textsNode s.preferences.mediaTypes)]

/-- The document that settings are written down as. -/
def toNode (s : Settings) : Node :=
  membersNode [("output", s.outputNode), ("resolver", s.resolverNode)]

structure Draft where
  format : Node
  defaultTag : Node
  excludedParameters : Node
  mediaTypes : Node

namespace Draft

def ofSettings (s : Settings) : Draft :=
  { format := .str s.format
    defaultTag := .str s.preferences.defaultTag
    excludedParameters := textsNode s.preferences.excludedParameters
    mediaTypes := textsNode s.preferences.mediaTypes }

/-- Put the members of a section about the output in the place of what is there. -/
def withOutput (part : Node) (d : Draft) : Draft :=
  { d with format := (part.get? "format").getD d.format }

def withResolver (part : Node) (d : Draft) : Draft :=
  { d with
    defaultTag := (part.get? "default_tag").getD d.defaultTag
    excludedParameters := (part.get? "excluded_parameters").getD d.excludedParameters
    mediaTypes := (part.get? "media_type_priority").getD d.mediaTypes }

/-- The number of values that are not as they should be where a text is wanted. -/
def textFaults (node : Node) : Nat := if node.str?.isSome then 0 else 1

/-- The same where a list of texts is wanted; each item counts. -/
def textsFaults (node : Node) : Nat :=
  match node.items? with
  | none => 1
  | some items => items.countP fun item => item.str?.isNone

def texts (node : Node) : List String := (node.items?.getD []).filterMap Node.str?

def resolverFaults (d : Draft) : Nat :=
  textFaults d.defaultTag + textsFaults d.excludedParameters + textsFaults d.mediaTypes

def faults (d : Draft) : Nat := textFaults d.format + d.resolverFaults

def preferences (d : Draft) : Preferences :=
  { defaultTag := d.defaultTag.str?.getD ""
    excludedParameters := texts d.excludedParameters
    mediaTypes := texts d.mediaTypes }

/-- The settings of a draft, or the number of its faults. -/
def check (d : Draft) : Except Nat Settings :=
  if d.faults = 0 then .ok ⟨d.format.str?.getD "", d.preferences⟩ else .error d.faults

end Draft

/-- One if a document has a section that is no map. -/
def sectionFaults (name : String) (document : Node) : Nat :=
  match document.get? name with
  | some part => if part.isMap then 0 else 1
  | none => 0

/-- The settings in a document, or the number of its faults.  What is left out is as usual, and
members without a meaning do not count. -/
def ofNode? (document : Node) : Except Nat Settings :=
  if document.isMap then
    let draft := ((Draft.ofSettings {}).withOutput (document.get "output")).withResolver
      (document.get "resolver")
    let count := sectionFaults "output" document + sectionFaults "resolver" document + draft.faults
    if count = 0 then draft.check else .error count
  else .error 1

/-- The preferences in a document of their own, or the number of its faults. -/
def preferencesOf? (document : Node) : Except Nat Preferences :=
  if document.isMap then
    let draft := (Draft.ofSettings {}).withResolver document
    if draft.resolverFaults = 0 then .ok draft.preferences else .error draft.resolverFaults
  else .error 1

end Settings
end OpenApi
