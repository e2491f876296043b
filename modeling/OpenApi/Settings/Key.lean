import OpenApi.Settings.Basic
import OpenApi.Trouble

/-
Settings one by one.

A key names a setting by its section and its name in it.  Putting a value there changes that setting
and no other (`get_put_self`, `get_put_of_ne`).
-/
namespace OpenApi

inductive Setting where
  | format
  | defaultTag
  | excludedParameters
  | mediaTypes
  deriving DecidableEq, Repr

namespace Setting

def all : List Setting := [.format, .defaultTag, .excludedParameters, .mediaTypes]

/-- The section of a setting and its name there. -/
def path : Setting → List String
  | .format => ["output", "format"]
  | .defaultTag => ["resolver", "default_tag"]
  | .excludedParameters => ["resolver", "excluded_parameters"]
  | .mediaTypes => ["resolver", "media_type_priority"]

/-- The ways to what has settings in it: the whole and the sections. -/
def sections : List (List String) := [[], ["output"], ["resolver"]]

/-- The setting with a key, which has points between its names. -/
def ofKey (key : String) : Except KeyFault Setting :=
  let names := (Text.split '.' key.toList).map String.ofList
  match all.find? (·.path == names) with
  | some setting => .ok setting
  | none => .error (if sections.contains names.dropLast then .unknown key else .invalid key)

/-- The value that a text stands for: in lists, there are commas between the items. -/
def read : Setting → String → Node
  | .format, text => .str text
  | .defaultTag, text => .str text
  | .excludedParameters, text => Settings.textsNode (Settings.commaSeparated text)
  | .mediaTypes, text => Settings.textsNode (Settings.commaSeparated text)

def get : Setting → Settings → Node
  | .format, s => .str s.format
  | .defaultTag, s => .str s.preferences.defaultTag
  | .excludedParameters, s => Settings.textsNode s.preferences.excludedParameters
  | .mediaTypes, s => Settings.textsNode s.preferences.mediaTypes

/-- Set a setting to the value that a text stands for. -/
def put : Setting → String → Settings → Settings
  | .format, text, s => { s with format := text }
  | .defaultTag, text, s => { s with preferences := { s.preferences with defaultTag := text } }
  | .excludedParameters, text, s =>
    { s with
      preferences := { s.preferences with excludedParameters := Settings.commaSeparated text } }
  | .mediaTypes, text, s =>
    { s with preferences := { s.preferences with mediaTypes := Settings.commaSeparated text } }

theorem get_put_self (setting : Setting) (text : String) (s : Settings) :
    setting.get (setting.put text s) = setting.read text := by
  cases setting <;> rfl

theorem get_put_of_ne {setting other : Setting} (h : other ≠ setting) (text : String)
    (s : Settings) : other.get (setting.put text s) = other.get s := by
  cases setting <;> cases other <;> first | rfl | exact absurd rfl h

end Setting
end OpenApi
