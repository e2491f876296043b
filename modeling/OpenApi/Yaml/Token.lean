/-
What a YAML text is made of, once indentation has been turned into brackets.
-/
namespace OpenApi.Yaml

inductive Fault where
  /-- The text is malformed, or something in it has no meaning. -/
  | illFormed
  /-- A scalar that is meant as a number or a date is none. -/
  | badValue
  /-- A scalar that is meant as a number has no characters. -/
  | noDigits
  /-- A scalar that is meant as a truth value is none. -/
  | noTruthValue
  /-- A scalar that is meant as a moment does not look like one. -/
  | noMoment
  /-- A map is meant as a moment. -/
  | compoundMoment
  /-- A number has a part that is too great for a double. -/
  | tooGreat
  /-- A value is nested too deep, or stands for itself. -/
  | endless
  /-- An escape names no character. -/
  | noCharacter
  /-- An escape names a number that no character could have. -/
  | farCharacter
  deriving DecidableEq, Repr

/-- The tag of a node as it is written: a suffix, and the handle in front of it if there is one. -/
structure TagName where
  handle : Option String
  suffix : String
  deriving DecidableEq, Repr

inductive Directive where
  | version (major : Nat)
  | tag (handle replacement : String)
  | other
  deriving DecidableEq, Repr

inductive Token where
  | directive (d : Directive)
  | documentStart
  | documentEnd
  /-- A list or a map begins by its indentation. -/
  | listIndent
  | mapIndent
  /-- What has begun by indentation ends. -/
  | dedent
  | listOpen
  | listClose
  | mapOpen
  | mapClose
  | item
  | comma
  | key
  | value
  | alias (name : String)
  | anchor (name : String)
  | tag (name : TagName)
  /-- A scalar, and whether it is written without quotes and on the lines of its parent. -/
  | scalar (text : String) (plain : Bool)
  /-- No token can be found here. -/
  | broken (fault : Fault)
  deriving DecidableEq, Repr

end OpenApi.Yaml
