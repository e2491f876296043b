/-
What a user may choose about the resolution of a description.
-/
namespace OpenApi

structure Preferences where
  /-- The service of operations without tags. -/
  defaultTag : String := "Default"
  /-- Names of parameters that operations leave out. -/
  excludedParameters : List String := []
  /-- Media types in the order in which they are preferred. -/
  mediaTypes : List String :=
    ["application/json", "application/x-www-form-urlencoded", "multipart/form-data", "text/plain",
      "application/json-patch+json"]
  deriving DecidableEq, Repr, Inhabited

end OpenApi
