import OpenApi.Schema.Build

/-
The keywords that say something of a schema itself.

Apart from its parts, a reference and a discriminator, whatever is read of a schema is read of these
keywords.  So schemas that have the same under them say the same (`SameKeywords`), whatever becomes
of their parts.
-/
namespace OpenApi.Schema

/-- The keywords under which there are neither schemas nor references. -/
def plainKeywords : List String :=
  ["type", "format", "description", "deprecated", "readOnly", "nullable", "x-nullable", "enum",
    "x-enum-varnames", "x-enum-descriptions", "default", "required", "maximum",
    "exclusiveMaximum", "minimum", "exclusiveMinimum", "multipleOf", "maxLength", "minLength",
    "pattern", "maxItems", "minItems", "uniqueItems", "maxProperties", "minProperties"]

/-- Whether two schemas have the same under these keywords. -/
def SameKeywords (schema schema' : Node) : Prop :=
  ∀ key ∈ plainKeywords, schema.get? key = schema'.get? key

namespace SameKeywords

variable {schema schema' : Node} (h : SameKeywords schema schema')
include h

theorem symm : SameKeywords schema' schema := fun key hkey => (h key hkey).symm

theorem get?_eq {key : String} (hkey : key ∈ plainKeywords) :
    schema.get? key = schema'.get? key := h key hkey

theorem get_eq {key : String} (hkey : key ∈ plainKeywords) : schema.get key = schema'.get key := by
  rw [Node.get, Node.get, h.get?_eq hkey]

theorem declaresType_eq (name : String) : declaresType schema name = declaresType schema' name := by
  rw [declaresType, declaresType, h.get_eq (by decide)]

theorem requiredNames_eq : requiredNames schema = requiredNames schema' := by
  rw [requiredNames, requiredNames, h.get_eq (by decide)]

theorem plainModel_eq (name : String) (isDefinition : Bool) :
    plainModel schema name isDefinition = plainModel schema' name isDefinition := by
  simp (disch := decide) only [plainModel, constraints, allowsNull, h.get_eq]

theorem withDefault_eq (model : Model) : withDefault schema model = withDefault schema' model := by
  simp (disch := decide) only [withDefault, defaultLiteral, h.get?_eq]

theorem listedMembers_eq : listedMembers schema = listedMembers schema' := by
  have hextend (members : List Enumerator) :
      Enumerator.extend members schema = Enumerator.extend members schema' := by
    simp (disch := decide) only [Enumerator.extend, h.get_eq]
  simp (disch := decide) only [listedMembers, h.get?_eq, h.get_eq, hextend]

theorem describedMembers_eq : describedMembers schema = describedMembers schema' := by
  simp (disch := decide) only [describedMembers, h.get_eq]

end SameKeywords
end OpenApi.Schema
