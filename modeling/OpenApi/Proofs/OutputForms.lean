import OpenApi.Output
import OpenApi.Proofs.Except
import OpenApi.Proofs.JsonTexts

/-
The two forms of results.

JSON text begins with a bracket.  Plain text begins with the first key of a map, or with the name of
the first column of a table.
-/
namespace OpenApi

namespace OutputForm

theorem text_json_eq_ok_iff {value : Node} {text : String} :
    json.text value = .ok text ↔ Json.render .readable value = .ok text := by
  unfold OutputForm.text jsonText
  dsimp only
  cases Json.render .readable value with
  | ok found => exact ⟨fun h => congrArg _ (Except.ok.inj h), fun h => congrArg _ (Except.ok.inj h)⟩
  | error cause => exact ⟨nofun, nofun⟩

end OutputForm

theorem Output.writeValue_eq {o : Output} {value : Node} {text : String}
    (h : o.resultForm.text value = .ok text) : o.writeValue value = o.write text := by
  rw [writeValue, h]
  rfl

end OpenApi
