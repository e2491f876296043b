import OpenApi.Proofs.ClientNumbers
import OpenApi.Proofs.OutputForms
import OpenApi.Proofs.StrictJson

/-
Clients as JSON text.

Whatever a client says, JSON has a notation for it, and what is written can be read back.  But the
numbers of a client are those of its description, which may hold more than strict JSON: doubles that
are not finite, and integers that are too long to be written (`written_client`).
-/
namespace OpenApi

namespace Dump

section
variable {P : Node → Prop}

theorem forall_map {α : Type} {f : α → Node} (h : ∀ a, P (f a)) (value : Option α) :
    ∀ v ∈ value.map f, P v := by
  intro v hv
  obtain ⟨a, _, rfl⟩ := Option.map_eq_some_iff.mp hv
  exact h a

/-- Limits are texts, flags and numbers. -/
theorem keyed_ofNumbers (own : Composes P) (numbers : ∀ n, P (number n)) (c : Constraints) :
    Keyed P constraintKeys (constraints c) := by
  have hbound (b : Bound) : P (bound b) := by
    cases b with
    | flag b => exact own.bool b
    | number n => exact numbers n
  have hint (n : Int) : P (.int n) := numbers (.int n)
  unfold constraintKeys constraints
  refine .optional ?_ _ (forall_map hint _)
  refine .optional ?_ _ (forall_map hint _)
  refine .optional ?_ _ (forall_map own.bool _)
  refine .optional ?_ _ (forall_map hint _)
  refine .optional ?_ _ (forall_map hint _)
  refine .optional ?_ _ (own.text? _)
  refine .optional ?_ _ (forall_map hint _)
  refine .optional ?_ _ (forall_map hint _)
  refine .optional ?_ _ (forall_map numbers _)
  refine .optional ?_ _ (forall_map hbound _)
  refine .optional ?_ _ (forall_map numbers _)
  refine .optional ?_ _ (forall_map hbound _)
  refine .optional ?_ _ (forall_map numbers _)
  exact keyed_optional _ (own.text? _)

/-- A client has a property of its parts if all numbers have it. -/
theorem client_ofNumbers (own : Composes P) (numbers : ∀ n, P (number n)) (c : Client) :
    P (client c) := by
  have hlimits (m : Model) : m.LimitsHave P := fun part _ =>
    (keyed_ofNumbers own numbers part.constraints).values
  have hcode (n : Int) : P (.int n) := numbers (.int n)
  exact composes_client own ⟨fun m _ => hlimits m, fun _ _ _ _ =>
    ⟨fun m _ => hlimits m, fun r _ => hcode r.code, fun e _ => hcode e.code⟩⟩

end

theorem mem_models {m : Model} {ms : List Model} (h : m ∈ ms) :
    .map (modelEntries m) ∈ models ms := by
  induction h with
  | head rest => exact List.mem_cons_self
  | tail _ _ ih => exact List.mem_cons_of_mem _ ih

/-- The limits of a client's models stand in the client. -/
theorem occursIn_client {c : Client} {m : Model} (h : m ∈ c.models) {e : Scalar × Node}
    (he : e ∈ constraints m.constraints) : e.2.OccursIn (client c) := by
  have hmodel : e ∈ modelEntries m := by
    cases m
    simp only [modelEntries, List.mem_append, he, or_true, true_or]
  exact .entry (List.mem_append_left _ (List.mem_append_right _ (List.mem_singleton_self _)))
    (.item (mem_models h) (.entry hmodel .whole))

theorem hasNotation_client (c : Client) : (client c).HasNotation := by
  refine client_ofNumbers ⟨.str, .bool, .list, ?_⟩ (fun n => ?_) c
  · intro entries keys distinct hkeys parts
    exact .ofKeys keys distinct hkeys parts
  · cases n with
    | int n => exact .int n
    | float x => exact .float x

/-- What a client does not say is left out. -/
theorem no_null_client (c : Client) : ¬ Node.null.OccursIn (client c) := by
  refine client_ofNumbers (P := fun node => ¬ Node.null.OccursIn node) ⟨?_, ?_, ?_, ?_⟩ ?_ c
  · intro s h
    cases h
  · intro b h
    cases h
  · intro items parts h
    cases h with
    | item mem below => exact parts _ mem below
  · intro entries _ _ _ parts h
    cases h with
    | entry mem below => exact parts _ mem below
  · intro n h
    cases n <;> cases h

end Dump

/-- Whether a number is one that strict JSON has, and that is not too long to be written. -/
def Scalar.IsPlainNumber (s : Scalar) : Prop :=
  s.isFinite = true ∧ ∀ n, s = .int n → Number.isLong n = false

theorem Scalar.isAboutNumbers_isPlainNumber : Scalar.IsAboutNumbers Scalar.IsPlainNumber where
  null := ⟨rfl, nofun⟩
  bool _ := ⟨rfl, nofun⟩
  str _ := ⟨rfl, nofun⟩
  int n short := ⟨rfl, fun m hm => by cases hm; exact short⟩

theorem Json.blanks_newline : Json.Blanks ['\n'] := fun _ hc => .inr (List.mem_singleton.mp hc)

namespace Client

/-- The JSON text of a client is there just if its integers fit, and stands for the client.  It is
strict just if the client's doubles are finite, and read as the client unless it is nested too
deep.  Both is so if the description has only such numbers. -/
theorem written_client {preferences : Preferences} {document : Node} {client : Client}
    (accepted : (Client.resolve preferences document).client = .ok client) {o : Output}
    (json : o.resultForm = .json) :
    ((∃ text, o.resultForm.text (Dump.client client) = .ok text) ↔
        (Dump.client client).IntsFit) ∧
    (∀ text, o.resultForm.text (Dump.client client) = .ok text →
      o.writeValue (Dump.client client) = o.write text ∧
      Json.Notes .readable (Dump.client client) text.toList ∧
      (Json.IsDocument (text ++ "\n").toList ↔ (Dump.client client).FloatsFinite) ∧
      ((Dump.client client).nesting ≤ Json.deepest →
        Json.read (text ++ "\n").toList = .ok (Dump.client client))) ∧
    ¬ Node.null.OccursIn (Dump.client client) ∧
    (document.AllScalars Scalar.IsPlainNumber →
      (Dump.client client).IntsFit ∧ (Dump.client client).FloatsFinite) := by
  have plain := Dump.hasNotation_client client
  refine ⟨?_, ?_, Dump.no_null_client client, ?_⟩
  · rw [json]
    simp only [OutputForm.text_json_eq_ok_iff]
    exact Json.exists_render_iff rfl plain
  · intro text h
    have hrender := OutputForm.text_json_eq_ok_iff.mp (json ▸ h)
    have notes := Json.notes_of_render rfl plain hrender
    rw [String.toList_append]
    exact ⟨Output.writeValue_eq h, notes, Json.isDocument_iff notes Json.blanks_newline,
      fun shallow => Json.read_render rfl plain shallow hrender Json.blanks_newline⟩
  · intro numbers
    have all := allScalars_client Scalar.isAboutNumbers_isPlainNumber numbers accepted
    exact ⟨fun n hn => (all.values _ hn).2 n rfl, fun x hx => (all.values (.float x) hx).1⟩

/-- A description with one definition, a number that has an upper limit. -/
def limitedDocument (limit : Scalar) : Node := .map
  [(.str "openapi", .str "3.0.0"), (.str "paths", .map []),
    (.str "components", .map [(.str "schemas", .map
      [(.str "Price", .map [(.str "type", .str "number"), (.str "maximum", .scalar limit)])])])]

theorem allScalars_limitedDocument {limit : Scalar} (h : limit.IsPlainNumber) :
    (limitedDocument limit).AllScalars Scalar.IsPlainNumber := by
  have own := composes_allScalars Scalar.isAboutNumbers_isPlainNumber
  have under (key : String) {node : Node} (hnode : node.AllScalars Scalar.IsPlainNumber) :
      (Node.map [(.str key, node)]).AllScalars Scalar.IsPlainNumber :=
    own.ofKeyed (List.nodup_singleton key) (Dump.keyed_always key hnode)
  have hprice : (Node.map [(.str "type", .str "number"), (.str "maximum", .scalar limit)]).AllScalars
      Scalar.IsPlainNumber :=
    own.ofKeyed (by decide)
      ((Dump.keyed_always "type" (own.str "number")).always "maximum" (Node.allScalars_scalar h))
  have hempty : (Node.map []).AllScalars Scalar.IsPlainNumber :=
    own.map [] List.nodup_nil (.refl _) (List.forall_mem_nil _)
  exact own.ofKeyed (by decide)
    (((Dump.keyed_always "openapi" (own.str "3.0.0")).always "paths" hempty).always
      "components" (under "schemas" (under "Price" hprice)))

/-- A price of less than a hundred. -/
def pricedDocument : Node := limitedDocument (.float (Numeral.double false ['9', '9'] ['5'] 0))

theorem resolve_pricedDocument : (resolve {} pricedDocument).client.isOk = true := by
  rw [@client_resolve_eq {} pricedDocument .v3 _ rfl rfl]
  delta definitionModels definitionModel sharedParameterModel
  rw [Schema.build_eq fun _ => .error (.malformed .endless)]
  decide +kernel

theorem written_pricedDocument : ∃ client text,
    (resolve {} pricedDocument).client = .ok client ∧
      OutputForm.json.text (Dump.client client) = .ok text ∧
      Json.Notes .readable (Dump.client client) text.toList ∧
      Json.IsDocument (text ++ "\n").toList := by
  obtain ⟨client, hclient⟩ := Except.exists_of_isOk resolve_pricedDocument
  obtain ⟨hwritten, hstrict, _, hnumbers⟩ := written_client hclient (o := { form := .json }) rfl
  obtain ⟨fits, finite⟩ := hnumbers (allScalars_limitedDocument ⟨by decide +kernel, nofun⟩)
  obtain ⟨text, htext⟩ := hwritten.mpr fits
  obtain ⟨_, notes, hdocument, _⟩ := hstrict text htext
  exact ⟨client, text, hclient, htext, notes, hdocument.mpr finite⟩

/-- A price without a limit, for which the description writes one that is not finite. -/
def boundlessDocument : Node := limitedDocument (.float (.infinite false))

theorem resolve_boundlessDocument : (resolve {} boundlessDocument).client.isOk = true := by
  rw [@client_resolve_eq {} boundlessDocument .v3 _ rfl rfl]
  delta definitionModels definitionModel sharedParameterModel
  rw [Schema.build_eq fun _ => .error (.malformed .endless)]
  decide +kernel

theorem maximum_boundlessDocument : ((definitionModels ⟨boundlessDocument, .v3⟩).toOption.map
    fun models => models.map (·.constraints.maximum)) =
      some [some (.float (.infinite false))] := by
  delta definitionModels definitionModel sharedParameterModel
  rw [Schema.build_eq fun _ => .error (.malformed .endless)]
  decide +kernel

/-- A client with a limit that is not finite has no strict JSON text. -/
theorem not_isDocument_boundlessDocument : ¬ ∀ (preferences : Preferences) (document : Node)
    (client : Client) (o : Output), (resolve preferences document).client = .ok client →
      o.resultForm = .json → ∃ text, o.resultForm.text (Dump.client client) = .ok text ∧
        Json.IsDocument (text ++ "\n").toList := by
  intro h
  obtain ⟨client, hclient⟩ := Except.exists_of_isOk resolve_boundlessDocument
  obtain ⟨text, htext, strict⟩ := h {} boundlessDocument client { form := .json } hclient rfl
  have notes := Json.notes_of_render rfl (Dump.hasNotation_client client)
    (OutputForm.text_json_eq_ok_iff.mp htext)
  rw [String.toList_append] at strict
  have finite := (Json.isDocument_iff notes Json.blanks_newline).mp strict
  obtain ⟨dialect, root, models, hdetect, made⟩ := exists_madeFrom_of_resolve hclient
  have hdialect : Dialect.detect boundlessDocument = .ok .v3 := rfl
  cases hdialect.symm.trans hdetect
  obtain ⟨built, hbuilt, hmaximum⟩ :=
    Except.exists_of_toOption_map maximum_boundlessDocument
  cases hbuilt.symm.trans made.built
  obtain ⟨price, hprice, hlimit⟩ := List.mem_map.mp (hmaximum ▸ List.mem_singleton_self _)
  have hmem : price.tidy ∈ client.models := by
    rw [made.models_eq, mem_sortByName]
    exact List.mem_map_of_mem hprice
  have hlimits :
      (.str "maximum", .float (.infinite false)) ∈ Dump.constraints price.tidy.constraints := by
    rw [Model.constraints_tidy, Dump.constraints, hlimit]
    simp [Dump.optional, Dump.always, Dump.number]
  cases finite _ (Dump.occursIn_client hmem hlimits)

end Client
end OpenApi
