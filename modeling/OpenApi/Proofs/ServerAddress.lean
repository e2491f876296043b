import OpenApi.Proofs.BuildFailures
import OpenApi.Proofs.Resolution

/-
Where the address of the server can be read.

The members that an address is put together from are read without looking at their kinds, apart from
those that do not count as present.  `Dialect.LegibleServer` says of which kinds they have to be, and
it is both sufficient and necessary.
-/
namespace OpenApi

/-- Whether a value, if it counts as present, is a text. -/
def Node.IsTextIfPresent (node : Node) : Prop := node.isTruthy = true → ∃ s, node = .str s

/-- Whether a value, if it counts as present, is a map. -/
def Node.IsMapIfPresent (node : Node) : Prop := node.isTruthy = true → ∃ entries, node = .map entries

/-! ### The address of the server -/

namespace Dialect

/-- What an address is put together from: in Swagger 2 a list or text of schemes, and a base path
that is a text unless there is a host; in OpenAPI 3 a list that begins with a server, whose address
is a text and whose variables are a map. -/
def LegibleServer (root : Entries) : Dialect → Prop
  | .v2 =>
    ((member "schemes" root).isTruthy = true →
      (∃ items, member "schemes" root = .list items) ∨ ∃ s, member "schemes" root = .str s) ∧
    ((member "host" root).isTruthy = true ∨ (member "basePath" root).IsTextIfPresent)
  | .v3 =>
    (member "servers" root).isTruthy = true → ∃ server rest,
      member "servers" root = .list (.map server :: rest) ∧
        (member "url" server).IsTextIfPresent ∧ (member "variables" server).IsMapIfPresent

variable {root : Entries}

theorem isJson_member (json : (Node.map root).isJson = true) (key : String) :
    (member key root).isJson = true := Node.isJson_get json key

theorem exists_withoutSlashes_iff {address : Except Failure Node} :
    (∃ text, (address >>= withoutSlashes) = .ok text) ↔ ∃ s, address = .ok (.str s) := by
  constructor
  · rintro ⟨text, h⟩
    obtain ⟨node, hnode, h⟩ := Except.bind_eq_ok_iff.mp h
    unfold withoutSlashes at h
    split at h
    · exact ⟨_, hnode⟩
    · cases h
    · cases h
  · rintro ⟨s, rfl⟩
    exact ⟨_, rfl⟩

theorem exists_orElse_iff {node : Node} :
    (∃ s, orElse node (.str "") = .str s) ↔ node.IsTextIfPresent := by
  unfold orElse Node.IsTextIfPresent
  cases node.isTruthy with
  | false => simp
  | true => simp

theorem isJson_orElse {node other : Node} (json : node.isJson = true)
    (hother : other.isJson = true) : (orElse node other).isJson = true := by
  unfold orElse
  split
  · exact json
  · exact hother

theorem find?_int_of_isJson {entries : Entries} (json : (Node.map entries).isJson = true) :
    Entries.find? (.int 0) entries = none := by
  rw [Node.isJson_map_iff] at json
  induction entries with
  | nil => rfl
  | cons e rest ih =>
    obtain ⟨k, v⟩ := e
    rw [List.forall_mem_cons] at json
    obtain ⟨s, hkey, _⟩ := Scalar.written_of_isJsonKey json.1.1
    have hdiffers : k.same (.int 0) = false := by
      rw [show k = .str s from hkey]
      rfl
    rw [Entries.find?, hdiffers]
    exact ih json.2

/-- Of what counts as present, only lists and texts have a first item: where keys are texts, a map
has none. -/
theorem exists_first_iff {node : Node} (json : node.isJson = true)
    (present : node.isTruthy = true) :
    (∃ item, first node = .ok item) ↔ (∃ items, node = .list items) ∨ ∃ s, node = .str s := by
  cases node with
  | list items =>
    cases items with
    | nil => cases present
    | cons item rest => exact ⟨fun _ => .inl ⟨_, rfl⟩, fun _ => ⟨item, rfl⟩⟩
  | map entries => simp [first, find?_int_of_isJson json]
  | scalar s =>
    cases s with
    | str s =>
      refine ⟨fun _ => .inr ⟨s, rfl⟩, fun _ => ?_⟩
      cases hs : s.toList with
      | nil =>
        have hempty : s = "" := String.toList_eq_nil_iff.mp hs
        rw [hempty] at present
        cases present
      | cons c rest => exact ⟨.str (String.singleton c), by rw [first, hs]⟩
    | bytes _ => cases json
    | moment _ => cases json
    | _ => simp [first]
  | _ => cases json

theorem isJson_of_first {node item : Node} (json : node.isJson = true)
    (h : first node = .ok item) : item.isJson = true := by
  unfold first at h
  split at h
  · cases h
    exact Node.isJson_list_iff.mp json _ List.mem_cons_self
  · split at h
    · cases h
      refine Text.digitsFit_of_length_le ?_
      rw [String.toList_singleton]
      exact Nat.succ_le_of_lt (by decide)
    · cases h
  · cases json
  · rw [find?_int_of_isJson json] at h
    cases h
  · cases h

/-- The first of the values that count as present, or another one if none do. -/
def firstOr (node other : Node) : Except Failure Node :=
  if node.isTruthy = true then first node else .ok other

theorem addressV2_eq (root : Entries) : addressV2 root =
    firstOr (member "schemes" root) (.str "http") >>= fun scheme =>
      if (member "host" root).isTruthy = true then do
        return .str ((← scheme.written) ++ "://" ++ (← (member "host" root).written) ++
          (← (orElse (member "basePath" root) (.str "")).written))
      else pure (orElse (member "basePath" root) (.str "")) := by
  unfold addressV2 firstOr
  dsimp only
  split <;> rfl

theorem exists_firstOr_iff {node : Node} (other : Node) (json : node.isJson = true) :
    (∃ item, firstOr node other = .ok item) ↔
      (node.isTruthy = true → (∃ items, node = .list items) ∨ ∃ s, node = .str s) := by
  unfold firstOr
  by_cases present : node.isTruthy = true
  · rw [if_pos present, exists_first_iff json present]
    exact ⟨fun h _ => h, fun h => h present⟩
  · rw [if_neg present]
    exact ⟨fun _ h => absurd h present, fun _ => ⟨other, rfl⟩⟩

theorem isJson_of_firstOr {node other item : Node} (json : node.isJson = true)
    (hother : other.isJson = true) (h : firstOr node other = .ok item) : item.isJson = true := by
  unfold firstOr at h
  split at h
  · exact isJson_of_first json h
  · cases h
    exact hother

theorem exists_server_v2_iff (json : (Node.map root).isJson = true) :
    (∃ text, server .v2 (.map root) = .ok text) ↔ LegibleServer root .v2 := by
  have hserver : server .v2 (.map root) = addressV2 root >>= withoutSlashes := rfl
  have hschemes := isJson_member json "schemes"
  rw [hserver, exists_withoutSlashes_iff, addressV2_eq, LegibleServer, ← exists_orElse_iff,
    ← exists_firstOr_iff (.str "http") hschemes]
  constructor
  · rintro ⟨s, h⟩
    obtain ⟨scheme, hscheme, h⟩ := Except.bind_eq_ok_iff.mp h
    refine ⟨⟨scheme, hscheme⟩, ?_⟩
    split at h
    · rename_i hpresent
      exact .inl hpresent
    · exact .inr ⟨s, Except.pure_eq_ok_iff.mp h⟩
  · rintro ⟨⟨scheme, hscheme⟩, haddress⟩
    rw [hscheme]
    show ∃ s, (if (member "host" root).isTruthy = true then _ else _) = _
    by_cases hpresent : (member "host" root).isTruthy = true
    · obtain ⟨text, htext⟩ := Node.exists_written (isJson_of_firstOr hschemes rfl hscheme)
      obtain ⟨host, hhost⟩ := Node.exists_written (isJson_member json "host")
      have hbasePath : (orElse (member "basePath" root) (.str "")).isJson = true :=
        isJson_orElse (isJson_member json "basePath") rfl
      obtain ⟨path, hpath⟩ := Node.exists_written hbasePath
      exact ⟨text ++ "://" ++ host ++ path, by rw [if_pos hpresent, htext, hhost, hpath]; rfl⟩
    · obtain ⟨s, hs⟩ := haddress.resolve_left hpresent
      exact ⟨s, by rw [if_neg hpresent, hs]; rfl⟩

theorem exists_variableText {node : Node} (json : node.isJson = true) :
    ∃ text, variableText node = .ok text := by
  unfold variableText
  split
  · rename_i entries
    cases hdefault : Entries.get? "default" entries with
    | none => exact ⟨"", rfl⟩
    | some value =>
      exact Node.exists_written (@Node.isJson_get? (.map entries) "default" value json hdefault)
  · exact ⟨"", rfl⟩

theorem exists_substitute {slots : Entries} (json : (Node.map slots).isJson = true)
    (url : List Char) : ∃ text, substitute url slots = .ok text := by
  rw [Node.isJson_map_iff] at json
  unfold substitute
  induction slots generalizing url with
  | nil => exact ⟨url, rfl⟩
  | cons e rest ih =>
    rw [List.forall_mem_cons] at json
    obtain ⟨name, _, hname⟩ := Scalar.written_of_isJsonKey json.1.1
    obtain ⟨text, htext⟩ := exists_variableText json.1.2
    obtain ⟨last, hrest⟩ :=
      ih json.2 (Text.replace ('\x7b' :: name.toList ++ ['\x7d']) text.toList url)
    refine ⟨last, ?_⟩
    rw [List.foldlM_cons]
    dsimp only
    rw [hname, htext]
    exact hrest

/-- The address that a server declares, with its variables put in. -/
def addressOf (declared : Entries) : Except Failure Node :=
  members (orElse (member "variables" declared) (.map [])) >>= fun slots =>
    if slots.isEmpty then .ok (orElse (member "url" declared) (.str ""))
    else
      match orElse (member "url" declared) (.str "") with
      | .str s => return .str (String.ofList (← substitute s.toList slots))
      | .scalar (.bytes _) | .scalar (.moment _) => do
        let _ ← substitute [] (slots.take 1)
        .error (.malformed .nearlyText)
      | _ => .error (.malformed .noText)

theorem addressV3_eq (root : Entries) : addressV3 root =
    firstOr (member "servers" root) (.map []) >>= fun server =>
      members server >>= addressOf := by
  unfold addressV3 firstOr addressOf
  dsimp only
  split <;> rfl

theorem exists_members_orElse_iff {node : Node} :
    (∃ entries, members (orElse node (.map [])) = .ok entries) ↔ node.IsMapIfPresent := by
  simp only [members_eq_ok_iff]
  unfold orElse Node.IsMapIfPresent
  cases node.isTruthy with
  | false => simp
  | true => simp

theorem exists_addressOf_iff {declared : Entries} (json : (Node.map declared).isJson = true) :
    (∃ s, addressOf declared = .ok (.str s)) ↔
      (member "url" declared).IsTextIfPresent ∧ (member "variables" declared).IsMapIfPresent := by
  rw [← exists_orElse_iff, ← exists_members_orElse_iff]
  unfold addressOf
  constructor
  · rintro ⟨s, h⟩
    obtain ⟨slots, hslots, h⟩ := Except.bind_eq_ok_iff.mp h
    refine ⟨?_, slots, hslots⟩
    split at h
    · exact ⟨s, Except.ok.inj h⟩
    · split at h
      · rename_i url hurl
        exact ⟨url, hurl⟩
      · obtain ⟨_, _, h⟩ := Except.bind_eq_ok_iff.mp h
        cases h
      · obtain ⟨_, _, h⟩ := Except.bind_eq_ok_iff.mp h
        cases h
      · cases h
  · rintro ⟨⟨url, hurl⟩, slots, hslots⟩
    have hjson : (Node.map slots).isJson = true :=
      members_eq_ok_iff.mp hslots ▸ isJson_orElse (isJson_member json "variables") rfl
    rw [hslots, hurl]
    show ∃ s, (if slots.isEmpty = true then _ else _) = _
    split
    · exact ⟨url, rfl⟩
    · obtain ⟨text, htext⟩ := exists_substitute hjson url.toList
      exact ⟨String.ofList text, by rw [htext]; rfl⟩

theorem exists_server_v3_iff (json : (Node.map root).isJson = true) :
    (∃ text, server .v3 (.map root) = .ok text) ↔ LegibleServer root .v3 := by
  have hserver : server .v3 (.map root) = addressV3 root >>= withoutSlashes := rfl
  have hservers := isJson_member json "servers"
  rw [hserver, exists_withoutSlashes_iff, addressV3_eq, LegibleServer, firstOr]
  by_cases hpresent : (member "servers" root).isTruthy = true
  · rw [if_pos hpresent]
    constructor
    · rintro ⟨s, h⟩ _
      obtain ⟨server, hfirst, h⟩ := Except.bind_eq_ok_iff.mp h
      obtain ⟨declared, hdeclared, h⟩ := Except.bind_eq_ok_iff.mp h
      cases Dialect.members_eq_ok_iff.mp hdeclared
      have hjson := isJson_of_first hservers hfirst
      rcases (exists_first_iff hservers hpresent).mp ⟨_, hfirst⟩ with ⟨items, hitems⟩ | ⟨t, ht⟩
      · rw [hitems] at hfirst
        cases items with
        | nil => cases hfirst
        | cons item rest =>
          cases hfirst
          exact ⟨declared, rest, hitems, (exists_addressOf_iff hjson).mp ⟨s, h⟩⟩
      · rw [ht, first] at hfirst
        split at hfirst <;> cases hfirst
    · intro h
      obtain ⟨declared, rest, hlist, hlegible⟩ := h hpresent
      have hjson : (Node.map declared).isJson = true := by
        rw [hlist] at hservers
        exact Node.isJson_list_iff.mp hservers _ List.mem_cons_self
      rw [hlist]
      exact (exists_addressOf_iff hjson).mpr hlegible
  · rw [if_neg hpresent]
    exact ⟨fun _ h => absurd h hpresent, fun _ => ⟨"", rfl⟩⟩

theorem exists_server_iff (dialect : Dialect) (json : (Node.map root).isJson = true) :
    (∃ text, server dialect (.map root) = .ok text) ↔ LegibleServer root dialect := by
  cases dialect with
  | v2 => exact exists_server_v2_iff json
  | v3 => exact exists_server_v3_iff json

/-! ### How reading it fails -/

/-- The malformations that an address can have in a JSON document. -/
def serverCauses : List Malformation := [.noMembers, .noItems, .noFirstKey, .noText]

section
variable {causes : Malformation → Prop}

theorem failsAmong_members (h : causes .noMembers) (node : Node) :
    FailsAmong causes (members node) := by
  unfold members
  split
  · exact .ok _
  · exact .error h

theorem failsAmong_first (h : ∀ cause ∈ serverCauses, causes cause) (node : Node) :
    FailsAmong causes (first node) := by
  have hitems : causes .noItems := h _ (by decide)
  unfold first
  split
  · exact .ok _
  · split
    · exact .ok _
    · exact .error hitems
  · exact .ok _
  · split
    · exact .ok _
    · exact .error (h .noFirstKey (by decide))
  · exact .error hitems

theorem failsAmong_firstOr (h : ∀ cause ∈ serverCauses, causes cause) (node other : Node) :
    FailsAmong causes (firstOr node other) := by
  unfold firstOr
  split
  · exact failsAmong_first h node
  · exact .ok other

theorem failsAmong_withoutSlashes (h : causes .noText) {address : Node}
    (json : address.isJson = true) : FailsAmong causes (withoutSlashes address) := by
  unfold withoutSlashes
  split
  · exact .ok _
  · cases json
  · exact .error h

theorem failsAmong_server_v2 (json : (Node.map root).isJson = true)
    (h : ∀ cause ∈ serverCauses, causes cause) : FailsAmong causes (server .v2 (.map root)) := by
  have htext : causes .noText := h _ (by decide)
  have hserver : server .v2 (.map root) = addressV2 root >>= withoutSlashes := rfl
  have hbasePath : (orElse (member "basePath" root) (.str "")).isJson = true :=
    isJson_orElse (isJson_member json "basePath") rfl
  rw [hserver, addressV2_eq, bind_assoc]
  refine (failsAmong_firstOr h _ _).bind fun scheme hscheme => ?_
  split
  · have hjson := isJson_of_firstOr (isJson_member json "schemes") rfl hscheme
    obtain ⟨first, hfirst⟩ := Node.exists_written hjson
    obtain ⟨host, hhost⟩ := Node.exists_written (isJson_member json "host")
    obtain ⟨path, hpath⟩ := Node.exists_written hbasePath
    rw [hfirst, hhost, hpath]
    exact .ok _
  · exact failsAmong_withoutSlashes htext hbasePath

theorem failsAmong_server_v3 (json : (Node.map root).isJson = true)
    (h : ∀ cause ∈ serverCauses, causes cause) : FailsAmong causes (server .v3 (.map root)) := by
  have htext : causes .noText := h _ (by decide)
  have hmembers : causes .noMembers := h _ (by decide)
  have hserver : server .v3 (.map root) = addressV3 root >>= withoutSlashes := rfl
  rw [hserver, addressV3_eq, bind_assoc]
  refine (failsAmong_firstOr h _ _).bind fun server hfirst => ?_
  have hjson := isJson_of_firstOr (isJson_member json "servers") rfl hfirst
  rw [bind_assoc]
  refine (failsAmong_members hmembers server).bind fun declared hdeclared => ?_
  rw [members_eq_ok_iff.mp hdeclared] at hjson
  have hurl : (orElse (member "url" declared) (.str "")).isJson = true :=
    isJson_orElse (isJson_member hjson "url") rfl
  unfold addressOf
  rw [bind_assoc]
  refine (failsAmong_members hmembers _).bind fun slots hslots => ?_
  split
  · exact failsAmong_withoutSlashes htext hurl
  · split
    · rename_i url _
      have hslotsJson : (Node.map slots).isJson = true :=
        members_eq_ok_iff.mp hslots ▸ isJson_orElse (isJson_member hjson "variables") rfl
      obtain ⟨text, hsubstitute⟩ := exists_substitute hslotsJson url.toList
      rw [hsubstitute]
      exact .ok _
    · rename_i hbytes
      rw [hbytes] at hurl
      cases hurl
    · rename_i hmoment
      rw [hmoment] at hurl
      cases hurl
    · exact .error htext

theorem failsAmong_server (dialect : Dialect) (json : (Node.map root).isJson = true)
    (h : ¬ LegibleServer root dialect → ∀ cause ∈ serverCauses, causes cause) :
    FailsAmong causes (server dialect (.map root)) := by
  by_cases hlegible : LegibleServer root dialect
  · exact .of_exists ((exists_server_iff dialect json).mpr hlegible)
  · cases dialect with
    | v2 => exact failsAmong_server_v2 json (h hlegible)
    | v3 => exact failsAmong_server_v3 json (h hlegible)

end
end Dialect

end OpenApi
