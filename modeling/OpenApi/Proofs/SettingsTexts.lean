import OpenApi.Proofs.JsonCharacters
import OpenApi.Proofs.Utf8
import OpenApi.Settings.Resolve

/-
Settings that are written down are the settings that are read.

Their document has a notation and is not deep, so its text can be written and is read as the
document again; and the document says of each setting what it is.
-/
namespace OpenApi.Settings

/-! ### The document -/

theorem hasNotation_membersNode {members : List (String × Node)} (keys : List String)
    (distinct : keys.Nodup) (hkeys : members.map Prod.fst = keys)
    (parts : ∀ m ∈ members, m.2.HasNotation) : (membersNode members).HasNotation := by
  refine .ofKeys keys distinct ?_ fun e he => ?_
  · rw [← hkeys, List.map_map, List.map_map]
    exact .refl _
  · obtain ⟨m, hm, rfl⟩ := List.mem_map.mp he
    exact parts m hm

theorem intsFit_membersNode {members : List (String × Node)} (parts : ∀ m ∈ members, m.2.IntsFit) :
    (membersNode members).IntsFit := by
  refine Node.intsFit_map fun e he => ?_
  obtain ⟨m, hm, rfl⟩ := List.mem_map.mp he
  exact parts m hm

theorem hasNotation_textsNode (items : List String) : (textsNode items).HasNotation := by
  refine .list fun x hx => ?_
  obtain ⟨s, _, rfl⟩ := List.mem_map.mp hx
  exact .str s

theorem intsFit_textsNode (items : List String) : (textsNode items).IntsFit := by
  refine Node.intsFit_list fun x hx => ?_
  obtain ⟨s, _, rfl⟩ := List.mem_map.mp hx
  exact Node.intsFit_str s

theorem nesting_textsNode (items : List String) : (textsNode items).nesting = 1 := by
  have hitems : Node.nestingItems (items.map Node.str) = 0 := by
    induction items with
    | nil => rfl
    | cons s rest ih =>
      rw [List.map_cons, Node.nestingItems, ih]
      rfl
  rw [textsNode, Node.nesting, hitems]

theorem hasNotation_toNode (s : Settings) : s.toNode.HasNotation := by
  have houtput : s.outputNode.HasNotation := by
    refine hasNotation_membersNode ["format"] (by decide) rfl ?_
    simp only [List.forall_mem_cons]
    exact ⟨.str _, nofun⟩
  have hresolver : s.resolverNode.HasNotation := by
    refine hasNotation_membersNode ["default_tag", "excluded_parameters", "media_type_priority"]
      (by decide) rfl ?_
    simp only [List.forall_mem_cons]
    exact ⟨.str _, hasNotation_textsNode _, hasNotation_textsNode _, nofun⟩
  refine hasNotation_membersNode ["output", "resolver"] (by decide) rfl ?_
  simp only [List.forall_mem_cons]
  exact ⟨houtput, hresolver, nofun⟩

/-- There are no numbers among settings. -/
theorem intsFit_toNode (s : Settings) : s.toNode.IntsFit := by
  have houtput : s.outputNode.IntsFit := by
    refine intsFit_membersNode ?_
    simp only [List.forall_mem_cons]
    exact ⟨Node.intsFit_str _, nofun⟩
  have hresolver : s.resolverNode.IntsFit := by
    refine intsFit_membersNode ?_
    simp only [List.forall_mem_cons]
    exact ⟨Node.intsFit_str _, intsFit_textsNode _, intsFit_textsNode _, nofun⟩
  refine intsFit_membersNode ?_
  simp only [List.forall_mem_cons]
  exact ⟨houtput, hresolver, nofun⟩

theorem nesting_toNode (s : Settings) : s.toNode.nesting = 3 := by
  have hresolver : s.resolverNode.nesting = 2 := by
    simp [resolverNode, membersNode, Node.nesting, Node.nestingEntries, nesting_textsNode]
  have houtput : s.outputNode.nesting = 1 := rfl
  simp [toNode, membersNode, Node.nesting, Node.nestingEntries, hresolver, houtput]

/-! ### What the document says -/

theorem Draft.texts_textsNode (items : List String) : texts (textsNode items) = items := by
  rw [texts, textsNode, Node.items?, Option.getD_some, List.filterMap_map]
  exact List.filterMap_some

theorem Draft.textsFaults_textsNode (items : List String) : textsFaults (textsNode items) = 0 := by
  rw [textsFaults, textsNode, Node.items?]
  exact List.countP_eq_zero.mpr fun x hx => by
    obtain ⟨s, _, rfl⟩ := List.mem_map.mp hx
    exact Bool.false_ne_true

theorem Draft.faults_ofSettings (s : Settings) : (ofSettings s).faults = 0 := by
  simp [faults, resolverFaults, ofSettings, textsFaults_textsNode, textFaults, Node.str?]

theorem Draft.check_ofSettings (s : Settings) : (ofSettings s).check = .ok s := by
  rw [check, if_pos (faults_ofSettings s)]
  simp [ofSettings, preferences, texts_textsNode, Node.str?]

theorem ofNode?_toNode (s : Settings) : ofNode? s.toNode = .ok s := by
  have hdraft : ((Draft.ofSettings {}).withOutput (s.toNode.get "output")).withResolver
      (s.toNode.get "resolver") = Draft.ofSettings s := by
    simp [Draft.withOutput, Draft.withResolver, Draft.ofSettings, toNode, outputNode, resolverNode,
      membersNode, Node.get, Node.get?, Entries.get?]
  have hsections : sectionFaults "output" s.toNode = 0 ∧ sectionFaults "resolver" s.toNode = 0 := by
    simp [sectionFaults, toNode, outputNode, resolverNode, membersNode, Node.get?, Entries.get?,
      Node.isMap]
  have hmap : s.toNode.isMap = true := rfl
  unfold ofNode?
  rw [if_pos hmap]
  dsimp only
  rw [hdraft, hsections.1, hsections.2, Draft.faults_ofSettings, if_pos rfl]
  exact Draft.check_ofSettings s

/-! ### The file -/

/-- The text of a file that holds what is written for a value. -/
theorem readJson_render {style : Json.Style} (unsorted : style.sorted = false) {node : Node}
    (plain : node.HasNotation) (fits : node.nesting ≤ Json.deepest) {text : String}
    (h : Json.render style node = .ok text) (source : SettingsSource) :
    readJson source (Text.Utf8.encode (text ++ "\n").toList) = .ok node := by
  have hblanks : Json.Blanks ['\n'] := fun c hc => .inr (List.mem_singleton.mp hc)
  have hread := Json.read_render unsorted plain fits h hblanks
  have hends : '\r' ∉ text.toList ++ ['\n'] := by
    have hnotes := Json.not_mem_of_notes (Json.notes_of_render unsorted plain h)
    simpa using hnotes
  rw [readJson, OpenApi.fileText, Text.Utf8.decode?_encode, String.toList_append]
  dsimp only
  rw [show "\n".toList = ['\n'] from rfl, Text.unifyLineEnds_of_not_mem hends, hread]

/-- Settings are read from the file in which they are written down. -/
theorem ofUserFile_fileText (path : Path) (s : Settings) :
    ofUserFile path (some (Text.Utf8.encode s.fileText.toList)) = .ok s := by
  obtain ⟨text, htext⟩ := (@Json.exists_render_iff .indented rfl _ (hasNotation_toNode s)).mpr
    (intsFit_toNode s)
  have hdeep : s.toNode.nesting ≤ Json.deepest := by
    rw [nesting_toNode]
    decide
  have hfile : s.fileText = text ++ "\n" := by
    rw [fileText, Json.render?, htext]
    rfl
  rw [hfile, ofUserFile, readJson_render rfl (hasNotation_toNode s) hdeep htext]
  dsimp only
  rw [ofNode?_toNode]

end OpenApi.Settings
