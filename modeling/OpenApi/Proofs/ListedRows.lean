import OpenApi.Proofs.PrintedResults
import OpenApi.Proofs.SettingsTexts

/-
What is listed can be read back.

A listing is a header and rows of texts.  As JSON it is a list of maps, one for each row, and is
read as this list whatever the texts are (`Table.exists_json_ofTexts`).  Plainly the cells of a row
stand between tabs and the rows between line feeds, as they are.  So the text splits back into the
rows if no cell has one of these characters (`Table.split_text`), and not in general.

The commands that list the models and the operations of a client write their listing in this way,
with a row for each model or operation, in order, or tell that there is nothing to list and write
nothing (`Session.listed_of_run`).
-/
namespace OpenApi

/-- An option that takes no value is read before the rest of the command line. -/
theorem CommandLine.Lexicon.read_flag {α : Type} {lexicon : Lexicon α} {mixed : Bool}
    {argument : String} {settings : List α} {rest : List String} (h : argument ≠ "--")
    (looks : (argument.startsWith "-" && argument != "-") = true)
    (flag : lexicon.readOption argument = .ok ⟨settings, none⟩) :
    lexicon.read mixed (argument :: rest) =
      (lexicon.read mixed rest).map fun (more, arguments) => (settings ++ more, arguments) := by
  conv_lhs => unfold read
  split
  · contradiction
  · rename_i heq
    exact absurd (List.cons.inj heq).1 h
  · rename_i heq
    obtain ⟨rfl, rfl⟩ := List.cons.inj heq
    rw [if_pos looks, flag]

/-! ### Rows as maps -/

namespace Entries

/-- Entries with texts as keys. -/
def named (members : List (String × Node)) : Entries := members.map fun m => (.str m.1, m.2)

theorem map_fst_named (members : List (String × Node)) :
    (named members).map Prod.fst = (members.map Prod.fst).map Scalar.str := by
  rw [named, List.map_map, List.map_map]
  rfl

theorem foldl_insert_named {rest : List (String × Node)} (done : List (String × Node))
    (distinct : ((done ++ rest).map Prod.fst).Nodup) :
    (named rest).foldl (fun done (k, v) => insert k v done) (named done) =
      named (done ++ rest) := by
  induction rest generalizing done with
  | nil =>
    rw [List.append_nil]
    rfl
  | cons member rest ih =>
    have hnew : Scalar.str member.1 ∉ (named done).map Prod.fst := by
      rw [List.map_append, List.nodup_append] at distinct
      rw [map_fst_named]
      intro hmem
      obtain ⟨key, hkey, hsame⟩ := List.mem_map.mp hmem
      exact distinct.2.2 key hkey member.1 List.mem_cons_self (Scalar.str.inj hsame)
    have hinsert : insert (.str member.1) member.2 (named done) = named (done ++ [member]) := by
      rw [Json.insert_eq_append hnew, named, named, List.map_append]
      rfl
    have hnext := ih (done ++ [member]) (by rwa [List.append_assoc])
    rw [List.append_assoc] at hnext
    show (named rest).foldl _ (insert (.str member.1) member.2 (named done)) = _
    rw [hinsert]
    exact hnext

/-- Entries with different keys are kept as they are. -/
theorem ofList_named {members : List (String × Node)} (distinct : (members.map Prod.fst).Nodup) :
    ofList (named members) = named members :=
  foldl_insert_named [] distinct

end Entries

namespace Node

theorem nestingItems_le {items : List Node} {n : Nat} (h : ∀ x ∈ items, x.nesting ≤ n) :
    nestingItems items ≤ n := by
  induction items with
  | nil => exact Nat.zero_le n
  | cons x rest ih =>
    rw [List.forall_mem_cons] at h
    exact Nat.max_le.mpr ⟨h.1, ih h.2⟩

theorem nestingEntries_le {entries : Entries} {n : Nat} (h : ∀ e ∈ entries, e.2.nesting ≤ n) :
    nestingEntries entries ≤ n := by
  induction entries with
  | nil => exact Nat.zero_le n
  | cons e rest ih =>
    rw [List.forall_mem_cons] at h
    exact Nat.max_le.mpr ⟨h.1, ih h.2⟩

end Node

namespace Table

variable {columns : List String} {rows : List (List String)}

/-- A row as a map from the names of columns to cells. -/
def object (columns row : List String) : Node :=
  Settings.membersNode (columns.zip (row.map Node.str))

theorem exists_str_of_mem_zip {row : List String} {member : String × Node}
    (h : member ∈ columns.zip (row.map Node.str)) : ∃ cell, member.2 = .str cell := by
  obtain ⟨cell, _, hcell⟩ := List.mem_map.mp (List.of_mem_zip h).2
  exact ⟨cell, hcell.symm⟩

theorem hasNotation_object (distinct : columns.Nodup) {row : List String}
    (h : row.length = columns.length) : (object columns row).HasNotation := by
  refine Settings.hasNotation_membersNode columns distinct ?_ fun member hmember => ?_
  · exact List.map_fst_zip (by rw [List.length_map, h])
  · obtain ⟨cell, hcell⟩ := exists_str_of_mem_zip hmember
    rw [hcell]
    exact .str cell

theorem intsFit_object (columns row : List String) : (object columns row).IntsFit := by
  refine Settings.intsFit_membersNode fun member hmember => ?_
  obtain ⟨cell, hcell⟩ := exists_str_of_mem_zip hmember
  rw [hcell]
  exact Node.intsFit_str cell

theorem nesting_object_le (columns row : List String) : (object columns row).nesting ≤ 1 := by
  have hcells : Node.nestingEntries (Entries.named (columns.zip (row.map Node.str))) ≤ 0 := by
    refine Node.nestingEntries_le fun e he => ?_
    obtain ⟨member, hmember, rfl⟩ := List.mem_map.mp he
    obtain ⟨cell, hcell⟩ := exists_str_of_mem_zip hmember
    rw [hcell]
    exact Nat.le_refl 0
  exact Nat.add_le_add_left hcells 1

theorem rowNode_texts (distinct : columns.Nodup) {row : List String}
    (h : row.length = columns.length) :
    rowNode (.list (columns.map .str)) (.list (row.map .str)) = .ok (object columns row) := by
  have hentries : ((columns.map Node.str).zip (row.map Node.str)).mapM entry =
      .ok (Entries.named (columns.zip (row.map Node.str))) := by
    rw [List.zip_map_left]
    exact Except.mapM_map_eq_ok_map fun _ _ => rfl
  have hdistinct : ((columns.zip (row.map Node.str)).map Prod.fst).Nodup := by
    rw [List.map_fst_zip (by rw [List.length_map, h])]
    exact distinct
  unfold rowNode
  refine Except.bind_eq_ok_iff.mpr ⟨_, rfl, ?_⟩
  refine Except.bind_eq_ok_iff.mpr ⟨_, rfl, ?_⟩
  refine Except.bind_eq_ok_iff.mpr ⟨_, hentries, ?_⟩
  rw [Entries.ofList_named hdistinct]
  rfl

/-- A table of texts as JSON is a list of its rows. -/
theorem toNode_ofTexts (distinct : columns.Nodup)
    (full : ∀ row ∈ rows, row.length = columns.length) :
    (ofTexts columns rows).toNode = .ok (.list (rows.map (object columns))) := by
  have hrows : (rows.map fun row => Node.list (row.map .str)).mapM
      (rowNode (.list (columns.map .str))) = .ok (rows.map (object columns)) :=
    Except.mapM_map_eq_ok_map fun row hrow => rowNode_texts distinct (full row hrow)
  unfold toNode
  refine Except.bind_eq_ok_iff.mpr ⟨_, rfl, ?_⟩
  exact Except.bind_eq_ok_iff.mpr ⟨_, hrows, rfl⟩

/-- The JSON text of a table of texts is read as the list of its rows. -/
theorem exists_json_ofTexts (distinct : columns.Nodup)
    (full : ∀ row ∈ rows, row.length = columns.length) :
    ∃ text, (ofTexts columns rows).toNode.bind OutputForm.json.text = .ok text ∧
      Json.read text.toList = .ok (.list (rows.map (object columns))) := by
  have plain : (Node.list (rows.map (object columns))).HasNotation := by
    refine .list fun x hx => ?_
    obtain ⟨row, hrow, rfl⟩ := List.mem_map.mp hx
    exact hasNotation_object distinct (full row hrow)
  have fits : (Node.list (rows.map (object columns))).IntsFit := by
    refine Node.intsFit_list fun x hx => ?_
    obtain ⟨row, _, rfl⟩ := List.mem_map.mp hx
    exact intsFit_object columns row
  have shallow : (Node.list (rows.map (object columns))).nesting ≤ Json.deepest := by
    have hrows : Node.nestingItems (rows.map (object columns)) ≤ 1 := by
      refine Node.nestingItems_le fun x hx => ?_
      obtain ⟨row, _, rfl⟩ := List.mem_map.mp hx
      exact nesting_object_le columns row
    have hdeep : 2 ≤ Json.deepest := by decide
    rw [Node.nesting]
    omega
  obtain ⟨text, htext⟩ := (@Json.exists_render_iff .readable rfl _ plain).mpr fits
  refine ⟨text, ?_, ?_⟩
  · rw [toNode_ofTexts distinct full]
    exact OutputForm.text_json_eq_ok_iff.mpr htext
  · have hread : Json.read (text.toList ++ []) = _ :=
      Json.read_render rfl plain shallow htext (by exact nofun)
    rwa [List.append_nil] at hread

/-! ### Rows as lines -/

theorem mem_intercalate {α : Type} {separator : List α} {pieces : List (List α)} {a : α}
    (h : a ∈ separator.intercalate pieces) : a ∈ separator ∨ ∃ piece ∈ pieces, a ∈ piece := by
  induction pieces with
  | nil => cases h
  | cons piece rest ih =>
    cases rest with
    | nil =>
      rw [List.intercalate_singleton] at h
      exact .inr ⟨piece, List.mem_cons_self, h⟩
    | cons next more =>
      rw [List.intercalate_cons_cons, List.append_assoc, List.mem_append, List.mem_append] at h
      rcases h with h | h | h
      · exact .inr ⟨piece, List.mem_cons_self, h⟩
      · exact .inl h
      · exact (ih h).imp_right fun ⟨later, hlater, hmem⟩ =>
          ⟨later, List.mem_cons_of_mem _ hlater, hmem⟩

/-- What lies between separators has none. -/
theorem not_mem_of_mem_splitOn {separator : Char} {cs piece : List Char}
    (h : piece ∈ cs.splitOn separator) : separator ∉ piece := by
  rw [List.splitOn_eq_splitOnP] at h
  induction cs generalizing piece with
  | nil =>
    rw [List.splitOnP_nil, List.mem_singleton] at h
    rw [h]
    exact List.not_mem_nil
  | cons c rest ih =>
    rw [List.splitOnP_cons_eq_if_modifyHead] at h
    split at h
    · rcases List.mem_cons.mp h with rfl | h
      · exact List.not_mem_nil
      · exact ih h
    · rename_i hc
      cases hrest : rest.splitOnP (· == separator) with
      | nil =>
        rw [hrest] at h
        cases h
      | cons first others =>
        rw [hrest, List.modifyHead_cons] at h
        rw [hrest] at ih
        rcases List.mem_cons.mp h with rfl | h
        · have hfirst := ih List.mem_cons_self
          rw [List.mem_cons, not_or]
          exact ⟨fun heq => hc (beq_iff_eq.mpr heq.symm), hfirst⟩
        · exact ih (List.mem_cons_of_mem _ h)

/-- A row in a line. -/
def lineOf (row : List String) : String := String.intercalate "\t" row

theorem line_texts (row : List String) : line (.list (row.map .str)) = .ok (lineOf row) := by
  have hcells : (row.map Node.str).mapM cellText = .ok (row.map id) :=
    Except.mapM_map_eq_ok_map fun _ _ => rfl
  rw [List.map_id] at hcells
  unfold line
  refine Except.bind_eq_ok_iff.mpr ⟨_, rfl, ?_⟩
  exact Except.bind_eq_ok_iff.mpr ⟨_, hcells, rfl⟩

theorem text_ofTexts (columns : List String) (rows : List (List String)) :
    (ofTexts columns rows).text =
      .ok (String.intercalate "\n" ((columns :: rows).map lineOf)) := by
  have hlines : ((columns :: rows).map fun row => Node.list (row.map .str)).mapM line =
      .ok ((columns :: rows).map lineOf) := Except.mapM_map_eq_ok_map fun row _ => line_texts row
  unfold text
  refine Except.bind_eq_ok_iff.mpr ⟨_, rfl, ?_⟩
  exact Except.bind_eq_ok_iff.mpr ⟨_, hlines, rfl⟩

/-- Whether a cell has no character that stands between cells or rows. -/
def IsClean (cell : String) : Prop := '\t' ∉ cell.toList ∧ '\n' ∉ cell.toList

/-- A line splits back into its cells. -/
theorem splitOn_lineOf {row : List String} (nonempty : row ≠ [])
    (clean : ∀ cell ∈ row, IsClean cell) :
    (lineOf row).toList.splitOn '\t' = row.map String.toList := by
  have hcells : ∀ cell ∈ row.map String.toList, '\t' ∉ cell := fun cell hcell => by
    obtain ⟨text, htext, rfl⟩ := List.mem_map.mp hcell
    exact (clean text htext).1
  rw [lineOf, String.toList_intercalate]
  exact List.splitOn_intercalate '\t' hcells (fun h => nonempty (List.map_eq_nil_iff.mp h))

theorem newline_not_mem_lineOf {row : List String} (clean : ∀ cell ∈ row, IsClean cell) :
    '\n' ∉ (lineOf row).toList := by
  rw [lineOf, String.toList_intercalate]
  intro hmem
  rcases mem_intercalate hmem with htab | ⟨cell, hcell, hmem⟩
  · exact absurd htab (by decide)
  · obtain ⟨text, htext, rfl⟩ := List.mem_map.mp hcell
    exact (clean text htext).2 hmem

/-- The lines split back into rows, and the rows into cells. -/
theorem split_text (nonempty : ∀ row ∈ columns :: rows, row ≠ [])
    (clean : ∀ row ∈ columns :: rows, ∀ cell ∈ row, IsClean cell) :
    ((String.intercalate "\n" ((columns :: rows).map lineOf)).toList.splitOn '\n').map
        (·.splitOn '\t') =
      (columns :: rows).map (·.map String.toList) := by
  have hlines : ∀ line ∈ ((columns :: rows).map lineOf).map String.toList, '\n' ∉ line := by
    intro line hline
    rw [List.map_map] at hline
    obtain ⟨row, hrow, rfl⟩ := List.mem_map.mp hline
    exact newline_not_mem_lineOf (clean row hrow)
  rw [String.toList_intercalate, show "\n".toList = ['\n'] from rfl,
    List.splitOn_intercalate '\n' hlines (by simp), List.map_map, List.map_map]
  exact List.map_congr_left fun row hrow => splitOn_lineOf (nonempty row hrow) (clean row hrow)

/-- The text of a table in a form. -/
def textIn (form : OutputForm) (t : Table) : Except Failure String :=
  match form with
  | .json => t.toNode.bind OutputForm.json.text
  | .plain => t.text

end Table

theorem Output.writeTable_eq (o : Output) (t : Table) :
    o.writeTable t = o.writeResult (t.textIn o.resultForm) := by
  unfold writeTable
  cases o.resultForm <;> rfl

theorem Finding.text_table (form : OutputForm) (t : Table) :
    (Finding.table t).text form = (t.textIn form).map (· ++ "\n") := by
  cases form <;> rfl

/-- Whether a text shows a header and rows in a form, so that they can be read back. -/
def OutputForm.Shows (form : OutputForm) (columns : List String) (rows : List (List String))
    (text : String) : Prop :=
  match form with
  | .json => Json.read text.toList = .ok (.list (rows.map (Table.object columns)))
  | .plain =>
    (text.toList.splitOn '\n').map (·.splitOn '\t') = (columns :: rows).map (·.map String.toList)

/-- A cell with a tab is not found again in plain text, whatever the text is. -/
theorem OutputForm.not_shows_of_tab {columns row : List String} {rows : List (List String)}
    {cell : String} (hrow : row ∈ rows) (hcell : cell ∈ row) (htab : '\t' ∈ cell.toList)
    (text : String) : ¬ OutputForm.plain.Shows columns rows text := by
  intro h
  have hmem : row.map String.toList ∈ (text.toList.splitOn '\n').map (·.splitOn '\t') := by
    rw [show (text.toList.splitOn '\n').map (·.splitOn '\t') = _ from h]
    exact List.mem_map_of_mem (List.mem_cons_of_mem _ hrow)
  obtain ⟨line, _, hline⟩ := List.mem_map.mp hmem
  have hpiece : cell.toList ∈ line.splitOn '\t' := hline ▸ List.mem_map_of_mem hcell
  exact Table.not_mem_of_mem_splitOn hpiece htab

/-! ### Listings -/

namespace Summary

/-- The header of a listing. -/
def columns : Summary → List String
  | .info => []
  | .models => ["Model", "Export", "Type", "Properties"]
  | .services => ["Service", "Operation", "Method", "Path", "Returns"]

/-- The rows of a listing: one for each model, or for each operation of each service. -/
def rows (client : Client) : Summary → List (List String)
  | .info => []
  | .models => client.models.map fun m => [m.name, m.kind.name, m.type, propertyNames m]
  | .services =>
    client.services.flatMap fun service => service.operations.map (operationRow service)

/-- Whether there is nothing to list. -/
def isBare (client : Client) : Summary → Bool
  | .info => true
  | .models => client.models.isEmpty
  | .services => client.services.isEmpty

variable {summary : Summary} {client : Client} {o : Output}

theorem length_of_mem_rows {row : List String} (h : row ∈ summary.rows client) :
    row.length = summary.columns.length := by
  cases summary with
  | info => cases h
  | models =>
    obtain ⟨m, _, rfl⟩ := List.mem_map.mp h
    rfl
  | services =>
    obtain ⟨service, _, h⟩ := List.mem_flatMap.mp h
    obtain ⟨operation, _, rfl⟩ := List.mem_map.mp h
    rfl

theorem nodup_columns (summary : Summary) : summary.columns.Nodup := by
  cases summary <;> decide

theorem isClean_columns (summary : Summary) : ∀ cell ∈ summary.columns, Table.IsClean cell := by
  cases summary <;> unfold Table.IsClean <;> decide

/-- Whether all cells of a listing are without tabs and line feeds. -/
def IsClean (summary : Summary) (client : Client) : Prop :=
  ∀ row ∈ summary.rows client, ∀ cell ∈ row, Table.IsClean cell

theorem columns_ne_nil (lists : summary ≠ .info) : summary.columns ≠ [] := by
  cases summary with
  | info => exact absurd rfl lists
  | models | services => exact List.cons_ne_nil _ _

/-- The table of a listing has a text in every form, which shows its rows; as plain text only if no
cell has a tab or a line feed. -/
theorem exists_textIn (lists : summary ≠ .info) (client : Client) (form : OutputForm) :
    ∃ text, (Table.ofTexts summary.columns (summary.rows client)).textIn form = .ok text ∧
      ((form = .plain → summary.IsClean client) →
        form.Shows summary.columns (summary.rows client) text) := by
  cases form with
  | json =>
    have full : ∀ row ∈ summary.rows client, row.length = summary.columns.length :=
      fun _ => length_of_mem_rows
    obtain ⟨text, htext, hread⟩ := Table.exists_json_ofTexts (nodup_columns summary) full
    exact ⟨text, htext, fun _ => hread⟩
  | plain =>
    refine ⟨_, Table.text_ofTexts _ _, fun clean => ?_⟩
    have hcolumns := columns_ne_nil lists
    refine Table.split_text (List.forall_mem_cons.mpr ⟨hcolumns, fun row hrow => ?_⟩)
      (List.forall_mem_cons.mpr ⟨isClean_columns summary, clean rfl⟩)
    rw [← List.length_pos_iff, length_of_mem_rows hrow]
    exact List.length_pos_iff.mpr hcolumns

/-- What a command does that lists something of a client. -/
structure Lists (summary : Summary) (client : Client) (o : Output) (before after : Session) :
    Prop where
  /-- If there is nothing to list, nothing is written but a message. -/
  nothing : summary.isBare client = true → ∃ noted, after = { before with noted := noted }
  /-- Else a text is written that shows the rows. -/
  rows : summary.isBare client = false →
    ∃ text, (o.write text).run before = (.ok (), after) ∧
      ((o.resultForm = .plain → summary.IsClean client) →
        o.resultForm.Shows summary.columns (summary.rows client) text)
  /-- Each row has a cell for each column. -/
  cells : ∀ row ∈ summary.rows client, row.length = summary.columns.length

theorem writeSummary_of_isBare (lists : summary ≠ .info) (h : summary.isBare client = true) :
    ∃ message, Action.writeSummary o client summary = o.inform message := by
  cases summary with
  | info => contradiction
  | models => exact ⟨_, if_pos h⟩
  | services => exact ⟨_, if_pos h⟩

theorem writeSummary_of_not_isBare (h : summary.isBare client = false) :
    Action.writeSummary o client summary =
      o.writeTable (.ofTexts summary.columns (summary.rows client)) := by
  cases summary with
  | info => cases h
  | models => exact if_neg (Bool.not_eq_true _ ▸ h)
  | services => exact if_neg (Bool.not_eq_true _ ▸ h)

theorem lists_of_writeSummary {before after : Session} (lists : summary ≠ .info)
    (h : (Action.writeSummary o client summary).run before = (.ok (), after)) :
    summary.Lists client o before after := by
  refine ⟨fun hbare => ?_, fun hbare => ?_, fun row => length_of_mem_rows⟩
  · obtain ⟨message, hmessage⟩ := writeSummary_of_isBare (o := o) lists hbare
    obtain ⟨noted, hnoted⟩ := Action.exists_inform o message before
    rw [hmessage, hnoted] at h
    cases h
    exact ⟨noted, rfl⟩
  · obtain ⟨text, htext, hshows⟩ := exists_textIn lists client o.resultForm
    rw [writeSummary_of_not_isBare hbare, Output.writeTable_eq, htext] at h
    exact ⟨text, h, hshows⟩

/-- What is found of a client that is to be listed. -/
def finding (summary : Summary) (client : Client) : Finding :=
  if summary.isBare client then .nothing
  else .table (.ofTexts summary.columns (summary.rows client))

theorem query?_inspect (lists : summary ≠ .info) (source : String) :
    (Command.inspect summary source).query? = some ⟨source, {}, summary.finding⟩ := by
  cases summary with
  | info => contradiction
  | models | services => rfl

theorem exists_text_finding (lists : summary ≠ .info) (client : Client) (form : OutputForm) :
    ∃ text, (summary.finding client).text form = .ok text := by
  unfold finding
  split
  · exact ⟨"", rfl⟩
  · obtain ⟨text, htext, _⟩ := exists_textIn lists client form
    rw [Finding.text_table, htext]
    exact ⟨text ++ "\n", rfl⟩

end Summary

namespace Session

variable {arguments : List String} {conduct : Conduct} {summary : Summary} {source : String}
  {s after : Session}

/-- A listing that ends well shows the rows of the client, in the form that results have. -/
theorem listed_of_run
    (asked : Invocation.ofArguments arguments = .run conduct (.inspect summary source))
    (lists : summary ≠ .info) (h : run arguments s = (.ok 0, after)) :
    ∃ client before, (Action.clientFor conduct.output source {}).run s = (.ok client, before) ∧
      summary.Lists client conduct.output before after := by
  have haction : Command.action conduct (.inspect summary source) = (do
      let client ← Action.clientFor conduct.output source {}
      Action.writeSummary conduct.output client summary
      return 0) := rfl
  have hfails (trouble : Trouble) (found : Session) : found.report trouble ≠ (.ok 0, after) :=
    fun hreport => report_ne_zero trouble found (by rw [hreport])
  rw [run_eq asked, haction, Action.run_bind] at h
  rcases hclient : (Action.clientFor conduct.output source {}).run s with ⟨result, before⟩
  rw [hclient] at h
  cases result with
  | error trouble => exact absurd h (hfails trouble before)
  | ok client =>
    dsimp only at h
    rw [Action.run_return] at h
    rcases hwritten : (Action.writeSummary conduct.output client summary).run before with
      ⟨result, last⟩
    rw [hwritten] at h
    cases result with
    | error trouble => exact absurd h (hfails trouble last)
    | ok =>
      cases h
      exact ⟨client, before, rfl, Summary.lists_of_writeSummary lists hwritten⟩

/-- Once there is a client, a listing ends well and is printed, if it is not to go to a file. -/
theorem exists_listed (asked : Invocation.ofArguments arguments =
      .run conduct (.inspect summary source)) (lists : summary ≠ .info)
    (hfile : conduct.output.file = none)
    (answer : Query.Answer ⟨source, {}, summary.finding⟩ s.surroundings) :
    ∃ after text, run arguments s = (.ok 0, after) ∧
      (summary.finding answer.client).text conduct.output.form = .ok text ∧
        after.printed = s.printed ++ text := by
  obtain ⟨text, htext⟩ := Summary.exists_text_finding lists answer.client conduct.output.form
  obtain ⟨noted, hrun⟩ :=
    (exists_run asked (Summary.query?_inspect lists source) hfile answer).1 text htext
  exact ⟨_, text, hrun, htext, rfl⟩

/-- The input is a description with one operation, whose path has a tab. -/
def tabSession : Session where
  surroundings :=
    { environment := [("HOME", "/home/u")]
      input := ("\x7b\"openapi\": \"3.0.0\", " ++
        "\"paths\": \x7b\"/a\\tb\": \x7b\"get\": \x7b\x7d\x7d\x7d\x7d").toList }

def tabDocument : Node := .map
  [(.str "openapi", .str "3.0.0"),
    (.str "paths", .map [(.str "/a\tb", .map [(.str "get", .map [])])])]

def tabRow : List String := ["Default", "get", "GET", "/a\tb", "void"]

theorem resolve_tabDocument : ((Client.resolve {} tabDocument).client.toOption.map fun client =>
    (client.models.isEmpty, Summary.services.rows client)) = some (true, [tabRow]) := by
  have hentries {root : Entries} (hroot : tabDocument = .map root) : operationEntries {} root =
      [⟨.str "/a\tb", "get", "Default", .map [], []⟩] := by
    cases hroot
    rfl
  rw [@Client.client_resolve_eq {} tabDocument .v3 _ rfl rfl, hentries rfl]
  simp only [collect]
  decide +kernel

def tabAnswer {client : Client} (h : (Client.resolve {} tabDocument).client = .ok client)
    (finding : Client → Finding) : Query.Answer ⟨"-", {}, finding⟩ tabSession.surroundings where
  folder := ⟨.root, ["home", "u", ".config", "specir"]⟩
  after := { tabSession.surroundings with
    disk := ⟨[(["home", "u", ".config", "specir"], .folder), (["home", "u", ".config"], .folder),
      (["home", "u"], .folder), (["home"], .folder)]⟩ }
  settings := {}
  document := tabDocument
  client := client
  provided := rfl
  effective := rfl
  loaded := rfl
  accepted := h

/-- The client of the description, and what is printed of it. -/
theorem exists_run_tab {options : List CommandLine.CommonOption}
    (asked : Invocation.ofArguments arguments =
      .run (CommandLine.conductOf options) (.inspect summary "-")) (lists : summary ≠ .info)
    (hfile : (CommandLine.conductOf options).output.file = none) :
    ∃ client before after, run arguments tabSession = (.ok 0, after) ∧
      (Action.clientFor (CommandLine.conductOf options).output "-" {}).run tabSession =
        (.ok client, before) ∧
      client.models = [] ∧ Summary.services.rows client = [tabRow] ∧
      (summary.finding client).text (CommandLine.conductOf options).output.form =
        .ok after.printed ∧ before.printed = "" := by
  obtain ⟨client, hclient, hparts⟩ := Except.exists_of_toOption_map resolve_tabDocument
  simp only [Prod.mk.injEq, List.isEmpty_iff] at hparts
  obtain ⟨after, text, hrun, htext, hprinted⟩ :=
    exists_listed asked lists hfile (tabAnswer hclient summary.finding)
  obtain ⟨noted, hfound⟩ := Action.exists_clientFor (tabAnswer hclient summary.finding)
    (CommandLine.conductOf options).output
  rw [show tabSession.printed = "" from rfl, String.empty_append] at hprinted
  exact ⟨client, _, after, hrun, hfound, hparts.1, hparts.2, hprinted ▸ htext, rfl⟩

theorem read_inspect (word : String) :
    CommandLine.commonOptions.read false ["inspect", word, "-"] =
      .ok ([], ["inspect", word, "-"]) :=
  CommandLine.Lexicon.read_argument _ (by decide) (by simp)

theorem read_json_inspect (word : String) :
    CommandLine.commonOptions.read false ["--json", "inspect", word, "-"] =
      .ok ([.json], ["inspect", word, "-"]) := by
  have hflag : CommandLine.commonOptions.readOption "--json" = .ok ⟨[.json], none⟩ := rfl
  rw [CommandLine.Lexicon.read_flag (by decide) (by simp) hflag, read_inspect]
  rfl

/-- In JSON the operation is found again in what is written, with the tab in its path. -/
theorem listed_tabSession : ∃ client before after,
    run ["--json", "inspect", "services", "-"] tabSession = (.ok 0, after) ∧
      (Action.clientFor (CommandLine.conductOf [.json]).output "-" {}).run tabSession =
        (.ok client, before) ∧
      Summary.services.rows client = [tabRow] ∧
      Summary.services.Lists client (CommandLine.conductOf [.json]).output before after := by
  have asked := invocation_inspect .services (read_json_inspect "services") (by decide)
  obtain ⟨client, before, after, hrun, hfound, _, hrows, _⟩ := exists_run_tab asked (by decide) rfl
  obtain ⟨other, between, hother, hlists⟩ := listed_of_run asked (by decide) hrun
  cases hother.symm.trans hfound
  exact ⟨client, before, after, hrun, hfound, hrows, hlists⟩

/-- Whether a listing of the input has written a text that shows the rows of the client. -/
def WritesRows (conduct : Conduct) (summary : Summary) (s after : Session) : Prop :=
  ∃ client before text, (Action.clientFor conduct.output "-" {}).run s = (.ok client, before) ∧
    (conduct.output.write text).run before = (.ok (), after) ∧
      conduct.output.resultForm.Shows summary.columns (summary.rows client) text

/-- Without models there is no list in what is written, not even an empty one; and in plain text the
path of the operation is not found again. -/
theorem exists_not_writesRows :
    (∃ after, run ["--json", "inspect", "models", "-"] tabSession = (.ok 0, after) ∧
      ¬ WritesRows (CommandLine.conductOf [.json]) .models tabSession after) ∧
    ∃ after, run ["inspect", "services", "-"] tabSession = (.ok 0, after) ∧
      ¬ WritesRows (CommandLine.conductOf []) .services tabSession after := by
  constructor
  · have asked := invocation_inspect .models (read_json_inspect "models") (by decide)
    obtain ⟨client, before, after, hrun, hfound, hmodels, _, htext, hbefore⟩ :=
      exists_run_tab asked (by decide) rfl
    have hprinted : after.printed = "" := by
      have hnothing : Summary.models.finding client = .nothing :=
        if_pos (List.isEmpty_iff.mpr hmodels)
      rw [hnothing] at htext
      exact (Except.ok.inj htext).symm
    refine ⟨after, hrun, ?_⟩
    rintro ⟨other, between, text, hother, hwrite, -⟩
    cases hother.symm.trans hfound
    have hafter : before.print (text ++ "\n") = after := congrArg Prod.snd hwrite
    rw [← hafter, Session.print, hbefore] at hprinted
    have hlength := congrArg (·.toList.length) hprinted
    simp at hlength
  · have asked := invocation_inspect .services (read_inspect "services") (by decide)
    obtain ⟨client, before, after, hrun, hfound, _, hrows, _⟩ :=
      exists_run_tab asked (by decide) rfl
    refine ⟨after, hrun, ?_⟩
    rintro ⟨other, between, text, hother, -, hshows⟩
    cases hother.symm.trans hfound
    rw [hrows] at hshows
    have hcell : "/a\tb" ∈ tabRow := by decide
    exact OutputForm.not_shows_of_tab List.mem_cons_self hcell (by decide) text hshows

end Session
end OpenApi
