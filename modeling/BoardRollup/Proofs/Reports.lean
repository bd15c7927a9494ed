import BoardRollup.Proofs.Indexes
import BoardRollup.Proofs.Lookups
import BoardRollup.Proofs.Repetition
import BoardRollup.Proofs.Rollup
import BoardRollup.Proofs.Runs
import BoardRollup.Relation.Report

/-!
# What a report says of the passes

The report on a settings text and the passes over the columns with these settings read the
same relation. So the report tells which pass computes such a column from source records, if
any does, and which records the texts that the pass writes into it can come from.
-/

namespace BoardRollup

namespace Column

variable {c : Column} {settings : String} (text : c.settings = some settings)
include text

/-- A column has a relation of a kind if its report has this kind. -/
theorem relation?_eq_none_iff (kind : RelationKind) :
    c.relation? kind = none ↔ (RelationReport.ofSettings settings).kind ≠ some kind := by
  rw [relation?, text, Relation.ofSettings_some, RelationReport.ofSettings]
  cases Relation.parse settings with
  | none => simp [RelationReport.ofRelation]
  | some relation => simp [RelationReport.ofRelation, Option.filter_some]

/-- The relation of a column has the target and the flags of the report. -/
theorem report_of_relation? {kind : RelationKind} {relation : Relation}
    (h : c.relation? kind = some relation) :
    RelationReport.ofSettings settings = .ofRelation (some relation) := by
  rw [relation?, text, Relation.ofSettings_some] at h
  rw [RelationReport.ofSettings, (Option.filter_eq_some_iff.mp h).1]

/-- The report of a kind is the report on a relation of the column. -/
theorem exists_relation? {kind : RelationKind}
    (h : (RelationReport.ofSettings settings).kind = some kind) :
    ∃ relation, c.relation? kind = some relation ∧
      RelationReport.ofSettings settings = .ofRelation (some relation) := by
  have some_relation : c.relation? kind ≠ none := fun none =>
    (relation?_eq_none_iff text kind).mp none h
  obtain ⟨relation, found⟩ := Option.ne_none_iff_exists'.mp some_relation
  exact ⟨relation, found, report_of_relation? text found⟩

theorem isSome_target_iff (kind : RelationKind) :
    ((c.relation? kind).bind Relation.target?).isSome ↔
      (RelationReport.ofSettings settings).kind = some kind ∧
        (RelationReport.ofSettings settings).target.isSome := by
  cases h : c.relation? kind with
  | none =>
    have other := (relation?_eq_none_iff text kind).mp h
    simp [other]
  | some relation =>
    have same : (RelationReport.ofSettings settings).kind = some kind := by
      refine Classical.not_not.mp fun other => ?_
      rw [(relation?_eq_none_iff text kind).mpr other] at h
      cases h
    have target : (RelationReport.ofSettings settings).target = relation.target? := by
      rw [report_of_relation? text h]
      rfl
    simp [same, target]

/-- Only as a rollup with a target is a column rolled up. -/
theorem rolledUp_of_report (subitems : List Subitem)
    (untargeted : (RelationReport.ofSettings settings).kind = some .rollup →
      (RelationReport.ofSettings settings).target = none) : c.rolledUp subitems = c := by
  have noTarget : ¬ (c.rollupTarget?).isSome := fun some_target => by
    obtain ⟨kind, target⟩ := (isSome_target_iff text .rollup).mp some_target
    rw [untargeted kind] at target
    cases target
  exact rolledUp_of_no_target (Option.not_isSome_iff_eq_none.mp noTarget)

/-- As a cross-board column alone it is gathered. -/
theorem gathered_of_report (item : Item) (index : LinkedIndex)
    (other : (RelationReport.ofSettings settings).kind ≠ some .crossBoard) :
    c.gathered item index = c :=
  gathered_of_none ((relation?_eq_none_iff text .crossBoard).mpr other)

theorem gathered_of_untargeted (item : Item) (index : LinkedIndex)
    (kind : (RelationReport.ofSettings settings).kind = some .crossBoard)
    (untargeted : (RelationReport.ofSettings settings).target = none) :
    c.gathered item index = c.fillText index := by
  obtain ⟨relation, found, report⟩ := exists_relation? text kind
  rw [report] at untargeted
  exact gathered_of_no_target found untargeted

/-- With a target it is gathered from the items that a relation with these flags reads. -/
theorem gathered_of_targeted (item : Item) (index : LinkedIndex) {target : Target}
    (kind : (RelationReport.ofSettings settings).kind = some .crossBoard)
    (targeted : (RelationReport.ofSettings settings).target = some target) :
    ∃ relation : Relation, (RelationReport.ofSettings settings).flagged = relation.flagged ∧
      c.gathered item index =
        (c.fillText index).written (index.textsFor target (item.sourceIds relation index)) := by
  obtain ⟨relation, found, report⟩ := exists_relation? text kind
  rw [report] at targeted ⊢
  exact ⟨relation, rfl, gathered_of_target found targeted⟩

end Column

/-- A linked item that a relation with this target and these flags reads under an id: it is
indexed under the id and on the target board, and where the first columns under the flags refer
to any id, they refer to this one. -/
structure LinkedIndex.Sources (index : LinkedIndex) (item : Item) (flagged : List String)
    (target : Target) (id : String) (source : LinkedItem) : Prop where
  indexed : id ∈ index.ids ∧ index.get? id = some source
  id_eq (items : List LinkedItem) : index = .ofItems items → source.id = id
  board : source.boardId = target.boardId
  narrowed : (∃ flag ∈ flagged, ∃ d, item.column? flag = some d ∧ ∃ other, d.Refers other) →
    ∃ flag ∈ flagged, ∃ d, item.column? flag = some d ∧ d.Refers id

/-- What a report says of the passes over an item that has the described column at a position
and the given other columns around it. -/
structure RelationReport.Describes (report : RelationReport) (item others : Item)
    (index : LinkedIndex) (position : Nat) (c : Column) : Prop where
  /-- The rollup pass counts the column just if it is a rollup with a target. -/
  rollups : item.rollUp.2 = others.rollUp.2 +
    if report.kind = some .rollup ∧ report.target.isSome then 1 else 0
  /-- The cross-board pass counts the column just if it is a cross-board column with a target. -/
  crossBoards : (item.gather index).2 = (others.gather index).2 +
    if report.kind = some .crossBoard ∧ report.target.isSome then 1 else 0
  /-- Without a relation, and as a rollup without a target, it is left as it is. -/
  unrelated : report.kind = none ∨ report.kind = some .rollup ∧ report.target = none →
    item.rollUp.1.columns[position]? = some c ∧
      (item.gather index).1.columns[position]? = some c
  /-- As a cross-board column without a target it has its text filled in and keeps its value. -/
  untargeted : report.kind = some .crossBoard → report.target = none →
    item.rollUp.1.columns[position]? = some c ∧
      (item.gather index).1.columns[position]? = some (c.fillText index) ∧
      (c.fillText index).value = c.value
  /-- As a cross-board column with a target it shows and sums texts of first target cells. -/
  targeted (target : Target) : report.kind = some .crossBoard → report.target = some target →
    ∃ texts,
      (item.gather index).1.columns[position]? = some ((c.fillText index).written texts) ∧
      ∀ text ∈ texts, ∃ id source cell, index.Sources item report.flagged target id source ∧
        source.cell? target.columnId = some cell ∧
        Contributions.shown? (cellText cell.text cell.value) = some text

theorem LinkedIndex.sources_of_mem {item : Item} {relation : Relation} {index : LinkedIndex}
    {target : Target} {id : String} {source : LinkedItem}
    (mem : id ∈ item.sourceIds relation index) (found : index.get? id = some source)
    (board : source.boardId = target.boardId) :
    index.Sources item relation.flagged target id source where
  indexed := ⟨mem_ids_of_get? found, found⟩
  id_eq items same := ((keyed_ofItems items).get?_eq_some_iff.mp (same ▸ found)).2
  board := board
  narrowed := by
    rintro ⟨flag, flagged, d, column, other, refers⟩
    have some_id : other ∈ item.flaggedIds relation :=
      Item.mem_flaggedIds.mpr ⟨flag, flagged, d, column, refers⟩
    rw [Item.sourceIds, if_neg (List.ne_nil_of_mem some_id)] at mem
    exact Item.mem_flaggedIds.mp mem

theorem countP_insert {α : Type} (p : α → Bool) (before : List α) (a : α) (after : List α) :
    (before ++ a :: after).countP p = (before ++ after).countP p + if p a then 1 else 0 := by
  rw [List.countP_append, List.countP_cons, List.countP_append, Nat.add_assoc]

/-- The report on the settings of a column describes what both passes do with that column. -/
theorem RelationReport.describes_passes {item : Item} {before after : List Column} {c : Column}
    {settings : String} (columns : item.columns = before ++ c :: after)
    (text : c.settings = some settings) (index : LinkedIndex) :
    (ofSettings settings).Describes item { item with columns := before ++ after } index
      before.length c := by
  have rolled : item.rollUp.1.columns[before.length]? = some (c.rolledUp item.subitems) := by
    simp [Item.columns_rollUp, columns]
  have gathered : (item.gather index).1.columns[before.length]? =
      some (c.gathered item index) := by
    simp [Item.columns_gather, columns]
  constructor
  case rollups =>
    simp only [Item.count_rollUp, columns, countP_insert, Column.rollupTarget?,
      Column.isSome_target_iff text]
  case crossBoards =>
    simp only [Item.count_gather, columns, countP_insert, Column.crossTarget?,
      Column.isSome_target_iff text]
  case unrelated =>
    intro unrelated
    have noTarget (kind : (ofSettings settings).kind = some .rollup) :
        (ofSettings settings).target = none := by
      rcases unrelated with none | ⟨_, none⟩
      · rw [none] at kind
        cases kind
      · exact none
    have noRelation : (ofSettings settings).kind ≠ some .crossBoard := by
      rcases unrelated with kind | ⟨kind, _⟩ <;> simp [kind]
    rw [rolled, gathered, Column.rolledUp_of_report text _ noTarget,
      Column.gathered_of_report text item index noRelation]
    exact ⟨rfl, rfl⟩
  case untargeted =>
    intro kind target
    rw [rolled, gathered, Column.rolledUp_of_report text _ fun _ => target,
      Column.gathered_of_untargeted text item index kind target]
    exact ⟨rfl, rfl, c.fillText_value index⟩
  case targeted =>
    intro target kind targeted
    obtain ⟨relation, flagged, written⟩ :=
      Column.gathered_of_targeted text item index kind targeted
    refine ⟨index.textsFor target (item.sourceIds relation index), by rw [gathered, written], ?_⟩
    intro shown mem
    obtain ⟨id, id_mem, source, cell, found, board, column, shows⟩ :=
      LinkedIndex.mem_textsFor.mp mem
    rw [flagged]
    exact ⟨id, source, cell, LinkedIndex.sources_of_mem id_mem found board, column, shows⟩

/-- The settings of a column that reads the prices on board 9 of the items that the column
`link` refers to. -/
def priceSettings : String :=
  "\x7b\"relation_column\":\x7b\"link\":true\x7d," ++
    "\"displayed_linked_columns\":\x7b\"9\":[\"price\"]\x7d\x7d"

/-- A column that reads prices, behind two columns that are both called `link`. Only the second
of them refers to an item. -/
def repeatedLink : Item :=
  { Item.ofLink none .null with
    columns := [
      { Column.ofRaw .empty with id := "link" },
      { Column.ofRaw .empty with id := "link", linkedIds := some ["1"] },
      { Column.ofRaw .empty with id := "mirror", settings := some priceSettings }] }

theorem RelationReport.describes_passes_repeatedLink :
    repeatedLink.columns =
        repeatedLink.columns.take 2 ++
          { Column.ofRaw .empty with id := "mirror", settings := some priceSettings } :: [] ∧
      (ofSettings priceSettings).kind = some .crossBoard ∧
      (ofSettings priceSettings).target = some ⟨"9", "price"⟩ ∧
      (ofSettings priceSettings).Describes repeatedLink
        { repeatedLink with columns := repeatedLink.columns.take 2 ++ [] } Item.twoPrices 2
        { Column.ofRaw .empty with id := "mirror", settings := some priceSettings } := by
  have kind : (ofSettings priceSettings).kind = some .crossBoard := by decide +kernel
  have target : (ofSettings priceSettings).target = some ⟨"9", "price"⟩ := by decide +kernel
  have columns : repeatedLink.columns = repeatedLink.columns.take 2 ++
      { Column.ofRaw .empty with id := "mirror", settings := some priceSettings } :: [] := rfl
  exact ⟨columns, kind, target, describes_passes columns rfl _⟩

/-- A flag means the first column of its id only. Of the columns with the flagged id one refers
to item 1, and none to item 2, but the first refers to none; so both items are read. -/
theorem gather_reads_unreferenced :
    (RelationReport.ofSettings priceSettings).flagged = ["link"] ∧
      (∃ d ∈ repeatedLink.columns, d.id = "link" ∧ d.Refers "1") ∧
      (∀ d ∈ repeatedLink.columns, d.id = "link" → ∀ id, d.Refers id → id = "1") ∧
      (repeatedLink.gather Item.twoPrices).1.columns.map (fun c => (c.id, c.text, c.value)) =
        [("link", none, .null), ("link", none, .null),
          ("mirror", some "4, 6", .str "\"10\"")] := by
  have flagged : (RelationReport.ofSettings priceSettings).flagged = ["link"] := by
    decide +kernel
  have refers : ∃ d ∈ repeatedLink.columns, d.id = "link" ∧ "1" ∈ d.references := by
    decide +kernel
  have only : ∀ d ∈ repeatedLink.columns, d.id = "link" → ∀ id ∈ d.references, id = "1" := by
    decide +kernel
  have texts : (repeatedLink.gather Item.twoPrices).1.columns.map
      (fun c => (c.id, c.text, c.value)) =
        [("link", none, .null), ("link", none, .null),
          ("mirror", some "4, 6", .str "\"10\"")] := by
    decide +kernel
  simp only [Column.mem_references] at refers only
  exact ⟨flagged, refers, only, texts⟩

end BoardRollup
