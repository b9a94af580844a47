import Mathlib.Algebra.GroupWithZero.Nat
import Mathlib.Algebra.Ring.Int.Defs
import Tpcc.Db.Session

/-! The multi-row `INSERT` of `ExecuteBulk`: the loops that build its text and its parameters in
parallel, and the batches into which the rows are cut. -/

namespace Tpcc.Db

open ObSession

/-- The kinds of `Params::Value` that a bulk insert binds. -/
inductive Value
  | null
  | string (v : String)
  deriving DecidableEq

/-- A statement with its bound parameters. -/
structure Insert where
  sql : String
  params : List Value
  deriving DecidableEq

namespace Insert

/-- The loop over the columns, from column `i` on. -/
def appendColumns : Nat → List String → String → String
  | _, [], sql => sql
  | i, column :: columns, sql =>
    appendColumns (i + 1) columns ((if i ≠ 0 then sql ++ "," else sql) ++ ("`" ++ column ++ "`"))

/-- What is bound for a cell. -/
def cellValue : Option String → Value
  | some v => .string v
  | none => .null

/-- The loop over the cells of a row, from cell `c` on. -/
def appendCells : Nat → BulkRow → String → List Value → String × List Value
  | _, [], sql, params => (sql, params)
  | c, cell :: cells, sql, params =>
    appendCells (c + 1) cells ((if c ≠ 0 then sql ++ "," else sql) ++ "?")
      (params ++ [cellValue cell])

/-- The loop over the rows of a batch, from row `r` on. -/
def appendRows (columns : List String) :
    Nat → List BulkRow → String → List Value → Except Failure (String × List Value)
  | _, [], sql, params => .ok (sql, params)
  | r, row :: rows, sql, params =>
    let opened := (if r ≠ 0 then sql ++ "," else sql) ++ "("
    if row.length ≠ columns.length then .error (.runtime "Bulk row column count mismatch")
    else
      let cells := appendCells 0 row opened params
      appendRows columns (r + 1) rows (cells.1 ++ ")") cells.2

/-- The text before the rows. -/
def begin (tableName : String) (columns : List String) : String :=
  appendColumns 0 columns ("INSERT INTO `" ++ tableName ++ "` (") ++ ") VALUES "

/-- The statement that `flush` builds before it sends it. -/
def build (tableName : String) (columns : List String) (batch : List BulkRow) :
    Except Failure Insert :=
  match appendRows columns 0 batch (begin tableName columns) [] with
  | .ok built => .ok ⟨built.1, built.2⟩
  | .error e => .error e

end Insert

/-- The texts with a comma before each of them. -/
def afterCommas : List String → String
  | [] => ""
  | text :: texts => "," ++ text ++ afterCommas texts

/-- The texts with commas between them. -/
def commaSeparated : List String → String
  | [] => ""
  | text :: texts => text ++ afterCommas texts

/-- The placeholders of a row. -/
def group (row : BulkRow) : String := "(" ++ commaSeparated (row.map fun _ => "?") ++ ")"

/-- The groups of a batch. -/
def valuesText (batch : List BulkRow) : String := commaSeparated (batch.map group)

/-- The text up to the groups. -/
def insertHead (tableName : String) (columns : List String) : String :=
  "INSERT INTO `" ++ tableName ++ "` (" ++
    commaSeparated (columns.map fun column => "`" ++ column ++ "`") ++ ") VALUES "

/-- The statement for a batch whose rows have as many cells as there are columns. -/
def insertOf (tableName : String) (columns : List String) (batch : List BulkRow) : Insert :=
  ⟨insertHead tableName columns ++ valuesText batch, batch.flatten.map Insert.cellValue⟩

namespace Insert

theorem appendColumns_succ (i : Nat) (columns : List String) (sql : String) :
    appendColumns (i + 1) columns sql =
      sql ++ afterCommas (columns.map fun column => "`" ++ column ++ "`") := by
  induction columns generalizing i sql with
  | nil => simp [appendColumns, afterCommas]
  | cons column columns ih =>
    rw [appendColumns, ih, List.map_cons, afterCommas]
    simp [String.append_assoc]

theorem appendColumns_zero (columns : List String) (sql : String) :
    appendColumns 0 columns sql =
      sql ++ commaSeparated (columns.map fun column => "`" ++ column ++ "`") := by
  cases columns with
  | nil => simp [appendColumns, commaSeparated]
  | cons column columns =>
    rw [appendColumns, appendColumns_succ, List.map_cons, commaSeparated]
    simp [String.append_assoc]

theorem begin_eq (tableName : String) (columns : List String) :
    begin tableName columns = insertHead tableName columns :=
  congrArg (fun text => text ++ ") VALUES ") (appendColumns_zero columns _)

theorem appendCells_succ (c : Nat) (row : BulkRow) (sql : String) (params : List Value) :
    appendCells (c + 1) row sql params =
      (sql ++ afterCommas (row.map fun _ => "?"), params ++ row.map cellValue) := by
  induction row generalizing c sql params with
  | nil => simp [appendCells, afterCommas]
  | cons cell row ih =>
    rw [appendCells, ih, List.map_cons, afterCommas, List.map_cons]
    simp [String.append_assoc]

theorem appendCells_zero (row : BulkRow) (sql : String) (params : List Value) :
    appendCells 0 row sql params =
      (sql ++ commaSeparated (row.map fun _ => "?"), params ++ row.map cellValue) := by
  cases row with
  | nil => simp [appendCells, commaSeparated]
  | cons cell row =>
    rw [appendCells, appendCells_succ, List.map_cons, commaSeparated, List.map_cons]
    simp [String.append_assoc]

variable {columns : List String} {batch : List BulkRow}

/-- A row of the loop over a batch. -/
theorem appendRows_cons {row : BulkRow} (hrow : row.length = columns.length) (r : Nat)
    (rows : List BulkRow) (sql : String) (params : List Value) :
    appendRows columns r (row :: rows) sql params =
      appendRows columns (r + 1) rows ((if r ≠ 0 then sql ++ "," else sql) ++ group row)
        (params ++ row.map cellValue) := by
  rw [appendRows, if_neg (not_not.mpr hrow), appendCells_zero, group]
  simp only [String.append_assoc]

theorem appendRows_succ (hbatch : ∀ row ∈ batch, row.length = columns.length) (r : Nat) (sql : String)
    (params : List Value) :
    appendRows columns (r + 1) batch sql params =
      .ok (sql ++ afterCommas (batch.map group), params ++ batch.flatten.map cellValue) := by
  induction batch generalizing r sql params with
  | nil => simp [appendRows, afterCommas]
  | cons row rows ih =>
    obtain ⟨hrow, hrows⟩ := List.forall_mem_cons.mp hbatch
    rw [appendRows_cons hrow, ih hrows, List.map_cons, afterCommas, List.flatten_cons, List.map_append]
    simp [String.append_assoc, List.append_assoc]

theorem appendRows_zero (hbatch : ∀ row ∈ batch, row.length = columns.length) (sql : String)
    (params : List Value) :
    appendRows columns 0 batch sql params =
      .ok (sql ++ valuesText batch, params ++ batch.flatten.map cellValue) := by
  cases batch with
  | nil => simp [appendRows, valuesText, commaSeparated]
  | cons row rows =>
    obtain ⟨hrow, hrows⟩ := List.forall_mem_cons.mp hbatch
    rw [appendRows_cons hrow, appendRows_succ hrows, valuesText, List.map_cons, commaSeparated,
      List.flatten_cons, List.map_append]
    simp [String.append_assoc, List.append_assoc]

/-- The statement that is built for rows of the right length. -/
theorem build_ok (tableName : String) (hbatch : ∀ row ∈ batch, row.length = columns.length) :
    build tableName columns batch = .ok (insertOf tableName columns batch) := by
  rw [build, appendRows_zero hbatch, begin_eq, List.nil_append]
  rfl

theorem appendRows_error (hbatch : ¬∀ row ∈ batch, row.length = columns.length) (r : Nat)
    (sql : String) (params : List Value) :
    appendRows columns r batch sql params = .error (.runtime "Bulk row column count mismatch") := by
  induction batch generalizing r sql params with
  | nil => exact absurd (by simp) hbatch
  | cons row rows ih =>
    by_cases hrow : row.length = columns.length
    · rw [appendRows_cons hrow]
      exact ih (fun hrows => hbatch (List.forall_mem_cons.mpr ⟨hrow, hrows⟩)) _ _ _
    · rw [appendRows, if_pos hrow]

theorem build_error (tableName : String) (hbatch : ¬∀ row ∈ batch, row.length = columns.length) :
    build tableName columns batch = .error (.runtime "Bulk row column count mismatch") := by
  rw [build, appendRows_error hbatch]

end Insert

section Text

/-- Of a character that is not the comma, separated texts have as many as the texts have. -/
theorem count_afterCommas {c : Char} (hc : c ≠ ',') (texts : List String) :
    (afterCommas texts).toList.count c = (texts.map fun text => text.toList.count c).sum := by
  induction texts with
  | nil => simp [afterCommas]
  | cons text texts ih =>
    rw [afterCommas, String.toList_append, String.toList_append, List.count_append, List.count_append,
      ih, List.map_cons, List.sum_cons]
    have hcomma : (",".toList).count c = 0 := List.count_eq_zero.mpr (by simpa using hc)
    rw [hcomma, Nat.zero_add]

theorem count_commaSeparated {c : Char} (hc : c ≠ ',') (texts : List String) :
    (commaSeparated texts).toList.count c = (texts.map fun text => text.toList.count c).sum := by
  cases texts with
  | nil => simp [commaSeparated]
  | cons text texts =>
    rw [commaSeparated, String.toList_append, List.count_append, count_afterCommas hc, List.map_cons,
      List.sum_cons]

theorem count_group {c : Char} (hc : c ≠ ',') (row : BulkRow) :
    (group row).toList.count c =
      "(".toList.count c + row.length * "?".toList.count c + ")".toList.count c := by
  have hcells : ∀ cells : BulkRow, ((cells.map fun _ => "?").map fun text => text.toList.count c).sum =
      cells.length * "?".toList.count c := by
    intro cells
    induction cells with
    | nil => simp
    | cons cell cells ih =>
      rw [List.map_cons, List.map_cons, List.sum_cons, ih, List.length_cons, Nat.succ_mul,
        Nat.add_comm]
  rw [group, String.toList_append, String.toList_append, List.count_append, List.count_append,
    count_commaSeparated hc, hcells]

/-- The statement has one pair of brackets for each row, and a placeholder for each parameter. -/
theorem insertOf_text (tableName : String) (columns : List String) (batch : List BulkRow) :
    (insertOf tableName columns batch).sql = insertHead tableName columns ++ valuesText batch ∧
      (valuesText batch).toList.count '(' = batch.length ∧
      (valuesText batch).toList.count ')' = batch.length ∧
      (valuesText batch).toList.count '?' = (insertOf tableName columns batch).params.length := by
  refine ⟨rfl, ?_, ?_, ?_⟩
  · have hgroup : ∀ row : BulkRow, (group row).toList.count '(' = 1 := fun row =>
      count_group (by decide) row
    rw [valuesText, count_commaSeparated (by decide), List.map_map]
    simp [Function.comp_def, hgroup]
  · have hgroup : ∀ row : BulkRow, (group row).toList.count ')' = 1 := fun row =>
      count_group (by decide) row
    rw [valuesText, count_commaSeparated (by decide), List.map_map]
    simp [Function.comp_def, hgroup]
  · have hgroup : ∀ row : BulkRow, (group row).toList.count '?' = row.length := fun row =>
      (count_group (by decide) row).trans (by simp)
    rw [valuesText, count_commaSeparated (by decide), List.map_map, insertOf, List.length_map,
      List.length_flatten]
    exact congrArg List.sum (List.map_congr_left fun row _ => hgroup row)

end Text

section Batches

/-- The full batches that the writer's rows make after those in `batch`, and the rows that are left
for the last flush. -/
def splitRows : List BulkRow → List BulkRow → List (List BulkRow) × List BulkRow
  | batch, [] => ([], batch)
  | batch, row :: rows =>
    if (batch ++ [row]).length ≥ bulkBatchRows then
      ((batch ++ [row]) :: (splitRows [] rows).1, (splitRows [] rows).2)
    else splitRows (batch ++ [row]) rows

/-- The batches that are sent. -/
def batchesOf (rows : List BulkRow) : List (List BulkRow) :=
  (splitRows [] rows).1 ++ if (splitRows [] rows).2 = [] then [] else [(splitRows [] rows).2]

theorem splitRows_spec {batch : List BulkRow} (hbatch : batch.length < bulkBatchRows)
    (rows : List BulkRow) :
    (splitRows batch rows).1.flatten ++ (splitRows batch rows).2 = batch ++ rows ∧
      (∀ full ∈ (splitRows batch rows).1, full ≠ [] ∧ full.length ≤ bulkBatchRows) ∧
      (splitRows batch rows).2.length < bulkBatchRows := by
  induction rows generalizing batch with
  | nil => simpa [splitRows] using hbatch
  | cons row rows ih =>
    have hlength : (batch ++ [row]).length = batch.length + 1 := by simp
    rw [splitRows]
    split
    · obtain ⟨hflat, hfull, hlast⟩ := @ih [] (by decide)
      refine ⟨?_, ?_, hlast⟩
      · rw [List.flatten_cons, List.append_assoc, hflat]
        simp
      · refine List.forall_mem_cons.mpr ⟨⟨by simp, by omega⟩, hfull⟩
    · next hroom =>
      obtain ⟨hflat, hfull, hlast⟩ := @ih (batch ++ [row]) (by omega)
      refine ⟨?_, hfull, hlast⟩
      rw [hflat]
      simp

/-- The batches are the rows in order, none of them empty or too long. -/
theorem batchesOf_spec (rows : List BulkRow) :
    (batchesOf rows).flatten = rows ∧
      ∀ batch ∈ batchesOf rows, batch ≠ [] ∧ batch.length ≤ bulkBatchRows := by
  obtain ⟨hflat, hfull, hlast⟩ := @splitRows_spec [] (by decide) rows
  rw [List.nil_append] at hflat
  unfold batchesOf
  split
  · next hempty =>
    rw [hempty, List.append_nil] at hflat
    rw [List.append_nil]
    exact ⟨hflat, hfull⟩
  · next hne =>
    refine ⟨by simpa using hflat, fun batch hbatch => ?_⟩
    rcases List.mem_append.mp hbatch with hmem | hmem
    · exact hfull batch hmem
    · rw [List.mem_singleton.mp hmem]
      exact ⟨hne, Nat.le_of_lt hlast⟩

end Batches

end Tpcc.Db
