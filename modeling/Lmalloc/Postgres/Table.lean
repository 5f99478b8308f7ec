/-
  Lmalloc/Postgres/Table.lean
  ===========================
  **`GetTableMetadata` and the per-table part of `PgPrepareCtx`.**

  The metadata query answers one row of texts for each column of the table.
  Auto-incrementing columns stay out of the incoming data: they get the offset -1
  and appear neither in the row size nor in the column list of the COPY command.

  The query's status and whether the arena has room are parameters.
-/
import Lmalloc.Library.Word

namespace Lmalloc.Postgres

open Lmalloc.Library

abbrev Text := List Char

inductive ExecStatus where
  | commandOk
  | tuplesOk
  | copyIn
  | fatalError
  | otherStatus
deriving DecidableEq, Repr

def pgInt8 : UInt32 := 20
def pgInt2 : UInt32 := 21
def pgInt4 : UInt32 := 23
def pgFloat4 : UInt32 := 700
def pgFloat8 : UInt32 := 701
def pgTimestamp : UInt32 := 1114

structure PgColMetadata where
  typeOid : UInt32
  typeLength : Int32
  offset : Int32
  typeModifier : Int32
  columnName : Text
  isPrimaryKey : Bool
  isAutoIncrement : Bool
deriving DecidableEq, Repr

/-- `pg_table_info`; the metadata array has an entry for each counted column. -/
structure PgTableInfo where
  colCount : Int16
  colCountNoAutoIncrements : Int16
  rowSize : UInt64
  tableName : Text
  copyCommand : Text
  colMetadata : List PgColMetadata
  colCount_le : colCount.toInt ≤ colMetadata.length

/-- One row of the metadata query's result, as `PQgetvalue` gives it. -/
structure CatalogRow where
  columnName : Text
  typeOid : Text
  typeLength : Text
  typeModifier : Text
  isPrimaryKey : Text
  isAutoIncrement : Text
deriving DecidableEq, Repr

def isSpace (c : Char) : Bool :=
  c = ' ' || c = '\t' || c = '\n' || c = '\x0b' || c = '\x0c' || c = '\r'

def digits (s : Text) : ℕ :=
  (s.takeWhile Char.isDigit).foldl (fun v c => 10 * v + (c.toNat - 48)) 0

/-- `atoi`: the `long` that `strtol` reads, which stops at its limits, cut to an `int`. -/
def atoi (s : Text) : Int32 :=
  let value : ℤ := match s.dropWhile isSpace with
    | '-' :: rest => -(digits rest : ℤ)
    | '+' :: rest => digits rest
    | rest => digits rest
  Int32.ofInt (max (-2 ^ 63) (min (2 ^ 63 - 1) value))

example : atoi [' ', '-', '1', '2', 'x'] = -12 := by decide

/-- `text[0] == 't'`. -/
def isTrue (s : Text) : Bool := s.head? = some 't'

/-- What `GetTableMetadata` has built up: the running offset and the values it
    leaves behind its out parameters. -/
structure Layout where
  offset : Int32
  rowSize : UInt64
  colCountNoAutoIncrements : Int16
  metadataArray : List PgColMetadata

def CatalogRow.metadata (row : CatalogRow) (offset : Int32) : PgColMetadata where
  typeOid := (atoi row.typeOid).toUInt32
  typeLength := atoi row.typeLength
  offset := offset
  typeModifier := atoi row.typeModifier
  columnName := row.columnName
  isPrimaryKey := isTrue row.isPrimaryKey
  isAutoIncrement := isTrue row.isAutoIncrement

def Layout.addColumn (s : Layout) (row : CatalogRow) : Layout :=
  if isTrue row.isAutoIncrement then
    { s with metadataArray := s.metadataArray ++ [row.metadata (-1)] }
  else
    { offset := s.offset + atoi row.typeLength
      -- the cast to `size_t` extends the sign
      rowSize := s.rowSize + (atoi row.typeLength).toInt64.toUInt64
      colCountNoAutoIncrements := s.colCountNoAutoIncrements + 1
      metadataArray := s.metadataArray ++ [row.metadata s.offset] }

/-- The query's outcome and whether `ArenaPushArray` has room for the metadata. -/
structure MetadataQuery where
  status : ExecStatus
  rows : List CatalogRow
  arenaOk : Bool
deriving DecidableEq, Repr

/-- `GetTableMetadata`, with `*RowSize` as it is on entry; `*ColCount` is the
    number of rows cut to 16 bits. -/
def getTableMetadata (rowSize : UInt64) (q : MetadataQuery) : Option (Int16 × Layout) :=
  if q.status ≠ .tuplesOk then none
  else if q.arenaOk = false then none
  else some (Int16.ofNat q.rows.length, q.rows.foldl Layout.addColumn ⟨0, rowSize, 0, []⟩)

def backspace (s : Text) (n : ℕ) : Text := s.take (s.length - n)

def appendColumn (command : Text) (col : PgColMetadata) : Text :=
  if col.isAutoIncrement then command else command ++ col.columnName ++ ", ".toList

def copyCommand (tableName : Text) (cols : List PgColMetadata) : Text :=
  backspace (cols.foldl appendColumn ("COPY ".toList ++ tableName ++ "(".toList)) 2 ++
    ") FROM STDIN WITH (FORMAT binary)".toList

theorem length_foldl_addColumn (s : Layout) (rows : List CatalogRow) :
    (rows.foldl Layout.addColumn s).metadataArray.length =
      s.metadataArray.length + rows.length := by
  induction rows generalizing s with
  | nil => rfl
  | cons row rows ih =>
      rw [List.foldl_cons, ih, Layout.addColumn, List.length_cons]
      split <;> rw [List.length_append, List.length_singleton] <;> omega

theorem getTableMetadata_colCount_le {rowSize : UInt64} {q : MetadataQuery} {r : Int16 × Layout}
    (h : getTableMetadata rowSize q = some r) : r.1.toInt ≤ r.2.metadataArray.length := by
  unfold getTableMetadata at h
  split at h
  · exact absurd h nofun
  · split at h
    · exact absurd h nofun
    · cases h
      rw [length_foldl_addColumn, List.length_nil, Nat.zero_add]
      exact Word.toInt_ofNat_le _

/-- The per-table part of `PgPrepareCtx`: the table's info, starting from a zeroed
    one, or `none` where it gives up. -/
def pgPrepareTable (tableName : Text) (q : MetadataQuery) : Option PgTableInfo :=
  match h : getTableMetadata 0 q with
  | none => none
  | some (colCount, layout) =>
      if colCount = 0 then none
      else some {
        colCount := colCount
        colCountNoAutoIncrements := layout.colCountNoAutoIncrements
        rowSize := layout.rowSize
        tableName := tableName
        copyCommand := copyCommand tableName (layout.metadataArray.take colCount.toInt.toNat)
        colMetadata := layout.metadataArray
        colCount_le := getTableMetadata_colCount_le h }

/-- The columns the loops over `c < ColCount` go through. -/
def PgTableInfo.columns (ti : PgTableInfo) : List PgColMetadata :=
  ti.colMetadata.take ti.colCount.toInt.toNat

def PgTableInfo.dataColumns (ti : PgTableInfo) : List PgColMetadata :=
  ti.columns.filter (! ·.isAutoIncrement)

end Lmalloc.Postgres
