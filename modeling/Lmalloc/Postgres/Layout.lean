/-
  Lmalloc/Postgres/Layout.lean
  ============================
  **The table info of a table whose columns have the types the loop knows.**

  Every column that is in the data starts where the ones before it end, the row
  size is their total width, and the COPY command names them in the same order.
-/
import Lmalloc.Postgres.Encode

namespace Lmalloc.Postgres

open Lmalloc.Library

/-- The types the conversion loop writes, with the length the catalog gives them. -/
def supportedTypes : List (UInt32 × Int32) :=
  [(pgInt2, 2), (pgInt4, 4), (pgFloat4, 4), (pgInt8, 8), (pgFloat8, 8), (pgTimestamp, 8)]

def PgColMetadata.Supported (col : PgColMetadata) : Prop :=
  (col.typeOid, col.typeLength) ∈ supportedTypes

/-- What the catalog may say of a table: up to 1600 columns, those that are not
    auto-incrementing of supported types, and at least one such. -/
structure SupportedCatalog (rows : List CatalogRow) : Prop where
  supported : ∀ row ∈ rows, isTrue row.isAutoIncrement = false →
    ((atoi row.typeOid).toUInt32, atoi row.typeLength) ∈ supportedTypes
  nonempty : ∃ row ∈ rows, isTrue row.isAutoIncrement = false
  length_le : rows.length ≤ 1600

def PgColMetadata.described (col : PgColMetadata) : Text × UInt32 × Int32 :=
  (col.columnName, col.typeOid, col.typeLength)

def CatalogRow.described (row : CatalogRow) : Text × UInt32 × Int32 :=
  (row.columnName, (atoi row.typeOid).toUInt32, atoi row.typeLength)

/-- A catalog length is the width the loop writes, in each of its conversions. -/
theorem copyWidth_of_supported {oid : UInt32} {len : Int32} (h : (oid, len) ∈ supportedTypes) :
    len = Int32.ofNat (copyWidth oid) ∧ len.toInt64.toUInt64 = UInt64.ofNat (copyWidth oid) ∧
      len.toUInt32.toNat = copyWidth oid ∧ 0 < copyWidth oid := by
  revert oid len
  simp only [supportedTypes, List.mem_cons, Prod.mk.injEq, List.not_mem_nil, or_false]
  rintro oid len (⟨rfl, rfl⟩ | ⟨rfl, rfl⟩ | ⟨rfl, rfl⟩ | ⟨rfl, rfl⟩ | ⟨rfl, rfl⟩ | ⟨rfl, rfl⟩) <;>
    decide

namespace Layout

def dataColumns (s : Layout) : List PgColMetadata := s.metadataArray.filter (! ·.isAutoIncrement)

/-- The columns so far lie one after another from 0, and the running values are
    their totals. -/
structure LaidOut (s : Layout) : Prop where
  supported : ∀ col ∈ s.dataColumns, col.Supported
  offset : s.offset = Int32.ofNat (rowBytes s.dataColumns)
  rowSize : s.rowSize = UInt64.ofNat (rowBytes s.dataColumns)
  count : s.colCountNoAutoIncrements = Int16.ofNat s.dataColumns.length
  placed : ∀ k (h : k < s.dataColumns.length),
    s.dataColumns[k].offset = Int32.ofNat (rowBytes (s.dataColumns.take k))

theorem laidOut_start : LaidOut ⟨0, 0, 0, []⟩ :=
  ⟨fun _ h => absurd h List.not_mem_nil, rfl, rfl, rfl, fun _ h => absurd h (Nat.not_lt_zero _)⟩

/-- What a row does to the running values: a column that is in the data moves them all. -/
theorem addColumn_of_auto (s : Layout) {row : CatalogRow} (h : isTrue row.isAutoIncrement = true) :
    s.addColumn row = { s with metadataArray := s.metadataArray ++ [row.metadata (-1)] } :=
  if_pos h

theorem addColumn_of_data (s : Layout) {row : CatalogRow} (h : isTrue row.isAutoIncrement = false) :
    s.addColumn row =
      { offset := s.offset + atoi row.typeLength
        rowSize := s.rowSize + (atoi row.typeLength).toInt64.toUInt64
        colCountNoAutoIncrements := s.colCountNoAutoIncrements + 1
        metadataArray := s.metadataArray ++ [row.metadata s.offset] } :=
  if_neg (by simp [h])

theorem dataColumns_addColumn_of_auto (s : Layout) {row : CatalogRow}
    (h : isTrue row.isAutoIncrement = true) : (s.addColumn row).dataColumns = s.dataColumns := by
  rw [addColumn_of_auto s h]
  unfold dataColumns
  rw [List.filter_append, List.filter_cons_of_neg (by simp [CatalogRow.metadata, h]),
    List.filter_nil, List.append_nil]

theorem dataColumns_addColumn_of_data (s : Layout) {row : CatalogRow}
    (h : isTrue row.isAutoIncrement = false) :
    (s.addColumn row).dataColumns = s.dataColumns ++ [row.metadata s.offset] := by
  rw [addColumn_of_data s h]
  unfold dataColumns
  rw [List.filter_append, List.filter_cons_of_pos (by simp [CatalogRow.metadata, h]),
    List.filter_nil]

theorem dataColumns_addColumn (s : Layout) (row : CatalogRow) :
    (s.addColumn row).dataColumns =
      s.dataColumns ++ if isTrue row.isAutoIncrement then [] else [row.metadata s.offset] := by
  cases hauto : isTrue row.isAutoIncrement with
  | true =>
      rw [dataColumns_addColumn_of_auto s hauto, if_pos rfl, List.append_nil]
  | false =>
      rw [dataColumns_addColumn_of_data s hauto, if_neg Bool.false_ne_true]

theorem LaidOut.addColumn {s : Layout} (h : s.LaidOut) {row : CatalogRow}
    (hrow : isTrue row.isAutoIncrement = false →
      ((atoi row.typeOid).toUInt32, atoi row.typeLength) ∈ supportedTypes) :
    (s.addColumn row).LaidOut := by
  cases hauto : isTrue row.isAutoIncrement with
  | true =>
      have hcols := dataColumns_addColumn_of_auto s hauto
      have hstep := addColumn_of_auto s hauto
      constructor
      · rw [hcols]
        exact h.supported
      · rw [hcols, hstep]
        exact h.offset
      · rw [hcols, hstep]
        exact h.rowSize
      · rw [hcols, hstep]
        exact h.count
      · simp only [hcols]
        exact h.placed
  | false =>
      have hcols := dataColumns_addColumn_of_data s hauto
      have hstep := addColumn_of_data s hauto
      obtain ⟨hlen, hsize, -, -⟩ := copyWidth_of_supported (hrow hauto)
      have hwidth : rowBytes [row.metadata s.offset] =
          copyWidth (atoi row.typeOid).toUInt32 := rowBytes_singleton _
      constructor
      · intro col hcol
        rw [hcols] at hcol
        rcases List.mem_append.mp hcol with hold | hnew
        · exact h.supported col hold
        · rw [List.mem_singleton.mp hnew]
          exact hrow hauto
      · rw [hcols, rowBytes_append, hwidth, Int32.ofNat_add, ← h.offset, ← hlen, hstep]
      · rw [hcols, rowBytes_append, hwidth, UInt64.ofNat_add, ← h.rowSize, ← hsize, hstep]
      · rw [hcols, List.length_append, Int16.ofNat_add, ← h.count, hstep]
        rfl
      · simp only [hcols]
        intro k hk
        rw [List.length_append, List.length_singleton] at hk
        by_cases hold : k < s.dataColumns.length
        · rw [List.getElem_append_left hold, List.take_append_of_le_length (Nat.le_of_lt hold)]
          exact h.placed k hold
        · -- the new column starts at the running offset
          obtain rfl : k = s.dataColumns.length := by omega
          rw [List.getElem_concat_length rfl, List.take_left, ← h.offset]
          rfl

theorem LaidOut.foldl {s : Layout} (h : s.LaidOut) {rows : List CatalogRow}
    (hrows : ∀ row ∈ rows, isTrue row.isAutoIncrement = false →
      ((atoi row.typeOid).toUInt32, atoi row.typeLength) ∈ supportedTypes) :
    (rows.foldl Layout.addColumn s).LaidOut := by
  induction rows generalizing s with
  | nil => exact h
  | cons row rows ih =>
      rw [List.foldl_cons]
      apply ih (h.addColumn (hrows row List.mem_cons_self))
      exact fun r hr => hrows r (List.mem_cons_of_mem row hr)

theorem described_foldl (s : Layout) (rows : List CatalogRow) :
    (rows.foldl addColumn s).dataColumns.map PgColMetadata.described =
      s.dataColumns.map PgColMetadata.described ++
        (rows.filter (! isTrue ·.isAutoIncrement)).map CatalogRow.described := by
  induction rows generalizing s with
  | nil => simp
  | cons row rows ih =>
      rw [List.foldl_cons, ih, dataColumns_addColumn]
      cases hauto : isTrue row.isAutoIncrement with
      | true => rw [List.filter_cons_of_neg (by simp [hauto])]; simp
      | false =>
          rw [List.filter_cons_of_pos (by simp [hauto])]
          simp [CatalogRow.metadata, PgColMetadata.described, CatalogRow.described]

end Layout

/-! ### The COPY command -/

def copyText (tableName : Text) (names : List Text) : Text :=
  "COPY ".toList ++ tableName ++ "(".toList ++ List.intercalate ", ".toList names ++
    ") FROM STDIN WITH (FORMAT binary)".toList

theorem foldl_appendColumn (command : Text) (cols : List PgColMetadata) :
    cols.foldl appendColumn command = command ++
      ((cols.filter (! ·.isAutoIncrement)).map (·.columnName)).flatMap (· ++ ", ".toList) := by
  induction cols generalizing command with
  | nil => simp
  | cons col cols ih =>
      rw [List.foldl_cons, ih, appendColumn]
      cases hauto : col.isAutoIncrement with
      | true => rw [List.filter_cons_of_neg (by simp [hauto])]; rfl
      | false =>
          rw [List.filter_cons_of_pos (by simp [hauto]), List.map_cons, List.flatMap_cons]
          simp [List.append_assoc]

theorem flatMap_append_separator {names : List Text} (sep : Text) (h : names ≠ []) :
    names.flatMap (· ++ sep) = List.intercalate sep names ++ sep := by
  induction names with
  | nil => exact absurd rfl h
  | cons name names ih =>
      cases names with
      | nil => simp
      | cons next rest =>
          rw [List.flatMap_cons, ih (List.cons_ne_nil _ _), List.intercalate_cons_cons]
          simp [List.append_assoc]

theorem backspace_append {s t : Text} {n : ℕ} (h : t.length = n) : backspace (s ++ t) n = s := by
  rw [backspace, List.length_append, h, Nat.add_sub_cancel, List.take_left]

theorem copyCommand_eq {tableName : Text} {cols : List PgColMetadata}
    (h : cols.filter (! ·.isAutoIncrement) ≠ []) :
    copyCommand tableName cols =
      copyText tableName ((cols.filter (! ·.isAutoIncrement)).map (·.columnName)) := by
  have hsep : (", ".toList).length = 2 := rfl
  unfold copyCommand copyText
  rw [foldl_appendColumn, flatMap_append_separator _ (by simpa using h), ← List.append_assoc,
    backspace_append hsep]

/-! ### The prepared table -/

/-- The info of a table all of whose data columns have supported types. -/
structure PgTableInfo.Prepared (ti : PgTableInfo) : Prop where
  supported : ∀ col ∈ ti.dataColumns, col.Supported
  rowSize : ti.rowSize = UInt64.ofNat (rowBytes ti.dataColumns)
  count : ti.colCountNoAutoIncrements = Int16.ofNat ti.dataColumns.length
  length_le : ti.dataColumns.length ≤ 1600
  placed : ∀ k (h : k < ti.dataColumns.length),
    ti.dataColumns[k].offset = Int32.ofNat (rowBytes (ti.dataColumns.take k))

theorem toInt_colCount {n : ℕ} (h : n ≤ 1600) : (Int16.ofNat n).toInt = n :=
  Int16.toInt_ofNat_of_lt (by omega)

def layoutOf (rows : List CatalogRow) : Layout := rows.foldl Layout.addColumn ⟨0, 0, 0, []⟩

theorem layoutOf_laidOut {rows : List CatalogRow}
    (h : ∀ row ∈ rows, isTrue row.isAutoIncrement = false →
      ((atoi row.typeOid).toUInt32, atoi row.typeLength) ∈ supportedTypes) :
    (layoutOf rows).LaidOut := Layout.laidOut_start.foldl h

theorem described_layoutOf (rows : List CatalogRow) :
    (layoutOf rows).dataColumns.map PgColMetadata.described =
      (rows.filter (! isTrue ·.isAutoIncrement)).map CatalogRow.described :=
  Layout.described_foldl _ rows

theorem length_layoutOf (rows : List CatalogRow) :
    (layoutOf rows).metadataArray.length = rows.length := by
  rw [layoutOf, length_foldl_addColumn, List.length_nil, Nat.zero_add]

theorem dataColumns_layoutOf_ne_nil {rows : List CatalogRow} (hcat : SupportedCatalog rows) :
    (layoutOf rows).dataColumns ≠ [] := by
  obtain ⟨row, hrow, hauto⟩ := hcat.nonempty
  intro hnil
  have hnames := described_layoutOf rows
  rw [hnil, List.map_nil, eq_comm, List.map_eq_nil_iff, List.filter_eq_nil_iff] at hnames
  exact hnames row hrow (by simp [hauto])

/-- What the per-table part of `PgPrepareCtx` takes from the layout. -/
structure PgTableInfo.FromLayout (ti : PgTableInfo) (tableName : Text) (layout : Layout) :
    Prop where
  dataColumns : ti.dataColumns = layout.dataColumns
  rowSize : ti.rowSize = layout.rowSize
  count : ti.colCountNoAutoIncrements = layout.colCountNoAutoIncrements
  copyCommand : ti.copyCommand = Postgres.copyCommand tableName layout.metadataArray

/-- Of an answer that has a row, and not more than a table can have, the per-table
    part of `PgPrepareCtx` makes an info. -/
theorem pgPrepareTable_eq (tableName : Text) {q : MetadataQuery} (hstatus : q.status = .tuplesOk)
    (harena : q.arenaOk = true) (hne : q.rows ≠ []) (hlen : q.rows.length ≤ 1600) :
    ∃ ti, pgPrepareTable tableName q = some ti ∧ ti.FromLayout tableName (layoutOf q.rows) := by
  have hcount := toInt_colCount hlen
  have hquery : getTableMetadata 0 q = some (Int16.ofNat q.rows.length, layoutOf q.rows) := by
    simp [getTableMetadata, hstatus, harena, layoutOf]
  have hall : (layoutOf q.rows).metadataArray.take (Int16.ofNat q.rows.length).toInt.toNat =
      (layoutOf q.rows).metadataArray := by
    rw [hcount, Int.toNat_natCast, ← length_layoutOf, List.take_length]
  have hsome : Int16.ofNat q.rows.length ≠ 0 := by
    have hpos := List.length_pos_iff.mpr hne
    intro hzero
    rw [hzero] at hcount
    have hzero : (0 : Int16).toInt = 0 := rfl
    omega
  unfold pgPrepareTable
  split
  · rename_i hnone
    rw [hquery] at hnone
    exact absurd hnone nofun
  · rename_i colCount layout hresult
    rw [hquery] at hresult
    obtain ⟨rfl, rfl⟩ := Prod.mk.inj (Option.some.inj hresult)
    rw [if_neg hsome]
    refine ⟨_, rfl, ?_, rfl, rfl, ?_⟩
    · unfold PgTableInfo.dataColumns PgTableInfo.columns
      rw [hall]
      rfl
    · rw [hall]

/-- The layout of supported columns makes a prepared table. -/
theorem PgTableInfo.FromLayout.prepared {ti : PgTableInfo} {tableName : Text}
    {rows : List CatalogRow} (h : ti.FromLayout tableName (layoutOf rows))
    (hlaid : (layoutOf rows).LaidOut) (hlen : rows.length ≤ 1600) : ti.Prepared := by
  constructor
  · rw [h.dataColumns]
    exact hlaid.supported
  · rw [h.dataColumns, h.rowSize]
    exact hlaid.rowSize
  · rw [h.dataColumns, h.count]
    exact hlaid.count
  · rw [h.dataColumns]
    apply le_trans (List.length_filter_le _ _)
    rw [length_layoutOf]
    exact hlen
  · simp only [h.dataColumns]
    exact hlaid.placed

/-- And on a supported catalog the info describes the columns that are in the data. -/
theorem pgPrepareTable_prepared (tableName : Text) {q : MetadataQuery}
    (hstatus : q.status = .tuplesOk) (harena : q.arenaOk = true) (hcat : SupportedCatalog q.rows) :
    ∃ ti, pgPrepareTable tableName q = some ti ∧ ti.Prepared ∧
      ti.dataColumns.map PgColMetadata.described =
        (q.rows.filter (! isTrue ·.isAutoIncrement)).map CatalogRow.described ∧
      ti.copyCommand = copyText tableName (ti.dataColumns.map (·.columnName)) := by
  have hne : q.rows ≠ [] := by
    obtain ⟨row, hrow, -⟩ := hcat.nonempty
    exact List.ne_nil_of_mem hrow
  obtain ⟨ti, hti, hlayout⟩ :=
    pgPrepareTable_eq tableName hstatus harena hne hcat.length_le
  refine ⟨ti, hti, hlayout.prepared (layoutOf_laidOut hcat.supported) hcat.length_le, ?_, ?_⟩
  · rw [hlayout.dataColumns]
    exact described_layoutOf q.rows
  · rw [hlayout.copyCommand, hlayout.dataColumns]
    exact copyCommand_eq (dataColumns_layoutOf_ne_nil hcat)

end Lmalloc.Postgres
