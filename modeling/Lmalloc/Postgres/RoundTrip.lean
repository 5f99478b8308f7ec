/-
  Lmalloc/Postgres/RoundTrip.lean
  ===============================
  **What the server reads from the bytes `PgInsertData` sends.**

  For a table whose columns have supported types, the encoder's rows are tuples of
  the binary COPY format, so the format's reader takes back one tuple for each row
  of the data block, with a field for each column the COPY command names.
-/
import Lmalloc.Library.CopyFormat
import Lmalloc.Postgres.Insert
import Lmalloc.Postgres.Layout

namespace Lmalloc.Postgres

open Lmalloc.Library Lmalloc.Library.Bytes

def blockData (block : List UInt8) : UInt64 → UInt8 := fun a => block.getD a.toNat 0

/-- The little-endian value of `w` bytes of a block. -/
def storedValue (block : List UInt8) (src w : ℕ) : ℕ := ofLE ((block.drop src).take w)

/-- The value a field stands for, given the one stored: a `time_t` becomes the
    microseconds since 2000-01-01, on 64 bits. -/
def copiedValue (oid : UInt32) (stored : ℕ) : ℕ :=
  if oid = pgTimestamp then
    (((stored : ℤ).bmod (2 ^ 64) * 10 ^ 6 - 946684800 * 10 ^ 6) % 2 ^ 64).toNat
  else stored

def fieldStart (ti : PgTableInfo) (r : ℕ) (col : PgColMetadata) : ℕ :=
  r * ti.rowSize.toNat + col.offset.toInt.toNat

/-- A tuple holds row `r` of a block: the `k`-th field has the width of the `k`-th
    column in the data, and the value that is stored for it. -/
structure IsRow (ti : PgTableInfo) (block : List UInt8) (r : ℕ) (tuple : CopyFormat.Tuple) :
    Prop where
  length : tuple.length = ti.dataColumns.length
  inBlock : ∀ col ∈ ti.dataColumns, 0 ≤ col.offset.toInt ∧
    fieldStart ti r col + copyWidth col.typeOid ≤ block.length
  field : ∀ k (h : k < ti.dataColumns.length), ∃ bytes, tuple[k]? = some (some bytes) ∧
    bytes.length = copyWidth ti.dataColumns[k].typeOid ∧
    ofBE bytes = copiedValue ti.dataColumns[k].typeOid
      (storedValue block (fieldStart ti r ti.dataColumns[k])
        (copyWidth ti.dataColumns[k].typeOid))

/-- The function gets to sending the rows. -/
def Outcomes.ReachesRows (o : Outcomes) : Prop :=
  o.beginStatus = .commandOk ∧ o.copyStatus = .copyIn ∧ o.headerRet = 1 ∧ o.scratchOk = true

/-! ### Values -/

theorem load_blockData {block : List UInt8} {src w : ℕ} (hin : src + w ≤ block.length)
    (hsize : block.length < 2 ^ 63) :
    load (blockData block) (UInt64.ofNat src) w = (block.drop src).take w := by
  apply List.ext_getElem
  · rw [length_load, List.length_take, List.length_drop]
    omega
  · intro i hi _
    rw [length_load] at hi
    have haddr : (UInt64.ofNat src + UInt64.ofNat i).toNat = src + i := by
      rw [← UInt64.ofNat_add, Word.toNat_ofNat_of_lt (by omega)]
    simp only [load, List.getElem_map, List.getElem_range, blockData, haddr]
    rw [List.getD_eq_getElem _ _ (by omega), List.getElem_take, List.getElem_drop]

/-- The conversion on unsigned words agrees with the one on signed numbers. -/
theorem micros_eq (v : ℕ) :
    (v % 2 ^ 64 * 1000000 % 2 ^ 64 + (2 ^ 64 - 946684800000000)) % 2 ^ 64 =
      (((v : ℤ).bmod (2 ^ 64) * 10 ^ 6 - 946684800 * 10 ^ 6) % 2 ^ 64).toNat := by
  have hsigned : (v : ℤ).bmod (2 ^ 64) * 10 ^ 6 - 946684800 * 10 ^ 6 ≡
      v * 10 ^ 6 - 946684800 * 10 ^ 6 [ZMOD 2 ^ 64] := by
    apply Int.ModEq.sub_right
    apply Int.ModEq.mul_right
    exact Int.bmod_emod
  have hunsigned :
      ((v % 2 ^ 64 * 1000000 % 2 ^ 64 + (2 ^ 64 - 946684800000000) : ℕ) : ℤ) ≡
        v * 10 ^ 6 - 946684800 * 10 ^ 6 [ZMOD 2 ^ 64] := by
    unfold Int.ModEq
    omega
  rw [hsigned, ← hunsigned]
  generalize v % 2 ^ 64 * 1000000 % 2 ^ 64 + (2 ^ 64 - 946684800000000) = micros
  omega

theorem unixToPgTimestamp_eq (v : ℕ) :
    (unixToPgTimestamp (UInt64.ofNat v).toInt64).toUInt64.toNat = copiedValue pgTimestamp v := by
  have hshift : ((unixEpochJdate - postgresEpochJdate) * usecsPerDay).toUInt64.toNat =
      2 ^ 64 - 946684800000000 := by decide
  have hscale : usecsPerSecond.toUInt64.toNat = 1000000 := by decide
  rw [unixToPgTimestamp, Int64.toUInt64_add, Int64.toUInt64_mul (UInt64.ofNat v).toInt64,
    UInt64.toUInt64_toInt64, UInt64.toNat_add, UInt64.toNat_mul, hshift, hscale,
    UInt64.toNat_ofNat', copiedValue, if_pos rfl, micros_eq]

theorem columnValue_lt (data : UInt64 → UInt8) (src : UInt64) (oid : UInt32) :
    columnValue data src oid < 256 ^ copyWidth oid := by
  unfold columnValue
  split
  · rename_i ht
    subst ht
    exact UInt64.toNat_lt _
  · have hlt := ofLE_lt (load data src (copyWidth oid))
    rwa [length_load] at hlt

theorem columnValue_blockData {block : List UInt8} {src : ℕ} {oid : UInt32}
    (hin : src + copyWidth oid ≤ block.length) (hsize : block.length < 2 ^ 63) :
    columnValue (blockData block) (UInt64.ofNat src) oid =
      copiedValue oid (storedValue block src (copyWidth oid)) := by
  by_cases ht : oid = pgTimestamp
  · subst ht
    have hwidth : copyWidth pgTimestamp = 8 := by decide
    rw [hwidth] at hin ⊢
    rw [columnValue, if_pos rfl, load_blockData hin hsize, ← storedValue,
      unixToPgTimestamp_eq]
  · rw [columnValue, if_neg ht, copiedValue, if_neg ht, load_blockData hin hsize, storedValue]

/-! ### Rows are tuples of the format -/

def rowFields (ti : PgTableInfo) (data : UInt64 → UInt8) (r : ℕ) : List (List UInt8) :=
  ti.dataColumns.map fun col => toBE (copyWidth col.typeOid)
    (columnValue data (UInt64.ofNat r * ti.rowSize + col.offset.toInt64.toUInt64) col.typeOid)

namespace PgTableInfo.Prepared

variable {ti : PgTableInfo}

theorem rowBytes_le (h : ti.Prepared) : rowBytes ti.dataColumns ≤ 12800 := by
  have hlen := h.length_le
  have hsum := Postgres.rowBytes_le ti.dataColumns
  omega

theorem toNat_rowSize (h : ti.Prepared) : ti.rowSize.toNat = rowBytes ti.dataColumns := by
  have hle := h.rowBytes_le
  rw [h.rowSize, Word.toNat_ofNat_of_lt (by omega)]

/-- What `PgPrepareCtx` computes has consistent metadata. -/
theorem consistent (h : ti.Prepared) : ti.Consistent := by
  have hwidth : ∀ col ∈ ti.dataColumns, col.typeLength.toInt = copyWidth col.typeOid := by
    intro col hcol
    obtain ⟨hlen, -, -, -⟩ := copyWidth_of_supported (h.supported col hcol)
    have hle := copyWidth_le col.typeOid
    rw [hlen, Int32.toInt_ofNat_of_lt (by omega)]
  refine ⟨hwidth, ?_⟩
  rw [List.map_congr_left hwidth, rowBytes_cast, h.toNat_rowSize]

theorem flatten_rowPieces (h : ti.Prepared) (data : UInt64 → UInt8) (r : ℕ) :
    (rowPieces ti data r).flatten = CopyFormat.encodeTuple (rowFields ti data r) := by
  have hlen := h.length_le
  have hcount : ti.colCountNoAutoIncrements.toUInt16.toNat = ti.dataColumns.length := by
    rw [h.count, Int16.toUInt16_ofNat', UInt16.toNat_ofNat']
    omega
  unfold rowPieces CopyFormat.encodeTuple rowFields
  rw [List.flatten_cons, List.length_map, hcount]
  congr 1
  rw [List.flatMap_map, List.flatMap_def, List.flatten_flatten, List.map_map, List.flatMap_def]
  congr 1
  apply List.map_congr_left
  intro col hcol
  obtain ⟨-, -, hwidth, -⟩ := copyWidth_of_supported (h.supported col hcol)
  rw [Function.comp_apply, flatten_fieldPieces, CopyFormat.encodeField, length_toBE, hwidth]

theorem encodeRows_eq (h : ti.Prepared) (data : UInt64 → UInt8) (n : ℕ) :
    encodeRows ti data n =
      ((List.range n).map (rowFields ti data)).flatMap CopyFormat.encodeTuple := by
  induction n with
  | zero => rfl
  | succ n ih =>
      rw [encodeRows_succ, ih, h.flatten_rowPieces, List.range_succ, List.map_append,
        List.flatMap_append]
      simp

theorem encodable (h : ti.Prepared) (data : UInt64 → UInt8) (r : ℕ) :
    CopyFormat.Encodable (rowFields ti data r) := by
  have hlen := h.length_le
  constructor
  · rw [rowFields, List.length_map]
    omega
  · intro field hfield
    obtain ⟨col, -, rfl⟩ := List.mem_map.mp hfield
    have hwidth := copyWidth_le col.typeOid
    rw [length_toBE]
    omega

theorem toInt_offset (h : ti.Prepared) {k : ℕ} (hk : k < ti.dataColumns.length) :
    ti.dataColumns[k].offset.toInt = rowBytes (ti.dataColumns.take k) ∧
      rowBytes (ti.dataColumns.take k) + copyWidth ti.dataColumns[k].typeOid ≤
        rowBytes ti.dataColumns := by
  have htotal : rowBytes (ti.dataColumns.take k) + copyWidth ti.dataColumns[k].typeOid +
      rowBytes (ti.dataColumns.drop (k + 1)) = rowBytes ti.dataColumns := by
    rw [← rowBytes_singleton, ← rowBytes_append, ← rowBytes_append, List.take_append_getElem hk,
      List.take_append_drop]
  have hle := h.rowBytes_le
  constructor
  · rw [h.placed k hk, Int32.toInt_ofNat_of_lt (by omega)]
  · omega

theorem fieldStart_le (h : ti.Prepared) {col : PgColMetadata} (hcol : col ∈ ti.dataColumns)
    {block : List UInt8} {n r : ℕ} (hr : r < n) (hblock : block.length = n * ti.rowSize.toNat) :
    0 ≤ col.offset.toInt ∧ fieldStart ti r col + copyWidth col.typeOid ≤ block.length := by
  obtain ⟨k, hk, rfl⟩ := List.getElem_of_mem hcol
  obtain ⟨hoffset, hfits⟩ := h.toInt_offset hk
  have hrows : (r + 1) * ti.rowSize.toNat ≤ n * ti.rowSize.toNat := Nat.mul_le_mul_right _ hr
  rw [Nat.add_mul, Nat.one_mul, ← hblock, h.toNat_rowSize] at hrows
  unfold fieldStart
  rw [hoffset, h.toNat_rowSize]
  omega

/-- The address the loop computes is the field's place in the block. -/
theorem address_eq (h : ti.Prepared) {col : PgColMetadata} (hcol : col ∈ ti.dataColumns) (r : ℕ) :
    UInt64.ofNat r * ti.rowSize + col.offset.toInt64.toUInt64 =
      UInt64.ofNat (fieldStart ti r col) := by
  obtain ⟨k, hk, rfl⟩ := List.getElem_of_mem hcol
  obtain ⟨hoffset, hfits⟩ := h.toInt_offset hk
  have hle := h.rowBytes_le
  rw [fieldStart, hoffset, h.toNat_rowSize, Int.toNat_natCast, UInt64.ofNat_add, UInt64.ofNat_mul,
    ← h.rowSize, h.placed k hk, Word.toUInt64_ofNat_of_lt (by omega)]

theorem isRow (h : ti.Prepared) {block : List UInt8} {n r : ℕ} (hr : r < n)
    (hblock : block.length = n * ti.rowSize.toNat) (hsize : block.length < 2 ^ 63) :
    IsRow ti block r ((rowFields ti (blockData block) r).map some) where
  length := by rw [List.length_map, rowFields, List.length_map]
  inBlock := fun col hcol => h.fieldStart_le hcol hr hblock
  field := by
    intro k hk
    have hmem := List.getElem_mem hk
    have hin := (h.fieldStart_le hmem hr hblock).2
    have hvalue := columnValue_blockData hin hsize
    have hlt := columnValue_lt (blockData block)
      (UInt64.ofNat (fieldStart ti r ti.dataColumns[k])) ti.dataColumns[k].typeOid
    refine ⟨toBE (copyWidth ti.dataColumns[k].typeOid)
      (columnValue (blockData block) (UInt64.ofNat (fieldStart ti r ti.dataColumns[k]))
        ti.dataColumns[k].typeOid), ?_, length_toBE _ _, ?_⟩
    · rw [List.getElem?_map, rowFields, List.getElem?_map, List.getElem?_eq_getElem hk,
        Option.map_some, Option.map_some, h.address_eq hmem]
    · rw [ofBE_toBE_of_lt hlt, hvalue]

end PgTableInfo.Prepared

/-! ### The bytes handed over -/

theorem handed_pgInsertData {ti : PgTableInfo} {data : UInt64 → UInt8} {itemCount : UInt64}
    {o : Outcomes} (ho : o.ReachesRows) :
    handed (pgInsertData ti data itemCount o).2 =
      copyHeader ++ convertedBytes ti data itemCount := by
  obtain ⟨hbegin, hcopy, hheader, hscratch⟩ := ho
  have hsent : (sendRows ti data itemCount o).2 = [.putCopyData copyHeader 1,
      .putCopyData (convertedBytes ti data itemCount) o.rowsRet] := by
    simp [sendRows, hheader, hscratch]
  rw [pgInsertData_copying ti data itemCount o hbegin hcopy, hsent]
  simp [handed, cleanup]

theorem copyHeader_eq : copyHeader = CopyFormat.signature ++ toBE 4 0 ++ toBE 4 0 := by decide

/-- For every supported catalog the prepared info names the columns that are in
    the data, in their order, and from what `PgInsertData` sends for a block the
    server reads exactly the block's rows. -/
theorem copy_roundTrip (tableName : Text) (q : MetadataQuery) (hstatus : q.status = .tuplesOk)
    (harena : q.arenaOk = true) (hcat : SupportedCatalog q.rows) :
    ∃ ti, pgPrepareTable tableName q = some ti ∧
      ti.dataColumns.map PgColMetadata.described =
        (q.rows.filter (! isTrue ·.isAutoIncrement)).map CatalogRow.described ∧
      ti.copyCommand = copyText tableName (ti.dataColumns.map (·.columnName)) ∧
      ∀ (block : List UInt8) (itemCount : UInt64) (o : Outcomes),
        block.length = itemCount.toNat * ti.rowSize.toNat →
        itemCount.toNat * encodedRowSize ti < 2 ^ 31 → o.ReachesRows →
        ∃ tuples, CopyFormat.decode (handed (pgInsertData ti (blockData block) itemCount o).2) =
            some tuples ∧
          tuples.length = itemCount.toNat ∧
          ∀ r (h : r < tuples.length), IsRow ti block r tuples[r] := by
  obtain ⟨ti, hti, hprepared, hdescribed, hcommand⟩ :=
    pgPrepareTable_prepared tableName hstatus harena hcat
  refine ⟨ti, hti, hdescribed, hcommand, ?_⟩
  intro block itemCount o hblock hfits ho
  have hsize : block.length < 2 ^ 63 := by
    have hrow := encodedRowSize_eq ti
    have hbytes := hprepared.toNat_rowSize
    have hle : itemCount.toNat * ti.rowSize.toNat ≤ itemCount.toNat * encodedRowSize ti :=
      Nat.mul_le_mul_left _ (by omega)
    omega
  refine ⟨((List.range itemCount.toNat).map (rowFields ti (blockData block))).map (·.map some),
    ?_, ?_, ?_⟩
  · rw [handed_pgInsertData ho, convertedBytes_eq hfits, hprepared.encodeRows_eq, copyHeader_eq]
    apply CopyFormat.decode_encode
    intro fields hfields
    obtain ⟨r, -, rfl⟩ := List.mem_map.mp hfields
    exact hprepared.encodable (blockData block) r
  · rw [List.length_map, List.length_map, List.length_range]
  · intro r hr
    rw [List.length_map, List.length_map, List.length_range] at hr
    simp only [List.getElem_map, List.getElem_range]
    exact hprepared.isRow hr hblock hsize

/-- The catalog of a table with a serial key and one `INT4` column. -/
def oneInt4Query : MetadataQuery where
  status := .tuplesOk
  rows := [⟨['i', 'd'], ['2', '3'], ['4'], ['-', '1'], ['t'], ['t']⟩,
    ⟨['a'], ['2', '3'], ['4'], ['-', '1'], ['f'], ['f']⟩]
  arenaOk := true

theorem copy_roundTrip_oneInt4 : ∃ ti, pgPrepareTable ['t'] oneInt4Query = some ti ∧
    ∃ tuples, CopyFormat.decode (handed (pgInsertData ti (blockData [1, 2, 3, 4, 5, 6, 7, 8]) 2
        { noScratch with scratchOk := true }).2) = some tuples ∧ tuples.length = 2 := by
  obtain ⟨ti, hti, -, -, h⟩ := copy_roundTrip ['t'] oneInt4Query rfl rfl
    ⟨by decide, by decide, by decide⟩
  have hsizes : (pgPrepareTable ['t'] oneInt4Query).map
      (fun ti => (ti.rowSize.toNat, encodedRowSize ti)) = some (4, 10) := by decide
  rw [hti, Option.map_some, Option.some_inj, Prod.mk.injEq] at hsizes
  obtain ⟨tuples, hdecode, hlen, -⟩ := h [1, 2, 3, 4, 5, 6, 7, 8] 2
    { noScratch with scratchOk := true } (by rw [hsizes.1]; rfl) (by rw [hsizes.2]; decide)
    ⟨rfl, rfl, rfl, rfl⟩
  exact ⟨ti, hti, tuples, hdecode, hlen⟩

end Lmalloc.Postgres
