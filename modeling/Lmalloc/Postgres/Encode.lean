/-
  Lmalloc/Postgres/Encode.lean
  ============================
  **The conversion loop of `PgInsertData`.**

  Each row becomes the number of its fields, and for each column that is not
  auto-incrementing the length and the value, all in network byte order.  A value
  is copied from the row at the column's offset; its width follows from the
  column's type, while the announced length is the metadata's.

  `Data` is memory from the address of the data block on, so pointer arithmetic is
  on 64-bit words.  The host is little-endian.
-/
import Lmalloc.Library.Bytes
import Lmalloc.Library.Writer
import Lmalloc.Postgres.Table

namespace Lmalloc.Postgres

open Lmalloc.Library Lmalloc.Library.Bytes

def load (data : UInt64 → UInt8) (src : UInt64) (w : ℕ) : List UInt8 :=
  (List.range w).map fun i => data (src + UInt64.ofNat i)

/-- `htobe16`, `htobe32`, `htobe64`, `htons` and `htonl` on a little-endian host. -/
def htobe (w v : ℕ) : ℕ := swap w v

/-- `SdbMemcpy(&Val, From)`, `Val = htobe(Val)`, `SdbMemcpy(To, &Val)`. -/
def writeN (w : ℕ) (data : UInt64 → UInt8) (src : UInt64) : List UInt8 :=
  toLE w (htobe w (ofLE (load data src w)))

def write2 : (UInt64 → UInt8) → UInt64 → List UInt8 := writeN 2
def write4 : (UInt64 → UInt8) → UInt64 → List UInt8 := writeN 4
def write8 : (UInt64 → UInt8) → UInt64 → List UInt8 := writeN 8

def usecsPerSecond : Int64 := 1000000
def usecsPerDay : Int64 := 86400000000
def unixEpochJdate : Int64 := 2440588
def postgresEpochJdate : Int64 := 2451545

def unixToPgTimestamp (unixTime : Int64) : Int64 :=
  unixTime * usecsPerSecond + (unixEpochJdate - postgresEpochJdate) * usecsPerDay

def writeTimestamp (data : UInt64 → UInt8) (src : UInt64) : List UInt8 :=
  let uTime := (UInt64.ofNat (ofLE (load data src 8))).toInt64
  toLE 8 (htobe 8 (unixToPgTimestamp uTime).toUInt64.toNat)

/-- The body of the loop over the columns; `put` is a copy to
    `NtwrkConvBuf + ConvOffset` with the addition to `ConvOffset`. -/
def convColumn (data : UInt64 → UInt8) (currRow : UInt64) (buf : Writer UInt8)
    (colMd : PgColMetadata) : Writer UInt8 :=
  if colMd.isAutoIncrement then buf
  else
    let buf := buf.put (toLE 4 (htobe 4 colMd.typeLength.toUInt32.toNat))
    let colData := currRow + colMd.offset.toInt64.toUInt64
    if colMd.typeOid = pgInt8 ∨ colMd.typeOid = pgFloat8 then buf.put (write8 data colData)
    else if colMd.typeOid = pgInt4 ∨ colMd.typeOid = pgFloat4 then buf.put (write4 data colData)
    else if colMd.typeOid = pgInt2 then buf.put (write2 data colData)
    else if colMd.typeOid = pgTimestamp then buf.put (writeTimestamp data colData)
    else buf   -- only a warning

def convRow (ti : PgTableInfo) (data : UInt64 → UInt8) (buf : Writer UInt8)
    (rowsProcessed : UInt64) : Writer UInt8 :=
  let currRow := rowsProcessed * ti.rowSize
  let buf := buf.put (toLE 2 (htobe 2 ti.colCountNoAutoIncrements.toUInt16.toNat))
  ti.columns.foldl (convColumn data currRow) buf

/-- The loop over the rows, on the buffer as it was allocated: zeroed. -/
def convRows (ti : PgTableInfo) (data : UInt64 → UInt8) (itemCount : UInt64) : Writer UInt8 :=
  (List.range itemCount.toNat).foldl (fun buf r => convRow ti data buf (UInt64.ofNat r))
    (Writer.start fun _ => 0)

/-- `NtwrkConvBufSize`, computed in `size_t`. -/
def ntwrkConvBufSize (ti : PgTableInfo) (itemCount : UInt64) : UInt64 :=
  let pgHeaderSize := 2 + itemCount * 4
  pgHeaderSize + itemCount * ti.rowSize

/-! ### What the loop writes -/

/-- The number of bytes the `switch` copies for a type. -/
def copyWidth (oid : UInt32) : ℕ :=
  if oid = pgInt8 ∨ oid = pgFloat8 then 8
  else if oid = pgInt4 ∨ oid = pgFloat4 then 4
  else if oid = pgInt2 then 2
  else if oid = pgTimestamp then 8
  else 0

/-- The value a column's field stands for: the one in memory, for a time that
    one on the database's scale. -/
def columnValue (data : UInt64 → UInt8) (src : UInt64) (oid : UInt32) : ℕ :=
  if oid = pgTimestamp then
    (unixToPgTimestamp (UInt64.ofNat (ofLE (load data src 8))).toInt64).toUInt64.toNat
  else ofLE (load data src (copyWidth oid))

def fieldPieces (data : UInt64 → UInt8) (currRow : UInt64) (col : PgColMetadata) :
    List (List UInt8) :=
  toBE 4 col.typeLength.toUInt32.toNat ::
    if copyWidth col.typeOid = 0 then []
    else [toBE (copyWidth col.typeOid)
      (columnValue data (currRow + col.offset.toInt64.toUInt64) col.typeOid)]

def rowPieces (ti : PgTableInfo) (data : UInt64 → UInt8) (r : ℕ) : List (List UInt8) :=
  toBE 2 ti.colCountNoAutoIncrements.toUInt16.toNat ::
    ti.dataColumns.flatMap (fieldPieces data (UInt64.ofNat r * ti.rowSize))

def encodeRows (ti : PgTableInfo) (data : UInt64 → UInt8) (n : ℕ) : List UInt8 :=
  ((List.range n).flatMap (rowPieces ti data)).flatten

/-- The width of some columns next to each other. -/
def rowBytes (cols : List PgColMetadata) : ℕ := (cols.map fun col => copyWidth col.typeOid).sum

def encodedRowSize (ti : PgTableInfo) : ℕ :=
  2 + (ti.dataColumns.map fun col => 4 + copyWidth col.typeOid).sum

@[simp] theorem length_load (data : UInt64 → UInt8) (src : UInt64) (w : ℕ) :
    (load data src w).length = w := by simp [load]

theorem writeN_eq (w : ℕ) (data : UInt64 → UInt8) (src : UInt64) :
    writeN w data src = toBE w (ofLE (load data src w)) := by
  rw [writeN, htobe, toLE_swap]

/-- The `switch` on the type writes the column's value in the type's width. -/
theorem convColumn_eq {data : UInt64 → UInt8} {currRow : UInt64} {buf : Writer UInt8}
    {col : PgColMetadata} (h : col.isAutoIncrement = false) :
    convColumn data currRow buf col = buf.puts (fieldPieces data currRow col) := by
  unfold convColumn fieldPieces columnValue copyWidth
  rw [if_neg (by simp [h]), htobe, toLE_swap]
  by_cases h8 : col.typeOid = pgInt8 ∨ col.typeOid = pgFloat8
  · have ht : col.typeOid ≠ pgTimestamp := by
      rcases h8 with h8 | h8 <;> rw [h8] <;> decide
    simp only [if_pos h8, if_neg ht, write8, writeN_eq]
    rfl
  · by_cases h4 : col.typeOid = pgInt4 ∨ col.typeOid = pgFloat4
    · have ht : col.typeOid ≠ pgTimestamp := by
        rcases h4 with h4 | h4 <;> rw [h4] <;> decide
      simp only [if_neg h8, if_pos h4, if_neg ht, write4, writeN_eq]
      rfl
    · by_cases h2 : col.typeOid = pgInt2
      · have ht : col.typeOid ≠ pgTimestamp := by
          rw [h2]
          decide
        simp only [if_neg h8, if_neg h4, if_pos h2, if_neg ht, write2, writeN_eq]
        rfl
      · by_cases ht : col.typeOid = pgTimestamp
        · simp only [if_neg h8, if_neg h4, if_neg h2, if_pos ht, writeTimestamp, htobe, toLE_swap]
          rfl
        · simp only [if_neg h8, if_neg h4, if_neg h2, if_neg ht]
          rfl

theorem foldl_convColumn (data : UInt64 → UInt8) (currRow : UInt64) (buf : Writer UInt8)
    (cols : List PgColMetadata) :
    cols.foldl (convColumn data currRow) buf =
      buf.puts ((cols.filter (! ·.isAutoIncrement)).flatMap (fieldPieces data currRow)) := by
  induction cols generalizing buf with
  | nil => rfl
  | cons col cols ih =>
      rw [List.foldl_cons, ih]
      by_cases h : col.isAutoIncrement = true
      · rw [convColumn, if_pos h, List.filter_cons_of_neg (by simp [h])]
      · rw [Bool.not_eq_true] at h
        rw [convColumn_eq h, List.filter_cons_of_pos (by simp [h]), List.flatMap_cons,
          Writer.puts_append]

theorem convRow_eq (ti : PgTableInfo) (data : UInt64 → UInt8) (buf : Writer UInt8) (r : ℕ) :
    convRow ti data buf (UInt64.ofNat r) = buf.puts (rowPieces ti data r) := by
  unfold convRow rowPieces
  rw [foldl_convColumn, htobe, toLE_swap]
  rfl

theorem convRows_eq (ti : PgTableInfo) (data : UInt64 → UInt8) (itemCount : UInt64) :
    convRows ti data itemCount = (Writer.start fun _ => 0).puts
      ((List.range itemCount.toNat).flatMap (rowPieces ti data)) := by
  unfold convRows
  simp only [convRow_eq]
  exact Writer.foldl_puts _ _ _

theorem flatten_fieldPieces (data : UInt64 → UInt8) (currRow : UInt64) (col : PgColMetadata) :
    (fieldPieces data currRow col).flatten =
      toBE 4 col.typeLength.toUInt32.toNat ++ toBE (copyWidth col.typeOid)
        (columnValue data (currRow + col.offset.toInt64.toUInt64) col.typeOid) := by
  unfold fieldPieces
  split
  · rename_i hzero
    rw [hzero]
    simp [toBE, toLE]
  · simp

theorem length_rowPieces (ti : PgTableInfo) (data : UInt64 → UInt8) (r : ℕ) :
    (rowPieces ti data r).flatten.length = encodedRowSize ti := by
  unfold rowPieces encodedRowSize
  rw [List.flatten_cons, List.length_append, length_toBE]
  congr 1
  induction ti.dataColumns with
  | nil => rfl
  | cons col cols ih =>
      rw [List.flatMap_cons, List.flatten_append, List.length_append, ih, flatten_fieldPieces,
        List.length_append, length_toBE, length_toBE, List.map_cons, List.sum_cons]

theorem copyWidth_le (oid : UInt32) : copyWidth oid ≤ 8 := by
  unfold copyWidth
  split_ifs <;> decide

@[simp] theorem rowBytes_nil : rowBytes [] = 0 := rfl

theorem rowBytes_append (xs ys : List PgColMetadata) :
    rowBytes (xs ++ ys) = rowBytes xs + rowBytes ys := by
  simp [rowBytes]

theorem rowBytes_singleton (col : PgColMetadata) : rowBytes [col] = copyWidth col.typeOid := by
  simp [rowBytes]

theorem rowBytes_le (cols : List PgColMetadata) : rowBytes cols ≤ 8 * cols.length := by
  have hsum := List.sum_le_card_nsmul (cols.map fun col => copyWidth col.typeOid) 8
  rw [List.length_map, smul_eq_mul, Nat.mul_comm] at hsum
  apply hsum
  intro w hw
  obtain ⟨col, -, rfl⟩ := List.mem_map.mp hw
  exact copyWidth_le col.typeOid

/-- A row takes a field count, a length for each column, and its values. -/
theorem encodedRowSize_eq (ti : PgTableInfo) :
    encodedRowSize ti = 2 + 4 * ti.dataColumns.length + rowBytes ti.dataColumns := by
  unfold encodedRowSize rowBytes
  induction ti.dataColumns with
  | nil => rfl
  | cons col cols ih =>
      simp only [List.map_cons, List.sum_cons, List.length_cons]
      omega

theorem encodeRows_succ (ti : PgTableInfo) (data : UInt64 → UInt8) (n : ℕ) :
    encodeRows ti data (n + 1) = encodeRows ti data n ++ (rowPieces ti data n).flatten := by
  simp [encodeRows, List.range_succ]

theorem length_encodeRows (ti : PgTableInfo) (data : UInt64 → UInt8) (n : ℕ) :
    (encodeRows ti data n).length = n * encodedRowSize ti := by
  induction n with
  | zero => simp [encodeRows]
  | succ n ih =>
      rw [encodeRows_succ, List.length_append, ih, length_rowPieces]
      ring

end Lmalloc.Postgres
