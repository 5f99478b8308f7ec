/-
  Lmalloc/Postgres/ConvBuffer.lean
  ================================
  **The size of the network conversion buffer.**

  `PgHeaderSize` counts one field count for the whole block and one length for
  each row.  The loop writes a field count for each row and a length for each
  field of each row, so the buffer suffices for an empty block, for one row of one
  column, and for rows without columns (`staysInBuffer_iff`).
-/
import Lmalloc.Postgres.Encode

namespace Lmalloc.Postgres

open Lmalloc.Library

/-- The announced lengths are the widths written, and the row size is their sum. -/
structure PgTableInfo.Consistent (ti : PgTableInfo) : Prop where
  width : ∀ col ∈ ti.dataColumns, col.typeLength.toInt = copyWidth col.typeOid
  rowSize : (ti.rowSize.toNat : ℤ) = (ti.dataColumns.map (·.typeLength.toInt)).sum

/-- No copy of the loop goes past the buffer, and the final `ConvOffset` is inside it. -/
def StaysInBuffer (ti : PgTableInfo) (data : UInt64 → UInt8) (itemCount : UInt64) : Prop :=
  (convRows ti data itemCount).Within (ntwrkConvBufSize ti itemCount).toNat ∧
    (convRows ti data itemCount).pos ≤ ntwrkConvBufSize ti itemCount

/-- The blocks the computed size is enough for. -/
def SizeSuffices (ti : PgTableInfo) (itemCount : UInt64) : Prop :=
  itemCount.toNat = 0 ∨
    (ti.dataColumns.length = 1 ∧ itemCount.toNat = 1) ∨
    (ti.dataColumns.length = 0 ∧ (itemCount.toNat < 2 ^ 62 ∨ itemCount.toNat = 2 ^ 63 - 1))

theorem staysInBuffer_iff_le (ti : PgTableInfo) (data : UInt64 → UInt8) (itemCount : UInt64) :
    StaysInBuffer ti data itemCount ↔
      itemCount.toNat * encodedRowSize ti ≤ (ntwrkConvBufSize ti itemCount).toNat := by
  have hsize := (ntwrkConvBufSize ti itemCount).toNat_lt
  have hlen := length_encodeRows ti data itemCount.toNat
  unfold encodeRows at hlen
  unfold StaysInBuffer
  rw [convRows_eq, Writer.within_puts_iff hsize, hlen]
  constructor
  · exact fun h => h.1
  · intro hfit
    refine ⟨hfit, ?_⟩
    rw [UInt64.le_iff_toNat_le, (Writer.holds_start_puts (by omega)).pos, hlen]
    exact hfit

theorem rowBytes_cast (cols : List PgColMetadata) :
    (cols.map fun col => (copyWidth col.typeOid : ℤ)).sum = (rowBytes cols : ℤ) := by
  rw [rowBytes, Nat.cast_list_sum, List.map_map]
  rfl

theorem PgTableInfo.Consistent.toNat_rowSize {ti : PgTableInfo} (h : ti.Consistent) :
    ti.rowSize.toNat = rowBytes ti.dataColumns := by
  have hsum := h.rowSize
  rw [List.map_congr_left h.width, rowBytes_cast] at hsum
  exact_mod_cast hsum

theorem toNat_ntwrkConvBufSize (ti : PgTableInfo) (itemCount : UInt64) :
    (ntwrkConvBufSize ti itemCount).toNat =
      (2 + 4 * itemCount.toNat + itemCount.toNat * ti.rowSize.toNat) % 2 ^ 64 := by
  simp only [ntwrkConvBufSize, UInt64.toNat_add, UInt64.toNat_mul]
  have htwo : (2 : UInt64).toNat = 2 := rfl
  have hfour : (4 : UInt64).toNat = 4 := rfl
  rw [htwo, hfour]
  simp only [Nat.add_mod_mod, Nat.mod_add_mod]
  rw [Nat.mul_comm itemCount.toNat 4]

/-- With more than one column, or one column and more than one row, the lengths of
    the fields alone do not fit. -/
theorem rows_le_of_fits {n k R size : ℕ} (hk : 1 ≤ k) (hsize : size ≤ 2 + 4 * n + n * R)
    (hfit : n * (2 + 4 * k + R) ≤ size) : n = 0 ∨ k = 1 ∧ n = 1 := by
  have hsplit : n * (2 + 4 * k + R) = 2 * n + 4 * (n * k) + n * R := by ring
  have hheaders : 4 * (n * k) ≤ 2 + 2 * n := by omega
  have hnk : n ≤ n * k := Nat.le_mul_of_pos_right n hk
  have hn : n ≤ 1 := by omega
  interval_cases n
  · exact Or.inl rfl
  · right
    omega

/-- Field counts alone, against a size that may have wrapped. -/
theorem counts_le_mod {n : ℕ} (hn : n < 2 ^ 64) : n * 2 ≤ (2 + 4 * n) % 2 ^ 64 ↔
    n < 2 ^ 62 ∨ n = 2 ^ 63 - 1 := by
  have hdiv := Nat.div_add_mod (2 + 4 * n) (2 ^ 64)
  have hmod := Nat.mod_lt (2 + 4 * n) (show 0 < 2 ^ 64 by decide)
  have hwraps : (2 + 4 * n) / 2 ^ 64 ≤ 3 := by omega
  generalize (2 + 4 * n) / 2 ^ 64 = wraps at hdiv hwraps
  generalize (2 + 4 * n) % 2 ^ 64 = size at hdiv hmod ⊢
  interval_cases wraps <;> omega

/-- The loop stays inside the buffer exactly for the blocks the size was computed
    for: none, one row of one column, or rows without columns. -/
theorem staysInBuffer_iff (ti : PgTableInfo) (data : UInt64 → UInt8) (itemCount : UInt64)
    (h : ti.Consistent) : StaysInBuffer ti data itemCount ↔ SizeSuffices ti itemCount := by
  have hrow := rowBytes_le ti.dataColumns
  have hn := itemCount.toNat_lt
  rw [staysInBuffer_iff_le, encodedRowSize_eq, toNat_ntwrkConvBufSize, h.toNat_rowSize]
  unfold SizeSuffices
  generalize itemCount.toNat = n at hn ⊢
  generalize rowBytes ti.dataColumns = R at hrow ⊢
  generalize ti.dataColumns.length = k at hrow ⊢
  rcases Nat.eq_zero_or_pos k with rfl | hk
  · -- rows without columns: only the wrapping of the size matters
    obtain rfl : R = 0 := by omega
    rw [Nat.mul_zero, Nat.add_zero, Nat.mul_zero, Nat.add_zero, counts_le_mod hn]
    omega
  · constructor
    · intro hfit
      rcases rows_le_of_fits hk (Nat.mod_le _ _) hfit with hzero | ⟨hone, hrow⟩
      · exact Or.inl hzero
      · exact Or.inr (Or.inl ⟨hone, hrow⟩)
    · rintro (rfl | ⟨rfl, rfl⟩ | ⟨rfl, -⟩)
      · rw [Nat.zero_mul]
        exact Nat.zero_le _
      · rw [Nat.mod_eq_of_lt (by omega)]
        omega
      · exact absurd hk (Nat.lt_irrefl 0)

/-- A table with one `INT4` column besides its serial key. -/
def oneInt4Columns : List PgColMetadata :=
  [⟨pgInt4, 4, -1, -1, ['i', 'd'], true, true⟩, ⟨pgInt4, 4, 0, -1, ['a'], false, false⟩]

def oneInt4 : PgTableInfo where
  colCount := 2
  colCountNoAutoIncrements := 1
  rowSize := 4
  tableName := ['t']
  copyCommand := copyCommand ['t'] oneInt4Columns
  colMetadata := oneInt4Columns
  colCount_le := by decide

theorem oneInt4_consistent : oneInt4.Consistent := ⟨by decide, by decide⟩

theorem staysInBuffer_oneInt4 : StaysInBuffer oneInt4 (fun _ => 0) 1 ↔ SizeSuffices oneInt4 1 :=
  staysInBuffer_iff oneInt4 (fun _ => 0) 1 oneInt4_consistent

/-- Two rows of one `INT4` column take 20 bytes; the buffer has 18. -/
theorem two_rows_overrun : ¬ ∀ (ti : PgTableInfo) (data : UInt64 → UInt8) (itemCount : UInt64),
    ti.Consistent → StaysInBuffer ti data itemCount := by
  intro h
  have hstays := h oneInt4 (fun _ => 0) 2 oneInt4_consistent
  rw [staysInBuffer_iff_le] at hstays
  exact absurd hstays (by decide)

end Lmalloc.Postgres
