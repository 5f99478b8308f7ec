/-
  Lmalloc/Postgres/AnySchema.lean
  ===============================
  **Which schemas are laid out and sent soundly, and which are rejected.**

  A catalog may name any types.  The table info takes the length of each column
  from the catalog, while the conversion loop writes what its `switch` on the type
  knows and only warns about the rest: the length of such a field is announced and
  nothing follows it.  A type of variable length has the length -1 or -2, which goes
  into the offsets and the row size as it is.  Nothing on the way rejects either.
-/
import Lmalloc.Library.Tiling
import Lmalloc.Postgres.RoundTrip

namespace Lmalloc.Postgres

open Lmalloc.Library Lmalloc.Library.Bytes

/-- What the server's catalog says of a table: it has at most 1600 columns, a length
    is -1, -2 or that of a fixed-size type, and the types of the loop have their own. -/
structure CatalogAnswer (rows : List CatalogRow) : Prop where
  length_le : rows.length ≤ 1600
  typeLength : ∀ row ∈ rows, (atoi row.typeLength).toInt = -1 ∨
    (atoi row.typeLength).toInt = -2 ∨
    0 < (atoi row.typeLength).toInt ∧ (atoi row.typeLength).toInt ≤ 32767
  width : ∀ row ∈ rows, copyWidth (atoi row.typeOid).toUInt32 ≠ 0 →
    (atoi row.typeLength).toInt = copyWidth (atoi row.typeOid).toUInt32

/-- The bytes `[Offset, Offset + TypeLength)` of a row. -/
def PgColMetadata.byteRange (col : PgColMetadata) : ℤ × ℤ :=
  (col.offset.toInt, col.typeLength.toInt)

def PgTableInfo.Tiled (ti : PgTableInfo) : Prop :=
  Tiles (ti.rowSize.toNat : ℤ) (ti.dataColumns.map PgColMetadata.byteRange)

/-- A field is as its column was announced: NULL, or of the announced length. -/
def AsAnnounced (col : PgColMetadata) (field : CopyFormat.Field) : Prop :=
  if col.typeLength = -1 then field = none
  else ∃ bytes, field = some bytes ∧ (bytes.length : ℤ) = col.typeLength.toInt

def PgEvent.isAcceptedPut : PgEvent → Bool
  | .putCopyData _ ret => ret = 1
  | _ => false

/-- An error came back, and nothing but the COPY header was accepted before it. -/
def FailsBeforeRows (r : Int32 × List PgEvent) : Prop :=
  r.1 ≠ 0 ∧ r.2.countP PgEvent.isAcceptedPut ≤ 1

/-- What was sent decodes as the tuples of the block. -/
def DecodesAs (ti : PgTableInfo) (itemCount : UInt64) (calls : List PgEvent) : Prop :=
  ∃ tuples, CopyFormat.decode (accepted calls) = some tuples ∧
    tuples.length = itemCount.toNat ∧
    ∀ tuple ∈ tuples, List.Forall₂ AsAnnounced ti.dataColumns tuple

/-- The schema is laid out and the block encoded soundly, or one of them rejected. -/
def SoundOrRejected (tableName : Text) (q : MetadataQuery) (data : UInt64 → UInt8)
    (itemCount : UInt64) (o : Outcomes) : Prop :=
  ∀ ti, pgPrepareTable tableName q = some ti →
    FailsBeforeRows (pgInsertData ti data itemCount o) ∨
      ti.Tiled ∧ DecodesAs ti itemCount (pgInsertData ti data itemCount o).2

/-! ### The condition -/

/-- `PgPrepareCtx` gives up on the table. -/
def MetadataQuery.Rejected (q : MetadataQuery) : Prop :=
  q.status ≠ .tuplesOk ∨ q.arenaOk = false ∨ q.rows = []

/-- A call on the way to the rows fails; without room for the conversion buffer, one
    of those that end the COPY does. -/
def Outcomes.FailsFirst (o : Outcomes) : Prop :=
  o.beginStatus ≠ .commandOk ∨ o.copyStatus ≠ .copyIn ∨ o.headerRet ≠ 1 ∨
    (o.scratchOk = true ∧ o.rowsRet ≠ 1) ∨
    (o.scratchOk = false ∧
      (o.endRet ≠ 1 ∨ o.resultStatus ≠ .commandOk ∨ o.finalStatus ≠ .commandOk))

def FixedLengths (rows : List CatalogRow) : Prop :=
  ∀ row ∈ rows, isTrue row.isAutoIncrement = false → 0 < (atoi row.typeLength).toInt

def TypesKnown (rows : List CatalogRow) : Prop :=
  ∀ row ∈ rows, isTrue row.isAutoIncrement = false →
    ((atoi row.typeOid).toUInt32, atoi row.typeLength) ∈ supportedTypes

/-- The bytes one row takes in the COPY data. -/
def copyRowSize (rows : List CatalogRow) : ℕ :=
  2 + ((rows.filter (! isTrue ·.isAutoIncrement)).map
    fun row => 4 + copyWidth (atoi row.typeOid).toUInt32).sum

/-- All columns in the data have a fixed length; and unless the block is empty, there
    is room for the conversion buffer, the loop knows their types, and the rows'
    bytes are counted by an `int`. -/
def Encodes (rows : List CatalogRow) (itemCount : UInt64) (o : Outcomes) : Prop :=
  FixedLengths rows ∧ (itemCount.toNat = 0 ∨
    o.scratchOk = true ∧ TypesKnown rows ∧ itemCount.toNat * copyRowSize rows < 2 ^ 31)

/-! ### The layout -/

namespace Layout

/-- The columns so far tile the bytes up to the running offset, which is also the
    row size. -/
structure Spread (s : Layout) : Prop where
  tiles : Tiles s.offset.toInt (s.dataColumns.map PgColMetadata.byteRange)
  rowSize : (s.rowSize.toNat : ℤ) = s.offset.toInt
  offset_le : s.offset.toInt ≤ 32767 * s.dataColumns.length

theorem spread_start : Spread ⟨0, 0, 0, []⟩ := ⟨Tiles.nil, rfl, le_refl _⟩

theorem Spread.addColumn {s : Layout} (h : s.Spread) {row : CatalogRow}
    (hrow : isTrue row.isAutoIncrement = false →
      0 < (atoi row.typeLength).toInt ∧ (atoi row.typeLength).toInt ≤ 32767)
    (hlen : s.dataColumns.length < 1600) : (s.addColumn row).Spread := by
  cases hauto : isTrue row.isAutoIncrement with
  | true =>
      have hcols := dataColumns_addColumn_of_auto s hauto
      have hstep := addColumn_of_auto s hauto
      constructor
      · rw [hcols, hstep]
        exact h.tiles
      · rw [hstep]
        exact h.rowSize
      · rw [hcols, hstep]
        exact h.offset_le
  | false =>
      have hcols := dataColumns_addColumn_of_data s hauto
      have hstep := addColumn_of_data s hauto
      obtain ⟨hpos, hle⟩ := hrow hauto
      have hnonneg := h.tiles.total_nonneg
      have hbound := h.offset_le
      have hsize := h.rowSize
      have hoffset : (s.offset + atoi row.typeLength).toInt =
          s.offset.toInt + (atoi row.typeLength).toInt := by
        rw [Int32.toInt_add, Int.bmod_eq_of_le (by omega) (by omega)]
      have hcast : (atoi row.typeLength).toInt64.toUInt64.toNat =
          (atoi row.typeLength).toInt.toNat := Word.toNat_toUInt64_of_nonneg (le_of_lt hpos)
      constructor
      · rw [hcols, hstep, List.map_append]
        change Tiles (s.offset + atoi row.typeLength).toInt
          (_ ++ [(s.offset.toInt, (atoi row.typeLength).toInt)])
        rw [hoffset]
        exact h.tiles.append hpos
      · rw [hstep]
        change ((s.rowSize + (atoi row.typeLength).toInt64.toUInt64).toNat : ℤ) =
          (s.offset + atoi row.typeLength).toInt
        rw [hoffset, Word.toNat_add_of_lt (by omega), hcast]
        omega
      · rw [hcols, List.length_append, List.length_singleton, hstep]
        change (s.offset + atoi row.typeLength).toInt ≤ _
        rw [hoffset]
        push_cast
        omega

theorem Spread.foldl {s : Layout} (h : s.Spread) {rows : List CatalogRow}
    (hrows : ∀ row ∈ rows, isTrue row.isAutoIncrement = false →
      0 < (atoi row.typeLength).toInt ∧ (atoi row.typeLength).toInt ≤ 32767)
    (hlen : s.dataColumns.length + rows.length ≤ 1600) :
    (rows.foldl Layout.addColumn s).Spread := by
  induction rows generalizing s with
  | nil => exact h
  | cons row rows ih =>
      rw [List.length_cons] at hlen
      rw [List.foldl_cons]
      apply ih (h.addColumn (hrows row List.mem_cons_self) (by omega))
      · exact fun r hr => hrows r (List.mem_cons_of_mem row hr)
      · rw [dataColumns_addColumn, List.length_append]
        split <;> simp <;> omega

end Layout

theorem type_of_described {row : CatalogRow} {col : PgColMetadata}
    (h : row.described = col.described) :
    col.typeOid = (atoi row.typeOid).toUInt32 ∧ col.typeLength = atoi row.typeLength := by
  rw [CatalogRow.described, PgColMetadata.described, Prod.mk.injEq, Prod.mk.injEq] at h
  obtain ⟨-, hoid, hlength⟩ := h
  exact ⟨hoid.symm, hlength.symm⟩

theorem mem_dataColumns_layoutOf {rows : List CatalogRow} {col : PgColMetadata}
    (h : col ∈ (layoutOf rows).dataColumns) : ∃ row ∈ rows,
      isTrue row.isAutoIncrement = false ∧ col.typeOid = (atoi row.typeOid).toUInt32 ∧
        col.typeLength = atoi row.typeLength := by
  have hmem := List.mem_map_of_mem (f := PgColMetadata.described) h
  rw [described_layoutOf] at hmem
  obtain ⟨row, hrow, hsame⟩ := List.mem_map.mp hmem
  obtain ⟨hin, hauto⟩ := List.mem_filter.mp hrow
  exact ⟨row, hin, by simpa using hauto, type_of_described hsame⟩

theorem exists_dataColumn {rows : List CatalogRow} {row : CatalogRow} (h : row ∈ rows)
    (hauto : isTrue row.isAutoIncrement = false) : ∃ col ∈ (layoutOf rows).dataColumns,
      col.typeOid = (atoi row.typeOid).toUInt32 ∧ col.typeLength = atoi row.typeLength := by
  have hmem : row.described ∈ (rows.filter (! isTrue ·.isAutoIncrement)).map
      CatalogRow.described := by
    apply List.mem_map_of_mem
    rw [List.mem_filter, hauto]
    exact ⟨h, rfl⟩
  rw [← described_layoutOf] at hmem
  obtain ⟨col, hcol, hsame⟩ := List.mem_map.mp hmem
  exact ⟨col, hcol, type_of_described hsame.symm⟩

namespace PgTableInfo.FromLayout

variable {ti : PgTableInfo} {tableName : Text} {rows : List CatalogRow}

/-- The columns tile a row exactly if none has a length from -1 down. -/
theorem tiled_iff (h : ti.FromLayout tableName (layoutOf rows)) (hcat : CatalogAnswer rows) :
    ti.Tiled ↔ FixedLengths rows := by
  unfold PgTableInfo.Tiled
  rw [h.dataColumns, h.rowSize]
  constructor
  · intro htiles row hrow hauto
    obtain ⟨col, hcol, -, hlength⟩ := exists_dataColumn hrow hauto
    rw [← hlength]
    exact htiles.positive _ (List.mem_map_of_mem hcol)
  · intro hfixed
    have hspread : (layoutOf rows).Spread := by
      apply Layout.spread_start.foldl
      · intro row hrow hauto
        have hpos := hfixed row hrow hauto
        rcases hcat.typeLength row hrow with hvar | hcstring | hlength
        · omega
        · omega
        · exact hlength
      · simpa [Layout.dataColumns] using hcat.length_le
    rw [hspread.rowSize]
    exact hspread.tiles

theorem encodedRowSize_eq (h : ti.FromLayout tableName (layoutOf rows)) :
    encodedRowSize ti = copyRowSize rows := by
  have hsame := congrArg (List.map fun d : Text × UInt32 × Int32 => 4 + copyWidth d.2.1)
    (described_layoutOf rows)
  rw [List.map_map, List.map_map] at hsame
  unfold encodedRowSize copyRowSize
  rw [h.dataColumns]
  exact congrArg (fun widths : List ℕ => 2 + widths.sum) hsame

end PgTableInfo.FromLayout

/-- A type and the length it comes with are known to the loop if it copies that
    many bytes, and any. -/
theorem supported_of_copyWidth {oid : UInt32} {len : Int32}
    (hlen : len.toInt = copyWidth oid) (hpos : 0 < copyWidth oid) :
    (oid, len) ∈ supportedTypes := by
  have hle := copyWidth_le oid
  obtain rfl : len = Int32.ofNat (copyWidth oid) := by
    apply Int32.toInt_inj.mp
    rw [hlen, Int32.toInt_ofNat_of_lt (by omega)]
  unfold copyWidth at hpos ⊢
  split_ifs at hpos ⊢ with h8 h4 h2 ht
  · rcases h8 with rfl | rfl <;> decide
  · rcases h4 with rfl | rfl <;> decide
  · rw [h2]
    decide
  · rw [ht]
    decide
  · exact absurd hpos (Nat.lt_irrefl 0)

/-! ### The bytes -/

theorem length_of_asAnnounced {col : PgColMetadata} {field : CopyFormat.Field}
    (h : AsAnnounced col field) (hpos : 0 < col.typeLength.toInt) :
    4 + col.typeLength.toInt.toNat = CopyFormat.fieldSize field := by
  unfold AsAnnounced at h
  split at h
  · rename_i hnull
    rw [hnull] at hpos
    exact absurd hpos (by decide)
  · obtain ⟨bytes, rfl, hlen⟩ := h
    rw [CopyFormat.fieldSize, Option.getD_some, ← hlen, Int.toNat_natCast]

/-- A tuple as announced takes the bytes its columns' lengths add up to. -/
theorem tupleSize_of_asAnnounced {cols : List PgColMetadata} {tuple : CopyFormat.Tuple}
    (h : List.Forall₂ AsAnnounced cols tuple) (hpos : ∀ col ∈ cols, 0 < col.typeLength.toInt) :
    CopyFormat.tupleSize tuple =
      2 + (cols.map fun col => 4 + col.typeLength.toInt.toNat).sum := by
  unfold CopyFormat.tupleSize
  congr 1
  induction h with
  | nil => rfl
  | cons hfield hrest ih =>
      rw [List.map_cons, List.map_cons, List.sum_cons, List.sum_cons,
        ih fun col hcol => hpos col (List.mem_cons_of_mem _ hcol),
        length_of_asAnnounced hfield (hpos _ List.mem_cons_self)]

/-- If the loop writes no field past its announced length and yet as much in all, it
    writes each in its announced length. -/
theorem eq_of_sum_le {ι : Type*} {cols : List ι} {f g : ι → ℕ} (hle : ∀ c ∈ cols, f c ≤ g c)
    (hsum : (cols.map g).sum ≤ (cols.map f).sum) : ∀ c ∈ cols, f c = g c := by
  induction cols with
  | nil => exact fun c hc => absurd hc List.not_mem_nil
  | cons c cols ih =>
      have hhead := hle c List.mem_cons_self
      have htail : (cols.map f).sum ≤ (cols.map g).sum :=
        List.sum_le_sum fun d hd => hle d (List.mem_cons_of_mem c hd)
      rw [List.map_cons, List.map_cons, List.sum_cons, List.sum_cons] at hsum
      intro d hd
      rcases List.mem_cons.mp hd with rfl | hin
      · omega
      · exact ih (fun d hd => hle d (List.mem_cons_of_mem c hd)) (by omega) d hin

/-! ### The calls -/

theorem cleanup_ret (o : Outcomes) {ret : Int32} (herr : ret = 0 ∨ ret = pgErr) :
    (cleanup o ret).1 = 0 ↔ ret = 0 ∧ o.endRet = 1 ∧ o.resultStatus = .commandOk ∧
      o.finalStatus = .commandOk := by
  by_cases hwell : ret = 0 ∧ o.endRet = 1 ∧ o.resultStatus = .commandOk
  · obtain ⟨rfl, hend, hresult⟩ := hwell
    rw [cleanup_commit o hend hresult]
    by_cases hfinal : o.finalStatus = .commandOk <;> simp [hend, hresult, hfinal, pgErr_ne_zero]
  · obtain ⟨errormsg, hrollback⟩ := cleanup_rollback o hwell herr
    rw [hrollback]
    apply iff_of_false pgErr_ne_zero
    exact fun h => hwell ⟨h.1, h.2.1, h.2.2.1⟩

section Calls

variable (ti : PgTableInfo) (data : UInt64 → UInt8) (itemCount : UInt64) (o : Outcomes)

theorem countP_pgInsertData (hbegin : o.beginStatus = .commandOk) (hcopy : o.copyStatus = .copyIn) :
    (pgInsertData ti data itemCount o).2.countP PgEvent.isAcceptedPut =
      (sendRows ti data itemCount o).2.countP PgEvent.isAcceptedPut := by
  rw [pgInsertData_copying ti data itemCount o hbegin hcopy]
  simp [List.countP_append, PgEvent.isAcceptedPut, cleanup]

theorem countP_sendRows_le_iff : (sendRows ti data itemCount o).2.countP PgEvent.isAcceptedPut ≤ 1 ↔
    ¬ (o.headerRet = 1 ∧ o.scratchOk = true ∧ o.rowsRet = 1) := by
  unfold sendRows
  by_cases hheader : o.headerRet = 1
  · cases hscratch : o.scratchOk with
    | false => simp [hheader, PgEvent.isAcceptedPut]
    | true =>
        by_cases hrows : o.rowsRet = 1 <;>
          simp [hheader, hrows, PgEvent.isAcceptedPut]
  · simp [hheader, PgEvent.isAcceptedPut]

/-- The function reports an error before any row went out exactly if one of those
    calls fails. -/
theorem failsBeforeRows_iff : FailsBeforeRows (pgInsertData ti data itemCount o) ↔
    o.FailsFirst := by
  unfold FailsBeforeRows Outcomes.FailsFirst
  by_cases hbegin : o.beginStatus = .commandOk
  swap
  · rw [pgInsertData_notBegun ti data itemCount o hbegin]
    simp [hbegin, pgErr_ne_zero, PgEvent.isAcceptedPut]
  by_cases hcopy : o.copyStatus = .copyIn
  swap
  · rw [pgInsertData_refused ti data itemCount o hbegin hcopy]
    simp [hcopy, pgErr_ne_zero, PgEvent.isAcceptedPut]
  rw [countP_pgInsertData ti data itemCount o hbegin hcopy, countP_sendRows_le_iff,
    pgInsertData_copying ti data itemCount o hbegin hcopy, ne_eq,
    cleanup_ret o (sendRows_ret_cases ti data itemCount o), sendRows_ret]
  cases hscratch : o.scratchOk with
  | false => simp [hbegin, hcopy]; tauto
  | true => simp [hbegin, hcopy]; tauto

theorem accepted_cleanup (ret : Int32) : accepted (cleanup o ret).2 = [] := by
  simp [cleanup, accepted]

theorem accepted_pgInsertData (hbegin : o.beginStatus = .commandOk)
    (hcopy : o.copyStatus = .copyIn) :
    accepted (pgInsertData ti data itemCount o).2 =
      accepted (sendRows ti data itemCount o).2 := by
  rw [pgInsertData_copying ti data itemCount o hbegin hcopy]
  simp only [accepted, accepted_append, accepted_cleanup, List.append_nil]

end Calls

/-- What a call that does not fail first sends: the header, and the converted rows
    if there was room to convert them. -/
theorem accepted_of_not_failsFirst (ti : PgTableInfo) (data : UInt64 → UInt8)
    (itemCount : UInt64) {o : Outcomes} (h : ¬ o.FailsFirst) :
    accepted (pgInsertData ti data itemCount o).2 =
      copyHeader ++ if o.scratchOk then convertedBytes ti data itemCount else [] := by
  unfold Outcomes.FailsFirst at h
  push Not at h
  obtain ⟨hbegin, hcopy, hheader, hrows, -⟩ := h
  rw [accepted_pgInsertData ti data itemCount o hbegin hcopy, sendRows,
    if_neg (not_not.mpr hheader)]
  cases hscratch : o.scratchOk with
  | false => simp [accepted, hheader]
  | true => simp [accepted, hheader, hrows hscratch]

theorem decode_copyHeader (body : List UInt8) :
    CopyFormat.decode (copyHeader ++ body) = CopyFormat.decodeTuples body.length body := by
  rw [CopyFormat.decode, copyHeader_eq, CopyFormat.decodeHeader_plain, Option.bind_some]

/-! ### What the server reads -/

theorem PgTableInfo.Prepared.asAnnounced {ti : PgTableInfo} (h : ti.Prepared)
    (data : UInt64 → UInt8) (r : ℕ) :
    List.Forall₂ AsAnnounced ti.dataColumns ((rowFields ti data r).map some) := by
  unfold rowFields
  rw [List.map_map, List.forall₂_map_right_iff, List.forall₂_same]
  intro col hcol
  obtain ⟨hlen, -, -, hpos⟩ := copyWidth_of_supported (h.supported col hcol)
  have hle := copyWidth_le col.typeOid
  have hwidth : col.typeLength.toInt = copyWidth col.typeOid := by
    rw [hlen, Int32.toInt_ofNat_of_lt (by omega)]
  have hfixed : col.typeLength ≠ -1 := by
    intro hnull
    have hminus : (-1 : Int32).toInt = -1 := rfl
    rw [hnull, hminus] at hwidth
    omega
  unfold AsAnnounced
  rw [if_neg hfixed]
  refine ⟨_, rfl, ?_⟩
  rw [length_toBE, hwidth]

/-- The rows of a prepared table decode as announced. -/
theorem PgTableInfo.Prepared.decodes {ti : PgTableInfo} (h : ti.Prepared)
    (data : UInt64 → UInt8) {itemCount : UInt64}
    (hfits : itemCount.toNat * encodedRowSize ti < 2 ^ 31) :
    ∃ tuples, CopyFormat.decode (copyHeader ++ convertedBytes ti data itemCount) = some tuples ∧
      tuples.length = itemCount.toNat ∧
      ∀ tuple ∈ tuples, List.Forall₂ AsAnnounced ti.dataColumns tuple := by
  refine ⟨((List.range itemCount.toNat).map (rowFields ti data)).map (·.map some), ?_, ?_, ?_⟩
  · rw [convertedBytes_eq hfits, h.encodeRows_eq, copyHeader_eq]
    apply CopyFormat.decode_encode
    intro fields hfields
    obtain ⟨r, -, rfl⟩ := List.mem_map.mp hfields
    exact h.encodable data r
  · rw [List.length_map, List.length_map, List.length_range]
  · intro tuple htuple
    obtain ⟨fields, hfields, rfl⟩ := List.mem_map.mp htuple
    obtain ⟨r, -, rfl⟩ := List.mem_map.mp hfields
    exact h.asAnnounced data r

/-- An empty block is the header alone. -/
theorem decodesAs_of_empty {ti : PgTableInfo} (data : UInt64 → UInt8) {itemCount : UInt64}
    {o : Outcomes} (h : ¬ o.FailsFirst) (hzero : itemCount.toNat = 0) :
    DecodesAs ti itemCount (pgInsertData ti data itemCount o).2 := by
  have hnone : convertedBytes ti data itemCount = [] := by
    rw [convertedBytes_eq (by rw [hzero, Nat.zero_mul]; decide), hzero]
    rfl
  unfold DecodesAs
  rw [accepted_of_not_failsFirst ti data itemCount h, hnone, ite_self, decode_copyHeader]
  exact ⟨[], rfl, hzero.symm, fun _ h => absurd h List.not_mem_nil⟩

namespace PgTableInfo.FromLayout

variable {ti : PgTableInfo} {tableName : Text} {rows : List CatalogRow}

/-- No field is wider than the catalog says its type is. -/
theorem copyWidth_le_typeLength (h : ti.FromLayout tableName (layoutOf rows))
    (hcat : CatalogAnswer rows) (hfixed : FixedLengths rows) :
    ∀ col ∈ ti.dataColumns, copyWidth col.typeOid ≤ col.typeLength.toInt.toNat := by
  intro col hcol
  rw [h.dataColumns] at hcol
  obtain ⟨row, hrow, hauto, hoid, hlength⟩ := mem_dataColumns_layoutOf hcol
  have hpos := hfixed row hrow hauto
  rw [hoid, hlength]
  by_cases hzero : copyWidth (atoi row.typeOid).toUInt32 = 0
  · omega
  · have hwidth := hcat.width row hrow hzero
    omega

/-- If what was sent decodes as announced, the loop wrote every field in full: the
    tuples have at least the bytes that were announced, and at most those that were
    written. -/
theorem known_of_decodes (h : ti.FromLayout tableName (layoutOf rows))
    (hcat : CatalogAnswer rows) (hfixed : FixedLengths rows) {data : UInt64 → UInt8}
    {itemCount : UInt64} (hn : itemCount.toNat ≠ 0) {fuel : ℕ} {tuples : List CopyFormat.Tuple}
    (hdecode : CopyFormat.decodeTuples fuel (convertedBytes ti data itemCount) = some tuples)
    (hlen : tuples.length = itemCount.toNat)
    (hannounced : ∀ tuple ∈ tuples, List.Forall₂ AsAnnounced ti.dataColumns tuple) :
    TypesKnown rows ∧ itemCount.toNat * copyRowSize rows < 2 ^ 31 := by
  have hwidths := h.copyWidth_le_typeLength hcat hfixed
  have hpos : ∀ col ∈ ti.dataColumns, 0 < col.typeLength.toInt := by
    intro col hcol
    rw [h.dataColumns] at hcol
    obtain ⟨row, hrow, hauto, -, hlength⟩ := mem_dataColumns_layoutOf hcol
    rw [hlength]
    exact hfixed row hrow hauto
  have hread : itemCount.toNat *
      (2 + (ti.dataColumns.map fun col => 4 + col.typeLength.toInt.toNat).sum) ≤
        (convertedBytes ti data itemCount).length := by
    have hsum := CopyFormat.sum_tupleSize_le hdecode
    rwa [List.map_congr_left fun tuple htuple =>
      tupleSize_of_asAnnounced (hannounced tuple htuple) hpos, List.map_const', List.sum_replicate,
      smul_eq_mul, hlen] at hsum
  have hwritten : encodedRowSize ti ≤
      2 + (ti.dataColumns.map fun col => 4 + col.typeLength.toInt.toNat).sum := by
    unfold encodedRowSize
    apply Nat.add_le_add_left
    apply List.sum_le_sum
    exact fun col hcol => Nat.add_le_add_left (hwidths col hcol) 4
  have hfits : itemCount.toNat * encodedRowSize ti < 2 ^ 31 := by
    have hmul := Nat.mul_le_mul_left itemCount.toNat hwritten
    have hlt := length_convertedBytes_lt ti data itemCount
    omega
  rw [convertedBytes_eq hfits, length_encodeRows] at hread
  have hsum := Nat.le_of_mul_le_mul_left hread (Nat.pos_of_ne_zero hn)
  have hsame : ∀ col ∈ ti.dataColumns,
      4 + copyWidth col.typeOid = 4 + col.typeLength.toInt.toNat := by
    apply eq_of_sum_le
    · exact fun col hcol => Nat.add_le_add_left (hwidths col hcol) 4
    · unfold encodedRowSize at hsum
      omega
  refine ⟨?_, h.encodedRowSize_eq ▸ hfits⟩
  intro row hrow hauto
  obtain ⟨col, hcol, hoid, hlength⟩ := exists_dataColumn hrow hauto
  rw [← h.dataColumns] at hcol
  have hcopied := hsame col hcol
  have hfull := hpos col hcol
  rw [← hoid, ← hlength]
  apply supported_of_copyWidth <;> omega

theorem decodesAs_iff (h : ti.FromLayout tableName (layoutOf rows)) (hcat : CatalogAnswer rows)
    (hfixed : FixedLengths rows) (data : UInt64 → UInt8) (itemCount : UInt64) {o : Outcomes}
    (ho : ¬ o.FailsFirst) : DecodesAs ti itemCount (pgInsertData ti data itemCount o).2 ↔
      itemCount.toNat = 0 ∨ o.scratchOk = true ∧ TypesKnown rows ∧
        itemCount.toNat * copyRowSize rows < 2 ^ 31 := by
  constructor
  · rintro ⟨tuples, hdecode, hlen, hannounced⟩
    rw [or_iff_not_imp_left]
    intro hn
    rw [accepted_of_not_failsFirst ti data itemCount ho, decode_copyHeader] at hdecode
    cases hscratch : o.scratchOk with
    | false =>
        -- the header alone decodes as no tuples
        rw [hscratch] at hdecode
        cases hdecode
        exact absurd hlen.symm hn
    | true =>
        rw [hscratch, if_pos rfl] at hdecode
        exact ⟨rfl, h.known_of_decodes hcat hfixed hn hdecode hlen hannounced⟩
  · rintro (hzero | ⟨hscratch, hknown, hfits⟩)
    · exact decodesAs_of_empty data ho hzero
    · rw [← h.encodedRowSize_eq] at hfits
      unfold DecodesAs
      rw [accepted_of_not_failsFirst ti data itemCount ho, hscratch, if_pos rfl]
      exact (h.prepared (layoutOf_laidOut hknown) hcat.length_le).decodes data hfits

end PgTableInfo.FromLayout

theorem pgPrepareTable_rejected (tableName : Text) {q : MetadataQuery} (h : q.Rejected) :
    pgPrepareTable tableName q = none := by
  unfold pgPrepareTable
  split
  · rfl
  · rename_i colCount layout hresult
    have hquery := hresult
    unfold getTableMetadata at hquery
    split_ifs at hquery with hstatus harena
    obtain ⟨hcount, -⟩ := Prod.mk.inj (Option.some.inj hquery)
    have hnil : q.rows = [] := by
      rcases h with h | h | h
      · exact absurd h hstatus
      · exact absurd h harena
      · exact h
    apply if_pos
    rw [← hcount, hnil]
    rfl

/-- A schema is laid out and a block encoded soundly, or one of them rejected,
    exactly if something fails before the rows, or all columns have fixed lengths and,
    unless the block is empty, types the loop knows. -/
theorem soundOrRejected_iff (tableName : Text) (q : MetadataQuery) (data : UInt64 → UInt8)
    (itemCount : UInt64) (o : Outcomes) (hcat : CatalogAnswer q.rows) :
    SoundOrRejected tableName q data itemCount o ↔
      q.Rejected ∨ o.FailsFirst ∨ Encodes q.rows itemCount o := by
  by_cases hrejected : q.Rejected
  · apply iff_of_true _ (Or.inl hrejected)
    intro ti hti
    rw [pgPrepareTable_rejected tableName hrejected] at hti
    exact absurd hti nofun
  · have hq := hrejected
    unfold MetadataQuery.Rejected at hq
    push Not at hq
    obtain ⟨hstatus, harena, hne⟩ := hq
    obtain ⟨ti, hti, hlayout⟩ :=
      pgPrepareTable_eq tableName hstatus (by simpa using harena) hne hcat.length_le
    have honly : SoundOrRejected tableName q data itemCount o ↔
        o.FailsFirst ∨ ti.Tiled ∧ DecodesAs ti itemCount (pgInsertData ti data itemCount o).2 := by
      unfold SoundOrRejected
      rw [hti]
      simp [failsBeforeRows_iff]
    rw [honly, or_iff_right hrejected]
    apply or_congr_right'
    intro ho
    rw [hlayout.tiled_iff hcat]
    apply and_congr_right
    intro hfixed
    exact hlayout.decodesAs_iff hcat hfixed data itemCount ho

theorem catalogAnswer_oneInt4Query : CatalogAnswer oneInt4Query.rows :=
  ⟨by decide, by decide, by decide⟩

theorem soundOrRejected_oneInt4 : SoundOrRejected ['t'] oneInt4Query (fun _ => 0) 1
      { noScratch with scratchOk := true } ↔
    oneInt4Query.Rejected ∨ Outcomes.FailsFirst { noScratch with scratchOk := true } ∨
      Encodes oneInt4Query.rows 1 { noScratch with scratchOk := true } :=
  soundOrRejected_iff ['t'] oneInt4Query (fun _ => 0) 1 { noScratch with scratchOk := true }
    catalogAnswer_oneInt4Query

/-- The catalog of a table with a serial key and one `DATE` column, of oid 1082. -/
def oneDateQuery : MetadataQuery where
  status := .tuplesOk
  rows := [⟨['i', 'd'], ['2', '3'], ['4'], ['-', '1'], ['t'], ['t']⟩,
    ⟨['d'], ['1', '0', '8', '2'], ['4'], ['-', '1'], ['f'], ['f']⟩]
  arenaOk := true

/-- One row of a `DATE` column goes out as the length 4 and no value, and the call
    succeeds. -/
theorem date_announced_not_sent : ¬ ∀ (tableName : Text) (q : MetadataQuery)
    (data : UInt64 → UInt8) (itemCount : UInt64) (o : Outcomes), CatalogAnswer q.rows →
    SoundOrRejected tableName q data itemCount o := by
  intro h
  have hcat : CatalogAnswer oneDateQuery.rows := ⟨by decide, by decide, by decide⟩
  obtain ⟨ti, hti, -⟩ := pgPrepareTable_eq ['t'] (q := oneDateQuery) rfl rfl (by decide) (by decide)
  have hrun : (pgPrepareTable ['t'] oneDateQuery).map (fun ti =>
      ((pgInsertData ti (fun _ => 0) 1 { noScratch with scratchOk := true }).1,
        (CopyFormat.decode (accepted
          (pgInsertData ti (fun _ => 0) 1 { noScratch with scratchOk := true }).2)).isNone)) =
      some (0, true) := by
    decide +kernel
  rw [hti, Option.map_some, Option.some_inj, Prod.mk.injEq] at hrun
  rcases h ['t'] oneDateQuery (fun _ => 0) 1 { noScratch with scratchOk := true } hcat ti hti
    with hfails | ⟨-, tuples, hdecode, -⟩
  · exact hfails.1 hrun.1
  · rw [Option.isNone_iff_eq_none.mp hrun.2] at hdecode
    exact absurd hdecode nofun

end Lmalloc.Postgres
