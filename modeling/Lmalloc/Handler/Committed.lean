/-
  Lmalloc/Handler/Committed.lean
  ==============================
  **What the table has gained after one `PgInsertData`.**

  The server keeps the rows of a COPY if the transaction is committed; what it
  reads are the bytes that `PQputCopyData` has accepted.  A block is packets one
  after another.  If the function returns 0 the table has gained one row for each
  packet, holding that packet's values, and else nothing.
-/
import Lmalloc.Postgres.RoundTrip
import Lmalloc.Postgres.AnySchema

namespace Lmalloc.Handler

open Lmalloc.Library Lmalloc.Postgres

/-- The rows the server has after these calls. -/
def committed (calls : List PgEvent) : List CopyFormat.Tuple :=
  if PgEvent.exec .commit .commandOk ∈ calls then
    (CopyFormat.decode (accepted calls)).getD []
  else []

/-- The row holds the values of the packet. -/
def RowOf (ti : PgTableInfo) (packet : List UInt8) (row : CopyFormat.Tuple) : Prop :=
  IsRow ti packet 0 row

/-! ### A row of a block is the row of its packet -/

theorem drop_flatten {packets : List (List UInt8)} {size : ℕ}
    (hlen : ∀ packet ∈ packets, packet.length = size) {r : ℕ} (hr : r < packets.length) :
    packets.flatten.drop (r * size) = packets[r] ++ (packets.drop (r + 1)).flatten := by
  induction packets generalizing r with
  | nil => simp at hr
  | cons packet packets ih =>
    have hfirst := hlen packet (List.mem_cons_self ..)
    cases r with
    | zero => simp
    | succ r =>
      have hrest := ih (fun p hp => hlen p (List.mem_cons_of_mem packet hp)) (by simpa using hr)
      have hsplit : (r + 1) * size = packet.length + r * size := by
        rw [hfirst]
        ring
      rw [List.flatten_cons, hsplit, ← List.drop_drop, List.drop_left, hrest]
      rfl

theorem length_flatten {packets : List (List UInt8)} {size : ℕ}
    (hlen : ∀ packet ∈ packets, packet.length = size) :
    packets.flatten.length = packets.length * size := by
  induction packets with
  | nil => simp
  | cons packet packets ih =>
    have hrest := ih fun p hp => hlen p (List.mem_cons_of_mem packet hp)
    have hfirst := hlen packet (List.mem_cons_self ..)
    rw [List.flatten_cons, List.length_append, hrest, hfirst, List.length_cons]
    ring

section Rows

variable {ti : PgTableInfo} {packets : List (List UInt8)}

theorem storedValue_flatten (hlen : ∀ packet ∈ packets, packet.length = ti.rowSize.toNat) {r : ℕ}
    (hr : r < packets.length) (col : PgColMetadata) {w : ℕ}
    (hin : fieldStart ti 0 col + w ≤ ti.rowSize.toNat) :
    storedValue packets.flatten (fieldStart ti r col) w =
      storedValue packets[r] (fieldStart ti 0 col) w := by
  have hstart : fieldStart ti r col = r * ti.rowSize.toNat + fieldStart ti 0 col := by
    simp [fieldStart]
  have hpacket := hlen packets[r] (List.getElem_mem hr)
  rw [storedValue, hstart, ← List.drop_drop, drop_flatten hlen hr,
    List.drop_append_of_le_length (by omega),
    List.take_append_of_le_length (by rw [List.length_drop]; omega)]
  rfl

theorem rowFields_flatten (h : ti.Prepared)
    (hlen : ∀ packet ∈ packets, packet.length = ti.rowSize.toNat)
    (hsize : packets.flatten.length < 2 ^ 63) {r : ℕ} (hr : r < packets.length) :
    rowFields ti (blockData packets.flatten) r = rowFields ti (blockData packets[r]) 0 := by
  have hpacket := hlen packets[r] (List.getElem_mem hr)
  have hblock := length_flatten hlen
  unfold rowFields
  apply List.map_congr_left
  intro col hcol
  have hone : packets[r].length = 1 * ti.rowSize.toNat := by rw [hpacket, Nat.one_mul]
  have hin := (h.fieldStart_le hcol hr hblock).2
  have hinPacket := (h.fieldStart_le hcol Nat.one_pos hone).2
  have hsmall : packets[r].length < 2 ^ 63 := by
    have hle : 1 * ti.rowSize.toNat ≤ packets.length * ti.rowSize.toNat :=
      Nat.mul_le_mul_right _ (Nat.one_le_of_lt hr)
    omega
  rw [h.address_eq hcol, h.address_eq hcol, columnValue_blockData hin hsize,
    columnValue_blockData hinPacket hsmall, storedValue_flatten hlen hr col (by omega)]

/-- The rows of the block, each with its packet. -/
theorem forall₂_rowOf (h : ti.Prepared)
    (hlen : ∀ packet ∈ packets, packet.length = ti.rowSize.toNat)
    (hsize : packets.flatten.length < 2 ^ 63) :
    List.Forall₂ (RowOf ti) packets
      (((List.range packets.length).map (rowFields ti (blockData packets.flatten))).map
        (·.map some)) := by
  rw [List.forall₂_iff_get]
  refine ⟨by simp, fun r hr hr' => ?_⟩
  have hpacket := hlen packets[r] (List.getElem_mem hr)
  have hone : packets[r].length = 1 * ti.rowSize.toNat := by rw [hpacket, Nat.one_mul]
  have hsmall : packets[r].length < 2 ^ 63 := by
    have hle : 1 * ti.rowSize.toNat ≤ packets.length * ti.rowSize.toNat :=
      Nat.mul_le_mul_right _ (Nat.one_le_of_lt hr)
    rw [length_flatten hlen] at hsize
    omega
  simp only [List.get_eq_getElem, List.getElem_map, List.getElem_range]
  rw [rowFields_flatten h hlen hsize hr]
  exact h.isRow Nat.one_pos hone hsmall

end Rows

/-! ### One call -/

/-- A call that returns 0 has begun, copied, sent the rows and committed; another one
    has committed nothing. -/
theorem pgInsertData_ret {ti : PgTableInfo} {data : UInt64 → UInt8} {itemCount : UInt64}
    {o : Outcomes} (hscratch : o.scratchOk = true) :
    ((pgInsertData ti data itemCount o).1 = 0 ∧
      PgEvent.exec .commit .commandOk ∈ (pgInsertData ti data itemCount o).2 ∧
      accepted (pgInsertData ti data itemCount o).2 =
        copyHeader ++ convertedBytes ti data itemCount) ∨
    ((pgInsertData ti data itemCount o).1 ≠ 0 ∧
      PgEvent.exec .commit .commandOk ∉ (pgInsertData ti data itemCount o).2) := by
  have hne := pgErr_ne_zero
  by_cases hbegin : o.beginStatus = .commandOk
  swap
  · refine Or.inr ?_
    rw [pgInsertData_notBegun ti data itemCount o hbegin]
    exact ⟨hne, by simp⟩
  by_cases hcopy : o.copyStatus = .copyIn
  swap
  · refine Or.inr ?_
    rw [pgInsertData_refused ti data itemCount o hbegin hcopy]
    exact ⟨hne, by simp⟩
  have haccepted := accepted_pgInsertData ti data itemCount o hbegin hcopy
  rw [pgInsertData_copying ti data itemCount o hbegin hcopy] at haccepted ⊢
  have hsend := sendRows_ret ti data itemCount o
  by_cases hwell : (sendRows ti data itemCount o).1 = 0 ∧ o.endRet = 1 ∧
      o.resultStatus = .commandOk
  · obtain ⟨hret, hend, hresult⟩ := hwell
    obtain ⟨hheader, hput⟩ := hsend.mp hret
    have hrows : o.rowsRet = 1 := hput.resolve_left (by simp [hscratch])
    rw [hret, cleanup_commit o hend hresult] at haccepted ⊢
    by_cases hfinal : o.finalStatus = .commandOk
    · refine Or.inl ⟨by simp [hfinal], by simp [hfinal], ?_⟩
      rw [haccepted, sendRows, if_neg (not_not.mpr hheader), if_neg (by simp [hscratch])]
      simp [accepted, hheader, hrows]
    · refine Or.inr ⟨by simp [hfinal, hne], ?_⟩
      have hother : PgEvent.exec .commit .commandOk ≠ PgEvent.exec .commit o.finalStatus :=
        fun heq => hfinal (PgEvent.exec.inj heq).2.symm
      simp [not_mem_sendRows, hother]
  · obtain ⟨errormsg, hcleanup⟩ :=
      cleanup_rollback o hwell (sendRows_ret_cases ti data itemCount o)
    rw [hcleanup]
    exact Or.inr ⟨hne, by simp [not_mem_sendRows]⟩

theorem committed_pgInsertData {ti : PgTableInfo} (h : ti.Prepared) {packets : List (List UInt8)}
    (hlen : ∀ packet ∈ packets, packet.length = ti.rowSize.toNat) {itemCount : UInt64}
    (hcount : itemCount.toNat = packets.length)
    (hfits : itemCount.toNat * encodedRowSize ti < 2 ^ 31) {o : Outcomes}
    (hscratch : o.scratchOk = true) :
    ((pgInsertData ti (blockData packets.flatten) itemCount o).1 = 0 →
      List.Forall₂ (RowOf ti) packets
        (committed (pgInsertData ti (blockData packets.flatten) itemCount o).2)) ∧
    ((pgInsertData ti (blockData packets.flatten) itemCount o).1 ≠ 0 →
      committed (pgInsertData ti (blockData packets.flatten) itemCount o).2 = []) := by
  have hsize : packets.flatten.length < 2 ^ 63 := by
    have hrow := encodedRowSize_eq ti
    have hbytes := h.toNat_rowSize
    have hle : itemCount.toNat * ti.rowSize.toNat ≤ itemCount.toNat * encodedRowSize ti :=
      Nat.mul_le_mul_left _ (by omega)
    rw [length_flatten hlen]
    rw [hcount] at hle hfits
    omega
  have hdecode : CopyFormat.decode
      (copyHeader ++ convertedBytes ti (blockData packets.flatten) itemCount) =
      some (((List.range packets.length).map (rowFields ti (blockData packets.flatten))).map
        (·.map some)) := by
    rw [convertedBytes_eq hfits, h.encodeRows_eq, copyHeader_eq, hcount]
    apply CopyFormat.decode_encode
    intro fields hfields
    obtain ⟨r, -, rfl⟩ := List.mem_map.mp hfields
    exact h.encodable (blockData packets.flatten) r
  rcases pgInsertData_ret hscratch with ⟨hzero, hcommit, haccepted⟩ | ⟨hne, hnot⟩
  · refine ⟨fun _ => ?_, fun hne => absurd hzero hne⟩
    rw [committed, if_pos hcommit, haccepted, hdecode, Option.getD_some]
    exact forall₂_rowOf h hlen hsize
  · exact ⟨fun hzero => absurd hzero hne, fun _ => by rw [committed, if_neg hnot]⟩

end Lmalloc.Handler
