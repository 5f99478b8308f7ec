/-
  Lmalloc/Postgres/Insert.lean
  ============================
  **`PgInsertData` with every library call's outcome a parameter.**

  The function returns its status and the calls it made on the connection, in
  order.  Each call site is reached at most once, so an outcome for each site is
  an arbitrary sequence of outcomes; the call that ends the transaction has one,
  whether it is the `ROLLBACK` after a refused COPY or the last one.

  A write past the end of the conversion buffer is taken to reach the memory
  behind it; `ConvBuffer.lean` says when there is one.
-/
import Lmalloc.Library.Word
import Lmalloc.Postgres.ConvBuffer

namespace Lmalloc.Postgres

open Lmalloc.Library Lmalloc.Library.Bytes

/-- The texts handed to `PQexec`. -/
inductive Command where
  | begin
  | copy (text : Text)
  | commit
  | rollback
deriving DecidableEq, Repr

/-- A call on the connection and its outcome.  `PQputCopyData` is handed the bytes
    its pointer and length describe, none for a negative length. -/
inductive PgEvent where
  | exec (command : Command) (status : ExecStatus)
  | putCopyData (bytes : List UInt8) (ret : Int32)
  | putCopyEnd (errormsg : Option Text) (ret : Int32)
  | getResult (status : ExecStatus)
deriving DecidableEq, Repr

structure Outcomes where
  beginStatus : ExecStatus
  copyStatus : ExecStatus
  headerRet : Int32
  scratchOk : Bool
  rowsRet : Int32
  endRet : Int32
  resultStatus : ExecStatus
  finalStatus : ExecStatus
deriving DecidableEq, Repr

/-- `-SDBE_PG_ERR`. -/
def pgErr : Int32 := -6

/-- `"PGCOPY\n\377\r\n\0"`. -/
def copySignature : List UInt8 := [80, 71, 67, 79, 80, 89, 10, 255, 13, 10, 0]

/-- `CopyHeader`, with the flags and the extension length copied in. -/
def copyHeader : List UInt8 := copySignature ++ toLE 4 (htobe 4 0) ++ toLE 4 (htobe 4 0)

/-- `(int)ConvOffset`. -/
def copyLength (buf : Writer UInt8) : Int32 := buf.pos.toUInt32.toInt32

/-- The bytes of the conversion buffer that the second `PQputCopyData` is handed. -/
def convertedBytes (ti : PgTableInfo) (data : UInt64 → UInt8) (itemCount : UInt64) : List UInt8 :=
  let buf := convRows ti data itemCount
  buf.read (copyLength buf).toInt.toNat

/-- From the COPY header to the `cleanup` label: the value of `Ret` there. -/
def sendRows (ti : PgTableInfo) (data : UInt64 → UInt8) (itemCount : UInt64) (o : Outcomes) :
    Int32 × List PgEvent :=
  let header := PgEvent.putCopyData copyHeader o.headerRet
  if o.headerRet ≠ 1 then (pgErr, [header])
  else if o.scratchOk = false then (0, [header])   -- `goto cleanup` with `Ret` as it was set first
  else
    let rows := PgEvent.putCopyData (convertedBytes ti data itemCount) o.rowsRet
    (if o.rowsRet ≠ 1 then pgErr else 0, [header, rows])

def copyErrorText : Text := "Error during copy".toList

/-- From the `cleanup` label to the end. -/
def cleanup (o : Outcomes) (ret : Int32) : Int32 × List PgEvent :=
  let errormsg := if ret = 0 then none else some copyErrorText
  let ret := if o.endRet ≠ 1 then pgErr else ret
  let ret := if o.resultStatus ≠ .commandOk then pgErr else ret
  let command := if ret = 0 then Command.commit else Command.rollback
  (if o.finalStatus ≠ .commandOk then pgErr else ret,
    [.putCopyEnd errormsg o.endRet, .getResult o.resultStatus, .exec command o.finalStatus])

def pgInsertData (ti : PgTableInfo) (data : UInt64 → UInt8) (itemCount : UInt64) (o : Outcomes) :
    Int32 × List PgEvent :=
  let begun := PgEvent.exec .begin o.beginStatus
  let copy := PgEvent.exec (.copy ti.copyCommand) o.copyStatus
  if o.beginStatus ≠ .commandOk then (pgErr, [begun])
  else if o.copyStatus ≠ .copyIn then (pgErr, [begun, copy, .exec .rollback o.finalStatus])
  else
    let sent := sendRows ti data itemCount o
    let ended := cleanup o sent.1
    (ended.1, begun :: copy :: (sent.2 ++ ended.2))

/-! ### Readings of the calls made -/

def handed : List PgEvent → List UInt8
  | [] => []
  | .putCopyData bytes _ :: rest => bytes ++ handed rest
  | _ :: rest => handed rest

def accepted : List PgEvent → List UInt8
  | [] => []
  | .putCopyData bytes ret :: rest => if ret = 1 then bytes ++ accepted rest else accepted rest
  | _ :: rest => accepted rest

def PgEvent.endsTransaction : PgEvent → Bool
  | .exec .commit _ | .exec .rollback _ => true
  | _ => false

def Commits (calls : List PgEvent) : Prop := ∃ status, PgEvent.exec .commit status ∈ calls

/-- The header and the encoding of all rows were accepted. -/
def RowsAccepted (ti : PgTableInfo) (data : UInt64 → UInt8) (itemCount : UInt64)
    (calls : List PgEvent) : Prop :=
  accepted calls = copyHeader ++ encodeRows ti data itemCount.toNat

/-- COPY was ended without an error message, and its result is a success. -/
def CopyEnded (calls : List PgEvent) : Prop :=
  PgEvent.putCopyEnd none 1 ∈ calls ∧ PgEvent.getResult .commandOk ∈ calls

/-- What the return value and the end of the transaction promise. -/
def TransactionLaw (ti : PgTableInfo) (data : UInt64 → UInt8) (itemCount : UInt64)
    (r : Int32 × List PgEvent) : Prop :=
  (r.1 = 0 → RowsAccepted ti data itemCount r.2 ∧ CopyEnded r.2 ∧
    PgEvent.exec .commit .commandOk ∈ r.2) ∧
  (PgEvent.exec .begin .commandOk ∈ r.2 → r.2.countP PgEvent.endsTransaction = 1 ∧
    (Commits r.2 → RowsAccepted ti data itemCount r.2))

/-- The header went out and the COPY ended well, but the scratch arena had no room
    for the conversion buffer, or its length does not fit an `int`. -/
def CommitsShort (ti : PgTableInfo) (itemCount : UInt64) (o : Outcomes) : Prop :=
  o.beginStatus = .commandOk ∧ o.copyStatus = .copyIn ∧ o.headerRet = 1 ∧
    (o.scratchOk = false ∨
      o.rowsRet = 1 ∧ 2 ^ 31 ≤ itemCount.toNat * encodedRowSize ti) ∧
    o.endRet = 1 ∧ o.resultStatus = .commandOk

theorem pgErr_ne_zero : pgErr ≠ 0 := by decide

/-! ### The bytes of the rows -/

theorem convertedBytes_eq {ti : PgTableInfo} {data : UInt64 → UInt8} {itemCount : UInt64}
    (h : itemCount.toNat * encodedRowSize ti < 2 ^ 31) :
    convertedBytes ti data itemCount = encodeRows ti data itemCount.toNat := by
  have hlen := length_encodeRows ti data itemCount.toNat
  have hholds : (convRows ti data itemCount).Holds (encodeRows ti data itemCount.toNat) := by
    rw [convRows_eq]
    apply Writer.holds_start_puts
    change (encodeRows ti data itemCount.toNat).length < 2 ^ 64
    omega
  have hpos : (copyLength (convRows ti data itemCount)).toInt.toNat =
      (encodeRows ti data itemCount.toNat).length := by
    rw [copyLength, Word.toInt_toInt32_of_lt (by rw [hholds.pos]; omega), hholds.pos]
    rfl
  rw [convertedBytes, hpos, hholds.read]

theorem length_convertedBytes_lt (ti : PgTableInfo) (data : UInt64 → UInt8)
    (itemCount : UInt64) : (convertedBytes ti data itemCount).length < 2 ^ 31 := by
  have hlt := (copyLength (convRows ti data itemCount)).toInt_lt
  rw [convertedBytes, Writer.length_read]
  omega

/-- What goes out is the encoding of the rows exactly if its length fits an `int`. -/
theorem convertedBytes_eq_iff (ti : PgTableInfo) (data : UInt64 → UInt8) (itemCount : UInt64) :
    convertedBytes ti data itemCount = encodeRows ti data itemCount.toNat ↔
      itemCount.toNat * encodedRowSize ti < 2 ^ 31 := by
  constructor
  · intro h
    have hlt := length_convertedBytes_lt ti data itemCount
    rwa [h, length_encodeRows] at hlt
  · exact convertedBytes_eq

theorem encodeRows_ne_nil (ti : PgTableInfo) (data : UInt64 → UInt8) {n : ℕ} (h : 1 ≤ n) :
    encodeRows ti data n ≠ [] := by
  intro hnil
  have hlen := length_encodeRows ti data n
  have hrow : 2 ≤ encodedRowSize ti := by
    unfold encodedRowSize
    omega
  rw [hnil, List.length_nil] at hlen
  have hpos : 0 < n * encodedRowSize ti := Nat.mul_pos (by omega) (by omega)
  omega

/-! ### The calls before and after the label -/

theorem accepted_append (xs ys : List PgEvent) :
    accepted (xs ++ ys) = accepted xs ++ accepted ys := by
  induction xs with
  | nil => rfl
  | cons e xs ih =>
      cases e with
      | putCopyData bytes ret =>
          rw [List.cons_append, accepted, accepted, ih]
          split
          · rw [List.append_assoc]
          · rfl
      | exec command status => exact ih
      | putCopyEnd errormsg ret => exact ih
      | getResult status => exact ih

section Calls

variable (ti : PgTableInfo) (data : UInt64 → UInt8) (itemCount : UInt64) (o : Outcomes)

theorem sendRows_calls : ∀ e ∈ (sendRows ti data itemCount o).2,
    ∃ bytes ret, e = .putCopyData bytes ret := by
  intro e he
  unfold sendRows at he
  split at he
  · exact ⟨_, _, List.mem_singleton.mp he⟩
  · split at he
    · exact ⟨_, _, List.mem_singleton.mp he⟩
    · rcases List.mem_cons.mp he with rfl | he
      · exact ⟨_, _, rfl⟩
      · exact ⟨_, _, List.mem_singleton.mp he⟩

theorem sendRows_ret_cases : (sendRows ti data itemCount o).1 = 0 ∨
    (sendRows ti data itemCount o).1 = pgErr := by
  unfold sendRows
  split_ifs <;> simp

/-- `Ret` is still 0 at the label after a failure to allocate. -/
theorem sendRows_ret : (sendRows ti data itemCount o).1 = 0 ↔
    o.headerRet = 1 ∧ (o.scratchOk = false ∨ o.rowsRet = 1) := by
  unfold sendRows
  split
  · rename_i hheader
    exact ⟨fun h => absurd h pgErr_ne_zero, fun h => absurd h.1 hheader⟩
  · rename_i hheader
    rw [not_not] at hheader
    split
    · rename_i hscratch
      exact ⟨fun _ => ⟨hheader, Or.inl hscratch⟩, fun _ => rfl⟩
    · rename_i hscratch
      by_cases hrows : o.rowsRet = 1
      · simp [hheader, hrows]
      · simp [hscratch, hrows, pgErr_ne_zero]

theorem sendRows_accepted (hn : 1 ≤ itemCount.toNat)
    (hret : (sendRows ti data itemCount o).1 = 0) :
    RowsAccepted ti data itemCount (sendRows ti data itemCount o).2 ↔
      o.scratchOk = true ∧ itemCount.toNat * encodedRowSize ti < 2 ^ 31 := by
  obtain ⟨hheader, hsent⟩ := (sendRows_ret ti data itemCount o).mp hret
  unfold RowsAccepted sendRows
  rw [if_neg (not_not.mpr hheader)]
  by_cases hscratch : o.scratchOk = false
  · rw [if_pos hscratch]
    have hne := encodeRows_ne_nil ti data hn
    simp [accepted, hheader, hscratch, hne]
  · have hrows : o.rowsRet = 1 := hsent.resolve_left hscratch
    rw [Bool.not_eq_false] at hscratch
    rw [if_neg (by simp [hscratch]), ← convertedBytes_eq_iff ti data itemCount]
    simp [accepted, hheader, hrows, hscratch]

/-- Once `Ret` is set, or COPY ends badly, the transaction is rolled back. -/
theorem cleanup_rollback {ret : Int32}
    (h : ¬ (ret = 0 ∧ o.endRet = 1 ∧ o.resultStatus = .commandOk)) (herr : ret = 0 ∨ ret = pgErr) :
    ∃ errormsg, cleanup o ret = (pgErr, [.putCopyEnd errormsg o.endRet,
      .getResult o.resultStatus, .exec .rollback o.finalStatus]) := by
  have hne := pgErr_ne_zero
  refine ⟨if ret = 0 then none else some copyErrorText, ?_⟩
  unfold cleanup
  by_cases hend : o.endRet = 1
  · by_cases hresult : o.resultStatus = .commandOk
    · obtain rfl : ret = pgErr := herr.resolve_left fun hzero => h ⟨hzero, hend, hresult⟩
      simp [hend, hresult, hne]
    · simp [hresult, hne]
  · simp [hend, hne]

theorem cleanup_commit (hend : o.endRet = 1) (hresult : o.resultStatus = .commandOk) :
    cleanup o 0 = (if o.finalStatus ≠ .commandOk then pgErr else 0,
      [.putCopyEnd none 1, .getResult .commandOk, .exec .commit o.finalStatus]) := by
  simp [cleanup, hend, hresult]

theorem countP_sendRows :
    (sendRows ti data itemCount o).2.countP PgEvent.endsTransaction = 0 := by
  rw [List.countP_eq_zero]
  intro e he
  obtain ⟨bytes, ret, rfl⟩ := sendRows_calls ti data itemCount o e he
  exact Bool.false_ne_true

theorem not_mem_sendRows {command : Command} {status : ExecStatus} :
    PgEvent.exec command status ∉ (sendRows ti data itemCount o).2 := by
  intro he
  obtain ⟨_, _, h⟩ := sendRows_calls ti data itemCount o _ he
  exact absurd h nofun

/-! The three ways through the function. -/

theorem pgInsertData_notBegun (h : o.beginStatus ≠ .commandOk) :
    pgInsertData ti data itemCount o = (pgErr, [.exec .begin o.beginStatus]) := if_pos h

theorem pgInsertData_refused (hbegin : o.beginStatus = .commandOk) (h : o.copyStatus ≠ .copyIn) :
    pgInsertData ti data itemCount o = (pgErr, [.exec .begin .commandOk,
      .exec (.copy ti.copyCommand) o.copyStatus, .exec .rollback o.finalStatus]) := by
  simp [pgInsertData, hbegin, h]

theorem pgInsertData_copying (hbegin : o.beginStatus = .commandOk) (h : o.copyStatus = .copyIn) :
    pgInsertData ti data itemCount o =
      ((cleanup o (sendRows ti data itemCount o).1).1,
        .exec .begin .commandOk :: .exec (.copy ti.copyCommand) .copyIn ::
          ((sendRows ti data itemCount o).2 ++
            (cleanup o (sendRows ti data itemCount o).1).2)) := by
  simp [pgInsertData, hbegin, h]

end Calls

/-! ### The law -/

/-- A path that does not commit, reports an error and ends the transaction once
    keeps the law. -/
theorem transactionLaw_of_not_commits {ti : PgTableInfo} {data : UInt64 → UInt8}
    {itemCount : UInt64} {r : Int32 × List PgEvent} (hret : r.1 ≠ 0)
    (hends : PgEvent.exec .begin .commandOk ∈ r.2 → r.2.countP PgEvent.endsTransaction = 1)
    (hcommits : ¬ Commits r.2) : TransactionLaw ti data itemCount r :=
  ⟨fun h => absurd h hret, fun h => ⟨hends h, fun hc => absurd hc hcommits⟩⟩

/-- A path that commits after a COPY that ended well keeps the law exactly if the
    rows went out. -/
theorem transactionLaw_of_commits {ti : PgTableInfo} {data : UInt64 → UInt8}
    {itemCount : UInt64} {sent : List PgEvent} {copy : Text} {final : ExecStatus}
    (hcount : sent.countP PgEvent.endsTransaction = 0) :
    TransactionLaw ti data itemCount (if final ≠ .commandOk then pgErr else 0,
        .exec .begin .commandOk :: .exec (.copy copy) .copyIn :: (sent ++
          [.putCopyEnd none 1, .getResult .commandOk, .exec .commit final])) ↔
      RowsAccepted ti data itemCount sent := by
  have haccepted : accepted (.exec .begin .commandOk :: .exec (.copy copy) .copyIn :: (sent ++
      [.putCopyEnd none 1, .getResult .commandOk, .exec .commit final])) = accepted sent := by
    rw [accepted, accepted, accepted_append]
    · exact List.append_nil _
    all_goals exact fun _ _ => nofun
  unfold TransactionLaw RowsAccepted
  rw [haccepted]
  constructor
  · rintro ⟨-, hlaw⟩
    apply (hlaw List.mem_cons_self).2
    exact ⟨final, by simp⟩
  · intro hrows
    refine ⟨fun hret => ⟨hrows, ⟨by simp, by simp⟩, ?_⟩, fun _ => ⟨?_, fun _ => hrows⟩⟩
    · by_cases hfinal : final = .commandOk
      · simp [hfinal]
      · rw [if_pos hfinal] at hret
        exact absurd hret pgErr_ne_zero
    · simp [List.countP_cons, hcount, PgEvent.endsTransaction]

/-- The law holds of a call for at least one row exactly if it does not end a COPY
    well without having sent the rows. -/
theorem transactionLaw_iff (ti : PgTableInfo) (data : UInt64 → UInt8) (itemCount : UInt64)
    (o : Outcomes) (hn : 1 ≤ itemCount.toNat) :
    TransactionLaw ti data itemCount (pgInsertData ti data itemCount o) ↔
      ¬ CommitsShort ti itemCount o := by
  by_cases hbegin : o.beginStatus = .commandOk
  swap
  · apply iff_of_true
    · rw [pgInsertData_notBegun ti data itemCount o hbegin]
      apply transactionLaw_of_not_commits pgErr_ne_zero
      · simp only [List.mem_singleton, PgEvent.exec.injEq, true_and]
        exact fun h => absurd h.symm hbegin
      · simp [Commits]
    · exact fun h => hbegin h.1
  by_cases hcopy : o.copyStatus = .copyIn
  swap
  · apply iff_of_true
    · rw [pgInsertData_refused ti data itemCount o hbegin hcopy]
      apply transactionLaw_of_not_commits pgErr_ne_zero
      · simp [List.countP_cons, PgEvent.endsTransaction]
      · simp [Commits]
    · exact fun h => hcopy h.2.1
  rw [pgInsertData_copying ti data itemCount o hbegin hcopy]
  have hcount := countP_sendRows ti data itemCount o
  by_cases hwell : (sendRows ti data itemCount o).1 = 0 ∧ o.endRet = 1 ∧
      o.resultStatus = .commandOk
  · obtain ⟨hret, hend, hresult⟩ := hwell
    have hsent := sendRows_accepted ti data itemCount o hn hret
    obtain ⟨hheader, hput⟩ := (sendRows_ret ti data itemCount o).mp hret
    rw [hret, cleanup_commit o hend hresult, transactionLaw_of_commits hcount, hsent]
    simp only [CommitsShort, hbegin, hcopy, hheader, hend, hresult, true_and, and_true]
    cases hscratch : o.scratchOk with
    | false => simp
    | true =>
        have hrows : o.rowsRet = 1 := hput.resolve_left (by simp [hscratch])
        simp [hrows]
  · apply iff_of_true
    · have herr := sendRows_ret_cases ti data itemCount o
      obtain ⟨errormsg, hcleanup⟩ := cleanup_rollback o hwell herr
      rw [hcleanup]
      apply transactionLaw_of_not_commits pgErr_ne_zero
      · simp [List.countP_cons, hcount, PgEvent.endsTransaction]
      · simp [Commits, not_mem_sendRows]
    · rintro ⟨-, -, hheader, hshort, hend, hresult⟩
      apply hwell
      refine ⟨(sendRows_ret ti data itemCount o).mpr ⟨hheader, ?_⟩, hend, hresult⟩
      exact hshort.imp_right And.left

/-- Every call on the connection succeeds; the scratch arena has no room. -/
def noScratch : Outcomes where
  beginStatus := .commandOk
  copyStatus := .copyIn
  headerRet := 1
  scratchOk := false
  rowsRet := 1
  endRet := 1
  resultStatus := .commandOk
  finalStatus := .commandOk

theorem transactionLaw_oneInt4 :
    TransactionLaw oneInt4 (fun _ => 0) 1
      (pgInsertData oneInt4 (fun _ => 0) 1 { noScratch with scratchOk := true }) ↔
      ¬ CommitsShort oneInt4 1 { noScratch with scratchOk := true } :=
  transactionLaw_iff oneInt4 (fun _ => 0) 1 { noScratch with scratchOk := true } (by decide)

/-- Without room in the scratch arena the call commits a COPY of no rows. -/
theorem commits_without_rows : ¬ ∀ (ti : PgTableInfo) (data : UInt64 → UInt8)
    (itemCount : UInt64) (o : Outcomes), 1 ≤ itemCount.toNat →
    TransactionLaw ti data itemCount (pgInsertData ti data itemCount o) := by
  intro h
  have hlaw := h oneInt4 (fun _ => 0) 1 noScratch (by decide)
  have hrows := (hlaw.2 (by decide)).2 ⟨.commandOk, by decide⟩
  unfold RowsAccepted at hrows
  exact absurd hrows (by decide)

end Lmalloc.Postgres
