/-
  Lmalloc/Pipe/Failure.lean
  =========================
  **The pipe calls with event descriptors whose operations may fail.**

  Each call reads one descriptor and writes the other.  A failing read leaves the
  function before it has changed anything.  A failing write leaves it after: the
  index has moved, the count is adjusted and the credit is taken, but the other
  side is never told (`failsAtomically_iff`).

  With both operations succeeding these are the calls of `SensorDataPipe.lean`.
-/
import Lmalloc.Pipe.SensorDataPipe

namespace Lmalloc.Pipe

open Lmalloc.Library

/-- What becomes of a call's two event operations.  A read that does not fail may
    still block. -/
structure EventCalls where
  readOk : Bool
  writeOk : Bool
deriving DecidableEq, Repr

/-- How a call comes back: `NULL` or an error exit, a buffer, or the end of a flush. -/
inductive Exit where
  | failed
  | returned (buf : UInt32)
  | flushed
deriving DecidableEq, Repr

namespace EventCalls

/-- What `SdPipeGetWriteBuffer` and `SdPipeFlush` have in common. -/
def publish (o : EventCalls) (p : SensorDataPipe) : Option (Exit × SensorDataPipe) :=
  (p.next? p.writeBufIdx).bind fun nextWriteBuf =>
    if o.readOk = false then some (.failed, p)
    else
      (EventFd.read p.writeEventFd).map fun r =>
        let moved : SensorDataPipe :=
          { p with
            writeEventFd := r.2
            writeBufIdx := nextWriteBuf
            fullBuffersCount := p.fullBuffersCount + 1 }
        if o.writeOk = false then (.failed, moved)
        else (.returned nextWriteBuf, SensorDataPipe.freeBuffer
          { moved with readEventFd := EventFd.write p.readEventFd 1 } nextWriteBuf)

def sdPipeGetWriteBuffer (o : EventCalls) (p : SensorDataPipe) : Option (Exit × SensorDataPipe) :=
  o.publish p

def sdPipeGetReadBuffer (o : EventCalls) (p : SensorDataPipe) : Option (Exit × SensorDataPipe) :=
  if o.readOk = false then some (.failed, p)
  else
    (EventFd.read p.readEventFd).bind fun r =>
      (p.next? p.readBufIdx).map fun nextReadBuf =>
        let moved : SensorDataPipe :=
          { p with
            readEventFd := r.2
            readBufIdx := nextReadBuf
            fullBuffersCount := p.fullBuffersCount - 1 }
        if o.writeOk = false then (.failed, moved)
        else (.returned p.readBufIdx,
          { moved with writeEventFd := EventFd.write p.writeEventFd 1 })

/-- The flush frees the next buffer where the other call also returns it. -/
def Exit.ofFlush : Exit → Exit
  | .failed => .failed
  | _ => .flushed

def sdPipeFlush (o : EventCalls) (p : SensorDataPipe) : Option (Exit × SensorDataPipe) :=
  if p.buffers p.writeBufIdx ≠ [] then (o.publish p).map fun r => (Exit.ofFlush r.1, r.2)
  else some (.flushed, p)

/-! ### Calls whose operations succeed -/

def succeeding : EventCalls := ⟨true, true⟩

theorem publish_succeeding (p : SensorDataPipe) :
    succeeding.publish p = (Pipe.publish p).map fun r => (.returned r.1, r.2) := by
  unfold EventCalls.publish Pipe.publish
  cases p.next? p.writeBufIdx with
  | none => rfl
  | some next =>
      cases EventFd.read p.writeEventFd with
      | none => rfl
      | some r => rfl

theorem sdPipeGetWriteBuffer_succeeding (p : SensorDataPipe) :
    succeeding.sdPipeGetWriteBuffer p =
      (Pipe.sdPipeGetWriteBuffer p).map fun r => (.returned r.1, r.2) :=
  publish_succeeding p

theorem sdPipeGetReadBuffer_succeeding (p : SensorDataPipe) :
    succeeding.sdPipeGetReadBuffer p =
      (Pipe.sdPipeGetReadBuffer p).map fun r => (.returned r.1, r.2) := by
  unfold EventCalls.sdPipeGetReadBuffer Pipe.sdPipeGetReadBuffer
  cases EventFd.read p.readEventFd with
  | none => rfl
  | some r =>
      cases p.next? p.readBufIdx with
      | none => rfl
      | some next => rfl

theorem sdPipeFlush_succeeding (p : SensorDataPipe) :
    succeeding.sdPipeFlush p = (Pipe.sdPipeFlush p).map fun r => (.flushed, r) := by
  unfold EventCalls.sdPipeFlush Pipe.sdPipeFlush
  split
  · rw [publish_succeeding, Option.map_map, Option.map_map]
    rfl
  · rfl

/-! ### Calls that fail -/

/-- The pipe a publishing call leaves when its write fails. -/
def halfPublished (p : SensorDataPipe) (next : UInt32) : SensorDataPipe :=
  { p with
    writeEventFd := 0
    writeBufIdx := next
    fullBuffersCount := p.fullBuffersCount + 1 }

/-- The pipe a reading call leaves when its write fails. -/
def halfRead (p : SensorDataPipe) (next : UInt32) : SensorDataPipe :=
  { p with
    readEventFd := 0
    readBufIdx := next
    fullBuffersCount := p.fullBuffersCount - 1 }

variable {o : EventCalls} {p p' : SensorDataPipe}

theorem publish_failed_iff : o.publish p = some (.failed, p') ↔
    ∃ next, p.next? p.writeBufIdx = some next ∧
      (o.readOk = false ∧ p' = p ∨
        o.readOk = true ∧ 0 < p.writeEventFd ∧ o.writeOk = false ∧ p' = halfPublished p next) := by
  unfold EventCalls.publish
  rw [Option.bind_eq_some_iff]
  apply exists_congr
  intro next
  apply and_congr_right
  intro hnext
  cases hread : o.readOk with
  | false =>
      simp only [if_true, Option.some.injEq, Prod.mk.injEq, true_and, Bool.false_eq_true,
        false_and, or_false]
      exact eq_comm
  | true =>
      simp only [Bool.true_eq_false, if_false, false_and, true_and, false_or,
        Option.map_eq_some_iff]
      constructor
      · rintro ⟨⟨v, c⟩, hc, hexit⟩
        obtain ⟨hpos, rfl, rfl⟩ := EventFd.read_eq_some_iff.mp hc
        cases hwrite : o.writeOk with
        | false =>
            simp only [hwrite, if_true, Prod.mk.injEq, true_and] at hexit
            exact ⟨hpos, rfl, hexit.symm⟩
        | true => simp [hwrite] at hexit
      · rintro ⟨hpos, hwrite, rfl⟩
        refine ⟨(p.writeEventFd, 0), EventFd.read_eq_some_iff.mpr ⟨hpos, rfl, rfl⟩, ?_⟩
        simp [hwrite, halfPublished]

theorem sdPipeGetReadBuffer_failed_iff : o.sdPipeGetReadBuffer p = some (.failed, p') ↔
    o.readOk = false ∧ p' = p ∨
      o.readOk = true ∧ 0 < p.readEventFd ∧ o.writeOk = false ∧
        ∃ next, p.next? p.readBufIdx = some next ∧ p' = halfRead p next := by
  unfold EventCalls.sdPipeGetReadBuffer
  cases hread : o.readOk with
  | false =>
      simp only [if_true, Option.some.injEq, Prod.mk.injEq, true_and, Bool.false_eq_true,
        false_and, or_false]
      exact eq_comm
  | true =>
      simp only [Bool.true_eq_false, if_false, false_and, true_and, false_or,
        Option.bind_eq_some_iff, Option.map_eq_some_iff]
      constructor
      · rintro ⟨⟨v, c⟩, hc, next, hnext, hexit⟩
        obtain ⟨hpos, rfl, rfl⟩ := EventFd.read_eq_some_iff.mp hc
        cases hwrite : o.writeOk with
        | false =>
            simp only [hwrite, if_true, Prod.mk.injEq, true_and] at hexit
            exact ⟨hpos, rfl, next, hnext, hexit.symm⟩
        | true => simp [hwrite] at hexit
      · rintro ⟨hpos, hwrite, next, hnext, rfl⟩
        refine ⟨(p.readEventFd, 0), EventFd.read_eq_some_iff.mpr ⟨hpos, rfl, rfl⟩, next, hnext, ?_⟩
        simp [hwrite, halfRead]

theorem sdPipeFlush_failed_iff : o.sdPipeFlush p = some (.failed, p') ↔
    p.buffers p.writeBufIdx ≠ [] ∧ o.publish p = some (.failed, p') := by
  unfold EventCalls.sdPipeFlush
  by_cases hempty : p.buffers p.writeBufIdx = []
  · simp [hempty]
  · rw [if_pos hempty, and_iff_right hempty, Option.map_eq_some_iff]
    constructor
    · rintro ⟨⟨exit, q⟩, hpublish, hsame⟩
      rw [Prod.mk.injEq] at hsame
      obtain ⟨hexit, rfl⟩ := hsame
      cases exit with
      | failed => exact hpublish
      | returned buf => exact absurd hexit nofun
      | flushed => exact absurd hexit nofun
    · exact fun hpublish => ⟨_, hpublish, rfl⟩

end EventCalls

/-! ### Atomicity -/

inductive PipeCall where
  | getWriteBuffer
  | getReadBuffer
  | flush
deriving DecidableEq, Repr

namespace PipeCall

def run : PipeCall → EventCalls → SensorDataPipe → Option (Exit × SensorDataPipe)
  | .getWriteBuffer, o, p => o.sdPipeGetWriteBuffer p
  | .getReadBuffer, o, p => o.sdPipeGetReadBuffer p
  | .flush, o, p => o.sdPipeFlush p

/-- The credits on the descriptor the call reads. -/
def credits : PipeCall → SensorDataPipe → ℕ
  | .getReadBuffer, p => p.readEventFd
  | _, p => p.writeEventFd

/-- The call gets to its event operations: a flush does with something to flush. -/
def Begins : PipeCall → SensorDataPipe → Prop
  | .flush, p => p.buffers p.writeBufIdx ≠ []
  | _, _ => True

end PipeCall

/-- The indices and the count are as before, and no credit is gone. -/
structure Unchanged (p p' : SensorDataPipe) : Prop where
  writeBufIdx : p'.writeBufIdx = p.writeBufIdx
  readBufIdx : p'.readBufIdx = p.readBufIdx
  fullBuffersCount : p'.fullBuffersCount = p.fullBuffersCount
  readCredits : p'.readEventFd = p.readEventFd
  writeCredits : p'.writeEventFd = p.writeEventFd

/-- If the call reports a failure, nothing has changed, and whatever is called later
    goes as it would have gone in its place. -/
def FailsAtomically (c : PipeCall) (o : EventCalls) (p : SensorDataPipe) : Prop :=
  ∀ p', c.run o p = some (.failed, p') →
    Unchanged p p' ∧ ∀ (later : PipeCall) (o' : EventCalls), later.run o' p' = later.run o' p

/-- The call gets past its read, and its write fails. -/
def LosesWrite (c : PipeCall) (o : EventCalls) (p : SensorDataPipe) : Prop :=
  c.Begins p ∧ p.count ≠ 0 ∧ 0 < c.credits p ∧ o.readOk = true ∧ o.writeOk = false

theorem count_ne_zero {p : SensorDataPipe} {cur next : UInt32} (h : p.next? cur = some next) :
    p.count ≠ 0 := by
  intro hzero
  rw [SensorDataPipe.next?, if_pos hzero] at h
  exact absurd h nofun

theorem exists_next? {p : SensorDataPipe} (h : p.count ≠ 0) (cur : UInt32) :
    ∃ next, p.next? cur = some next :=
  ⟨_, if_neg h⟩

theorem unchanged_refl (p : SensorDataPipe) : Unchanged p p := ⟨rfl, rfl, rfl, rfl, rfl⟩

/-- A call whose write fails after its read does change the pipe. -/
theorem exists_changed_of_losesWrite {c : PipeCall} {o : EventCalls} {p : SensorDataPipe}
    (h : LosesWrite c o p) : ∃ p', c.run o p = some (.failed, p') ∧ ¬ Unchanged p p' := by
  obtain ⟨hbegins, hcount, hcredits, hread, hwrite⟩ := h
  have hpublish : 0 < p.writeEventFd →
      ∃ p', o.publish p = some (.failed, p') ∧ ¬ Unchanged p p' := by
    intro hpos
    obtain ⟨next, hnext⟩ := exists_next? hcount p.writeBufIdx
    refine ⟨EventCalls.halfPublished p next, ?_, ?_⟩
    · exact EventCalls.publish_failed_iff.mpr ⟨next, hnext, Or.inr ⟨hread, hpos, hwrite, rfl⟩⟩
    · intro hsame
      have hzero : 0 = p.writeEventFd := hsame.writeCredits
      omega
  cases c with
  | getWriteBuffer => exact hpublish hcredits
  | flush =>
      obtain ⟨p', hfailed, hchanged⟩ := hpublish hcredits
      exact ⟨p', EventCalls.sdPipeFlush_failed_iff.mpr ⟨hbegins, hfailed⟩, hchanged⟩
  | getReadBuffer =>
      obtain ⟨next, hnext⟩ := exists_next? hcount p.readBufIdx
      refine ⟨EventCalls.halfRead p next, ?_, ?_⟩
      · apply EventCalls.sdPipeGetReadBuffer_failed_iff.mpr
        exact Or.inr ⟨hread, hcredits, hwrite, next, hnext, rfl⟩
      · intro hsame
        have hzero : 0 = p.readEventFd := hsame.readCredits
        have hpos : 0 < p.readEventFd := hcredits
        omega

/-- A call that fails otherwise leaves the pipe as it was. -/
theorem eq_of_failed {c : PipeCall} {o : EventCalls} {p p' : SensorDataPipe}
    (h : ¬ LosesWrite c o p) (hfailed : c.run o p = some (.failed, p')) : p' = p := by
  have hpublish : c.Begins p → c.credits p = p.writeEventFd →
      o.publish p = some (.failed, p') → p' = p := by
    intro hbegins hcredits hfailed
    obtain ⟨next, hnext, ⟨-, hsame⟩ | ⟨hread, hpos, hwrite, -⟩⟩ :=
      EventCalls.publish_failed_iff.mp hfailed
    · exact hsame
    · exact absurd ⟨hbegins, count_ne_zero hnext, hcredits ▸ hpos, hread, hwrite⟩ h
  cases c with
  | getWriteBuffer => exact hpublish trivial rfl hfailed
  | flush =>
      obtain ⟨hbegins, hfailed⟩ := EventCalls.sdPipeFlush_failed_iff.mp hfailed
      exact hpublish hbegins rfl hfailed
  | getReadBuffer =>
      rcases EventCalls.sdPipeGetReadBuffer_failed_iff.mp hfailed with
        ⟨-, hsame⟩ | ⟨hread, hpos, hwrite, next, hnext, -⟩
      · exact hsame
      · exact absurd ⟨trivial, count_ne_zero hnext, hpos, hread, hwrite⟩ h

/-- A call is atomic on failure exactly if its write does not fail after its read. -/
theorem failsAtomically_iff (c : PipeCall) (o : EventCalls) (p : SensorDataPipe) :
    FailsAtomically c o p ↔ ¬ LosesWrite c o p := by
  constructor
  · intro hatomic hloses
    obtain ⟨p', hfailed, hchanged⟩ := exists_changed_of_losesWrite hloses
    exact hchanged (hatomic p' hfailed).1
  · intro hkeeps p' hfailed
    obtain rfl := eq_of_failed hkeeps hfailed
    exact ⟨unchanged_refl p', fun _ _ => rfl⟩

/-- The writer's call on a fresh pipe of two buffers: with the reader's descriptor
    refusing the write, the only credit is gone. -/
theorem failed_get_keeps_credit : ¬ ∀ (c : PipeCall) (o : EventCalls) (p : SensorDataPipe),
    FailsAtomically c o p := by
  intro h
  have hfailed : PipeCall.getWriteBuffer.run ⟨true, false⟩ (sdpCreate 2) =
      some (.failed, EventCalls.halfPublished (sdpCreate 2) 1) := rfl
  have hcredits : 0 = EventFd.write 0 1 :=
    (h .getWriteBuffer ⟨true, false⟩ (sdpCreate 2) _ hfailed).1.writeCredits
  exact absurd hcredits (by decide)

end Lmalloc.Pipe
