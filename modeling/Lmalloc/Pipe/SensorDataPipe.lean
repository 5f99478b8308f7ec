/-
  Lmalloc/Pipe/SensorDataPipe.lean
  ================================
  **The sensor data pipe of `SensorDataPipe.c`.**

  `BufCount` buffers are passed round between one writer and one reader.  Two
  event descriptors carry the hand-over: the reader's counts published buffers,
  the writer's counts free ones, and each of them is drained by a read.

  The three calls are modelled twice.  `sdPipeGetWriteBuffer`,
  `sdPipeGetReadBuffer` and `sdPipeFlush` run a whole call at once.  The machine
  `step` runs the two threads interleaved, one atomic or event operation at a
  time; `run_get`, `run_read` and `run_flush` say that a call the other thread
  does not interrupt is the whole function.

  A buffer is its contents `[0, ArenaPos)`.  System calls succeed; a read of an
  empty event counter blocks, which is the absence of a step.  The remainder by
  `(u32)BufCount` is undefined when that is 0, and then there is no step either.
-/
import Lmalloc.Library.EventFd
import Lmalloc.Library.Ring
import Lmalloc.Library.Run

namespace Lmalloc.Pipe

open Lmalloc.Library

/-- `sensor_data_pipe`, without the sizes the database sets. -/
structure SensorDataPipe where
  bufCount : UInt64
  writeBufIdx : UInt32
  readBufIdx : UInt32
  fullBuffersCount : UInt32
  readEventFd : ℕ     -- the counter behind the descriptor
  writeEventFd : ℕ
  buffers : UInt32 → List UInt8

/-- `SdpCreate`: all buffers empty, `BufCount - 1` free ones announced. -/
def sdpCreate (bufCount : UInt64) : SensorDataPipe where
  bufCount := bufCount
  writeBufIdx := 0
  readBufIdx := 0
  fullBuffersCount := 0
  readEventFd := 0
  writeEventFd := EventFd.write 0 (bufCount - 1).toNat
  buffers := fun _ => []

namespace SensorDataPipe

def count (p : SensorDataPipe) : UInt32 := p.bufCount.toUInt32

/-- `(Cur + 1) % (u32)BufCount`. -/
def next? (p : SensorDataPipe) (cur : UInt32) : Option UInt32 :=
  if p.count = 0 then none else some ((cur + 1) % p.count)

/-- The index after the one a counter `k` is at is the one `k + 1` is at. -/
theorem next?_at {p : SensorDataPipe} {cur next : UInt32} {k : ℕ} (h : p.next? cur = some next)
    (hcur : cur.toNat = k % p.count.toNat) : next.toNat = (k + 1) % p.count.toNat := by
  unfold next? at h
  split at h
  · cases h
  · next hne =>
    cases h
    have hpos : (0 : UInt32) < p.count := UInt32.pos_iff_ne_zero.mpr hne
    exact Ring.next_index (UInt32.lt_iff_toNat_lt.mp hpos) hcur

def freeBuffer (p : SensorDataPipe) (i : UInt32) : SensorDataPipe :=
  { p with buffers := Function.update p.buffers i [] }

def append (p : SensorDataPipe) (i : UInt32) (bytes : List UInt8) : SensorDataPipe :=
  { p with buffers := Function.update p.buffers i (p.buffers i ++ bytes) }

@[simp] theorem buffers_append_same (p : SensorDataPipe) (i : UInt32) (bytes : List UInt8) :
    (p.append i bytes).buffers i = p.buffers i ++ bytes :=
  Function.update_self _ _ _

theorem buffers_append_other (p : SensorDataPipe) {i j : UInt32} (h : j ≠ i)
    (bytes : List UInt8) : (p.append i bytes).buffers j = p.buffers j :=
  Function.update_of_ne h _ _

end SensorDataPipe

/-! ### Whole calls -/

/-- What `SdPipeGetWriteBuffer` and `SdPipeFlush` have in common. -/
def publish (p : SensorDataPipe) : Option (UInt32 × SensorDataPipe) :=
  (p.next? p.writeBufIdx).bind fun nextWriteBuf =>
    (EventFd.read p.writeEventFd).map fun r =>
      (nextWriteBuf,
        SensorDataPipe.freeBuffer
          { p with
            writeEventFd := r.2
            writeBufIdx := nextWriteBuf
            fullBuffersCount := p.fullBuffersCount + 1
            readEventFd := EventFd.write p.readEventFd 1 }
          nextWriteBuf)

/-- `SdPipeGetWriteBuffer`: the index of the buffer returned. -/
def sdPipeGetWriteBuffer (p : SensorDataPipe) : Option (UInt32 × SensorDataPipe) := publish p

def sdPipeFlush (p : SensorDataPipe) : Option SensorDataPipe :=
  if p.buffers p.writeBufIdx ≠ [] then (publish p).map fun r => r.2 else some p

def sdPipeGetReadBuffer (p : SensorDataPipe) : Option (UInt32 × SensorDataPipe) :=
  (EventFd.read p.readEventFd).bind fun r =>
    (p.next? p.readBufIdx).map fun nextReadBuf =>
      (p.readBufIdx,
        { p with
          readEventFd := r.2
          readBufIdx := nextReadBuf
          fullBuffersCount := p.fullBuffersCount - 1
          writeEventFd := EventFd.write p.writeEventFd 1 })

/-! ### The two threads, one operation at a time -/

/-- Where the writer is.  `loaded` is reached by both of its calls; after
    `signalled` only the `ArenaFree` of the new buffer is left. -/
inductive WriterPc where
  | idle
  | flushing (cur : UInt32)        -- `CurrentBuf` chosen, position not yet read
  | loaded (cur next : UInt32)     -- about to read `WriteEventFd`
  | gotSlot (cur next : UInt32)    -- about to store `WriteBufIdx`
  | stored (cur next : UInt32)     -- about to add to `FullBuffersCount`
  | counted (cur next : UInt32)    -- about to write `ReadEventFd`
  | signalled (next : UInt32)      -- about to free the new buffer
deriving DecidableEq, Repr

/-- Where the reader is; between its calls it owns the buffer it got. -/
inductive ReaderPc where
  | idle
  | called                   -- about to read `ReadEventFd`
  | gotToken                 -- about to load `ReadBufIdx`
  | loaded (cur : UInt32)    -- about to store `ReadBufIdx`
  | stored (cur : UInt32)    -- about to subtract from `FullBuffersCount`
  | subbed (cur : UInt32)    -- about to write `WriteEventFd`
  | owns (cur : UInt32)
deriving DecidableEq, Repr

/-- Both threads on one pipe; `published` and `reads` log the buffers handed over
    and the buffers returned, in order. -/
structure Threads where
  pipe : SensorDataPipe
  writer : WriterPc
  reader : ReaderPc
  published : List ℕ
  reads : List ℕ

/-- The moves of the scheduler: a thread starts a call, or takes the next
    operation of the call it is in; between calls the writer fills its buffer. -/
inductive Move where
  | fill (bytes : List UInt8)
  | getWrite
  | flush
  | writer
  | getRead
  | reader
deriving DecidableEq, Repr

def Threads.init (bufCount : UInt64) : Threads :=
  ⟨sdpCreate bufCount, .idle, .idle, [], []⟩

/-- `CurWriteBuf = atomic_load(&WriteBufIdx)` and the successor computed from it. -/
def Threads.loadWrite (s : Threads) : Option Threads :=
  (s.pipe.next? s.pipe.writeBufIdx).map fun next =>
    { s with writer := .loaded s.pipe.writeBufIdx next }

def Threads.stepWriter (s : Threads) : Option Threads :=
  match s.writer with
  | .idle => none
  | .flushing cur =>
      if s.pipe.buffers cur ≠ [] then s.loadWrite else some { s with writer := .idle }
  | .loaded cur next =>
      (EventFd.read s.pipe.writeEventFd).map fun r =>
        { s with pipe := { s.pipe with writeEventFd := r.2 }, writer := .gotSlot cur next }
  | .gotSlot cur next =>
      some { s with pipe := { s.pipe with writeBufIdx := next }, writer := .stored cur next }
  | .stored cur next =>
      some { s with
        pipe := { s.pipe with fullBuffersCount := s.pipe.fullBuffersCount + 1 }
        writer := .counted cur next }
  | .counted cur next =>
      some { s with
        pipe := { s.pipe with readEventFd := EventFd.write s.pipe.readEventFd 1 }
        writer := .signalled next
        published := s.published ++ [cur.toNat] }
  | .signalled next => some { s with pipe := s.pipe.freeBuffer next, writer := .idle }

def Threads.stepReader (s : Threads) : Option Threads :=
  match s.reader with
  | .idle => none
  | .called =>
      (EventFd.read s.pipe.readEventFd).map fun r =>
        { s with pipe := { s.pipe with readEventFd := r.2 }, reader := .gotToken }
  | .gotToken => some { s with reader := .loaded s.pipe.readBufIdx }
  | .loaded cur =>
      (s.pipe.next? cur).map fun next =>
        { s with pipe := { s.pipe with readBufIdx := next }, reader := .stored cur }
  | .stored cur =>
      some { s with
        pipe := { s.pipe with fullBuffersCount := s.pipe.fullBuffersCount - 1 }
        reader := .subbed cur }
  | .subbed cur =>
      some { s with
        pipe := { s.pipe with writeEventFd := EventFd.write s.pipe.writeEventFd 1 }
        reader := .owns cur
        reads := s.reads ++ [cur.toNat] }
  | .owns _ => none

def Threads.step (s : Threads) : Move → Option Threads
  | .fill bytes =>
      if s.writer = .idle then some { s with pipe := s.pipe.append s.pipe.writeBufIdx bytes }
      else none
  | .getWrite => if s.writer = .idle then s.loadWrite else none
  | .flush =>
      if s.writer = .idle then some { s with writer := .flushing s.pipe.writeBufIdx } else none
  | .writer => s.stepWriter
  | .getRead =>
      match s.reader with
      | .idle | .owns _ => some { s with reader := .called }
      | _ => none
  | .reader => s.stepReader

/-! ### A call that is not interrupted -/

section Uninterrupted

variable {p p' : SensorDataPipe} {r : ReaderPc} {w : WriterPc} {ps rs : List ℕ}

/-- The operations of the writer from the read of its event descriptor on. -/
def publishMoves : List Move := [.writer, .writer, .writer, .writer, .writer]

/-- A pipe call of the writer can be made when a slot is free. -/
theorem publish_eq_some_iff {next : UInt32} :
    publish p = some (next, p') ↔
      p.next? p.writeBufIdx = some next ∧ 0 < p.writeEventFd ∧
        p' = SensorDataPipe.freeBuffer
          { p with
            writeEventFd := 0
            writeBufIdx := next
            fullBuffersCount := p.fullBuffersCount + 1
            readEventFd := EventFd.write p.readEventFd 1 }
          next := by
  simp only [publish, Option.bind_eq_some_iff, Option.map_eq_some_iff]
  constructor
  · rintro ⟨next', hnext, ⟨v, c⟩, hread, heq⟩
    obtain ⟨hpos, rfl, rfl⟩ := EventFd.read_eq_some_iff.mp hread
    cases heq
    exact ⟨hnext, hpos, rfl⟩
  · rintro ⟨hnext, hpos, rfl⟩
    exact ⟨next, hnext, (p.writeEventFd, 0), EventFd.read_eq_some_iff.mpr ⟨hpos, rfl, rfl⟩, rfl⟩

/-- A call of the reader can be made when a buffer is announced. -/
theorem getRead_eq_some_iff {cur : UInt32} :
    sdPipeGetReadBuffer p = some (cur, p') ↔
      cur = p.readBufIdx ∧ 0 < p.readEventFd ∧ ∃ next, p.next? p.readBufIdx = some next ∧
        p' = { p with
          readEventFd := 0
          readBufIdx := next
          fullBuffersCount := p.fullBuffersCount - 1
          writeEventFd := EventFd.write p.writeEventFd 1 } := by
  simp only [sdPipeGetReadBuffer, Option.bind_eq_some_iff, Option.map_eq_some_iff]
  constructor
  · rintro ⟨⟨v, c⟩, hread, next, hnext, heq⟩
    obtain ⟨hpos, rfl, rfl⟩ := EventFd.read_eq_some_iff.mp hread
    cases heq
    exact ⟨rfl, hpos, next, hnext, rfl⟩
  · rintro ⟨rfl, hpos, next, hnext, rfl⟩
    exact ⟨(p.readEventFd, 0), EventFd.read_eq_some_iff.mpr ⟨hpos, rfl, rfl⟩, next, hnext, rfl⟩

theorem run_publish {next : UInt32} (h : publish p = some (next, p')) :
    run Threads.step ⟨p, .loaded p.writeBufIdx next, r, ps, rs⟩ publishMoves =
      some ⟨p', .idle, r, ps ++ [p.writeBufIdx.toNat], rs⟩ := by
  obtain ⟨_, hpos, rfl⟩ := publish_eq_some_iff.mp h
  have hread : EventFd.read p.writeEventFd = some (p.writeEventFd, 0) :=
    EventFd.read_eq_some_iff.mpr ⟨hpos, rfl, rfl⟩
  simp [publishMoves, run, Threads.step, Threads.stepWriter, hread]

/-- **`SdPipeGetWriteBuffer`, uninterrupted.** -/
theorem run_get {next : UInt32} (h : sdPipeGetWriteBuffer p = some (next, p')) :
    run Threads.step ⟨p, .idle, r, ps, rs⟩ (.getWrite :: publishMoves) =
      some ⟨p', .idle, r, ps ++ [p.writeBufIdx.toNat], rs⟩ := by
  have hnext := (publish_eq_some_iff.mp h).1
  have hload : Threads.step ⟨p, .idle, r, ps, rs⟩ .getWrite =
      some ⟨p, .loaded p.writeBufIdx next, r, ps, rs⟩ := by
    simp [Threads.step, Threads.loadWrite, hnext]
  rw [run_cons_of_step hload]
  exact run_publish h

/-- **`SdPipeFlush`, uninterrupted**: on an empty buffer it is the two loads alone. -/
theorem run_flush (h : sdPipeFlush p = some p') :
    ∃ moves ps', run Threads.step ⟨p, .idle, r, ps, rs⟩ (.flush :: .writer :: moves) =
      some ⟨p', .idle, r, ps', rs⟩ := by
  unfold sdPipeFlush at h
  split at h
  · next hfull =>
    obtain ⟨⟨next, p''⟩, hpub, rfl⟩ := Option.map_eq_some_iff.mp h
    have hnext := (publish_eq_some_iff.mp hpub).1
    have hload : run Threads.step ⟨p, .idle, r, ps, rs⟩ [.flush, .writer] =
        some ⟨p, .loaded p.writeBufIdx next, r, ps, rs⟩ := by
      simp [run, Threads.step, Threads.stepWriter, Threads.loadWrite, hfull, hnext]
    exact ⟨publishMoves, _, (run_append hload publishMoves).trans (run_publish hpub)⟩
  · next hempty =>
    cases h
    refine ⟨[], ps, ?_⟩
    simp only [ne_eq, not_not] at hempty
    simp [run, Threads.step, Threads.stepWriter, hempty]

/-- **`SdPipeGetReadBuffer`, uninterrupted.** -/
theorem run_read {cur : UInt32} (hr : r = .idle ∨ ∃ b, r = .owns b)
    (h : sdPipeGetReadBuffer p = some (cur, p')) :
    run Threads.step ⟨p, w, r, ps, rs⟩
        [.getRead, .reader, .reader, .reader, .reader, .reader] =
      some ⟨p', w, .owns cur, ps, rs ++ [cur.toNat]⟩ := by
  obtain ⟨rfl, hpos, next, hnext, rfl⟩ := getRead_eq_some_iff.mp h
  have hread : EventFd.read p.readEventFd = some (p.readEventFd, 0) :=
    EventFd.read_eq_some_iff.mpr ⟨hpos, rfl, rfl⟩
  have hcall : Threads.step ⟨p, w, r, ps, rs⟩ .getRead = some ⟨p, w, .called, ps, rs⟩ := by
    rcases hr with rfl | ⟨b, rfl⟩
    · rfl
    · rfl
  have hnext' : ∀ e, ({ p with readEventFd := e } : SensorDataPipe).next? p.readBufIdx =
      some next := fun _ => hnext
  rw [run_cons_of_step hcall]
  simp [run, Threads.step, Threads.stepReader, hread, hnext']

end Uninterrupted

end Lmalloc.Pipe
