/-
  Lmalloc/Pipe/MbRun.lean
  =======================
  **The receive loop `MbRun` on a pipe, with a reader.**

  `MbRun` keeps the buffer it fills in the local `CurBuf`.  It takes a new one
  from `SdPipeGetWriteBuffer` when that is full, and every failure of the
  connection goes through `reconnect`, which calls `SdPipeFlush` and opens a new
  connection.  The flush moves `WriteBufIdx`; `CurBuf` keeps its value.

  The reader finishes each buffer before the writer's next pipe call, so a pipe
  call of either side is one step; between the reader's call and its finishing
  the writer may go on receiving.
-/
import Lmalloc.Pipe.Fifo

namespace Lmalloc.Pipe

open Lmalloc.Library

/-- The sizes the database has set, and the capacity of a buffer. -/
structure PipeSizes where
  packetSize : ℕ
  bufferMaxFill : ℕ
  bufSize : ℕ
deriving DecidableEq, Repr

inductive MbPc where
  | connecting   -- head of the outer loop
  | filling      -- head of the inner loop
  | receiving
  | reconnect
  | stopped
deriving DecidableEq, Repr

/-- How one round of receiving ends: the header timed out, something failed, or a
    frame came in and was parsed. -/
inductive Reception where
  | timeout
  | failed
  | frame (data : List UInt8)
deriving DecidableEq, Repr

/-- `MbRun` and the reader.  `reading` is the buffer the reader has got and not
    yet finished; `accepted` and `delivered` log the packets stored and the bytes
    read. -/
structure Receiver where
  pipe : SensorDataPipe
  curBuf : UInt32
  pc : MbPc
  reading : Option UInt32
  accepted : List (List UInt8)
  delivered : List UInt8

/-- The buffer the reader has still to finish: the one it is reading, or the one
    it has been told of. -/
def SensorDataPipe.unfinished (p : SensorDataPipe) : Option UInt32 → Option UInt32
  | some i => some i
  | none => if 0 < p.readEventFd then some p.readBufIdx else none

inductive MbStep where
  | prepareCtx (ok : Bool)     -- `MbPrepareCtx`; it is retried until it succeeds
  | checkFill
  | receive (r : Reception)
  | flush
  | shutdown                   -- `SdbShouldShutdown()` holds at a loop head
  | read
  | finish
deriving DecidableEq, Repr

namespace Receiver

/-- `CurBuf = Pipe->Buffers[WriteBufIdx]` before the loop. -/
def init (bufCount : UInt64) : Receiver :=
  ⟨sdpCreate bufCount, (sdpCreate bufCount).writeBufIdx, .connecting, none, [], []⟩

/-- Store a frame of the right size; an arena without room returns `NULL`, and
    the copy that follows has no defined behaviour. -/
def accept (sizes : PipeSizes) (s : Receiver) (data : List UInt8) : Option Receiver :=
  if data.length ≠ sizes.packetSize then some { s with pc := .reconnect }
  else if (s.pipe.buffers s.curBuf).length + data.length ≤ sizes.bufSize then
    some { s with
      pipe := s.pipe.append s.curBuf data
      pc := .filling
      accepted := s.accepted ++ [data] }
  else none

def step (sizes : PipeSizes) (s : Receiver) : MbStep → Option Receiver
  | .prepareCtx ok =>
      if s.pc = .connecting then some { s with pc := if ok then .filling else .connecting }
      else none
  | .checkFill =>
      if s.pc = .filling then
        if (s.pipe.buffers s.curBuf).length = sizes.bufferMaxFill then
          if s.reading = none then
            (sdPipeGetWriteBuffer s.pipe).map fun r =>
              { s with pipe := r.2, curBuf := r.1, pc := .receiving }
          else none
        else some { s with pc := .receiving }
      else none
  | .receive r =>
      if s.pc = .receiving then
        match r with
        | .timeout => some { s with pc := .filling }
        | .failed => some { s with pc := .reconnect }
        | .frame data => s.accept sizes data
      else none
  | .flush =>
      if s.pc = .reconnect ∧ s.reading = none then
        (sdPipeFlush s.pipe).map fun p => { s with pipe := p, pc := .connecting }
      else none
  | .shutdown =>
      match s.pc with
      | .connecting => some { s with pc := .stopped }
      | .filling => some { s with pc := .reconnect }
      | _ => none
  | .read =>
      if s.reading = none then
        (sdPipeGetReadBuffer s.pipe).map fun r => { s with pipe := r.2, reading := some r.1 }
      else none
  | .finish =>
      s.reading.map fun i =>
        { s with reading := none, delivered := s.delivered ++ s.pipe.buffers i }

def unfinished (s : Receiver) : Option UInt32 := s.pipe.unfinished s.reading

/-- What has been read is the first packets accepted; between two connections, if
    the reader has drained the pipe, it is all of them. -/
def ExactlyOnce (s : Receiver) : Prop :=
  (∃ k, s.delivered = (s.accepted.take k).flatten) ∧
    (s.pc = .connecting → s.unfinished = none → s.delivered = s.accepted.flatten)

/-- `CurBuf` is the current write buffer, or is published and not yet finished. -/
def InPipe (s : Receiver) : Prop :=
  s.curBuf = s.pipe.writeBufIdx ∨ s.unfinished = some s.curBuf

instance (s : Receiver) : Decidable s.InPipe :=
  inferInstanceAs (Decidable (s.curBuf = s.pipe.writeBufIdx ∨ s.unfinished = some s.curBuf))

/-- A packet that is accepted goes into a buffer still in the pipe. -/
def StoresInPipe (sizes : PipeSizes) (s : Receiver) : MbStep → Prop
  | .receive (.frame data) => data.length = sizes.packetSize → s.InPipe
  | _ => True

instance (sizes : PipeSizes) (s : Receiver) : DecidablePred (s.StoresInPipe sizes)
  | .receive (.frame data) => inferInstanceAs (Decidable (data.length = sizes.packetSize → s.InPipe))
  | .receive .timeout | .receive .failed | .prepareCtx _ | .checkFill | .flush | .shutdown
  | .read | .finish => inferInstanceAs (Decidable True)

end Receiver

end Lmalloc.Pipe
