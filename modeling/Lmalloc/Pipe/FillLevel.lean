/-
  Lmalloc/Pipe/FillLevel.lean
  ===========================
  **How full the buffers of the pipe get.**

  `PgPrepareCtx` makes `BufferMaxFill` the largest multiple of the packet size that
  fits a buffer.  `MbRun` appends whole packets, and looks at the fill of `CurBuf`
  before each one; `PgRun` asserts that a buffer it reads holds whole packets.

  Here the two threads run with every pipe call cut into its operations, so the
  reader may be anywhere while the writer is in a call, and `CurBuf` may be a
  buffer that a flush has already published.
-/
import Lmalloc.Pipe.MbRun

namespace Lmalloc.Pipe

open Lmalloc.Library

/-- The sizes that `PgPrepareCtx` stores in the pipe. -/
def pgPrepareSizes (rowSize cap : UInt64) : PipeSizes :=
  let itemMaxCount := cap / rowSize
  { packetSize := rowSize.toNat
    bufferMaxFill := (rowSize * itemMaxCount).toNat
    bufSize := cap.toNat }

/-- Where `MbRun` is; in `getting` and `flushing` it is inside a call of the pipe. -/
inductive FillPc where
  | connecting
  | filling
  | getting
  | receiving
  | reconnect
  | flushing
  | stopped
deriving DecidableEq, Repr

/-- `MbRun` and `PgRun` on one pipe. -/
structure Filling where
  threads : Threads
  curBuf : UInt32
  pc : FillPc

inductive FillStep where
  | prepareCtx (ok : Bool)
  | checkFill
  | writer                     -- the next operation of the pipe call `MbRun` is in
  | receive (r : Reception)
  | flush
  | shutdown
  | getRead
  | reader                     -- the next operation of the pipe call `PgRun` is in
deriving DecidableEq, Repr

namespace Filling

def init (bufCount : UInt64) : Filling :=
  ⟨Threads.init bufCount, (sdpCreate bufCount).writeBufIdx, .connecting⟩

/-- `ArenaPos` of a buffer. -/
def pos (s : Filling) (i : UInt32) : ℕ := (s.threads.pipe.buffers i).length

def append (s : Filling) (data : List UInt8) : Filling :=
  { s with threads := { s.threads with pipe := s.threads.pipe.append s.curBuf data } }

/-- A frame that has been parsed; the copy to a null pointer has no result. -/
def accept (sizes : PipeSizes) (s : Filling) (data : List UInt8) : Option Filling :=
  if data.length ≠ sizes.packetSize then some { s with pc := .reconnect }
  else if s.pos s.curBuf + data.length ≤ sizes.bufSize then
    some { s.append data with pc := .filling }
  else none

/-- The buffer that `SdPipeGetWriteBuffer` is about to return. -/
def returned (s : Filling) : UInt32 :=
  match s.threads.writer with
  | .signalled next => next
  | _ => s.curBuf

def stepCall (s : Filling) : Option Filling :=
  s.threads.stepWriter.map fun t =>
    if t.writer = .idle then
      match s.pc with
      | .getting => { threads := t, curBuf := s.returned, pc := .receiving }
      | _ => { s with threads := t, pc := .connecting }
    else { s with threads := t }

def step (sizes : PipeSizes) (s : Filling) : FillStep → Option Filling
  | .prepareCtx ok =>
      if s.pc = .connecting then some { s with pc := if ok then .filling else .connecting }
      else none
  | .checkFill =>
      if s.pc = .filling then
        if s.pos s.curBuf = sizes.bufferMaxFill then
          (s.threads.step .getWrite).map fun t => { s with threads := t, pc := .getting }
        else some { s with pc := .receiving }
      else none
  | .writer => if s.pc = .getting ∨ s.pc = .flushing then s.stepCall else none
  | .receive r =>
      if s.pc = .receiving then
        match r with
        | .timeout => some { s with pc := .filling }
        | .failed => some { s with pc := .reconnect }
        | .frame data => s.accept sizes data
      else none
  | .flush =>
      if s.pc = .reconnect then
        (s.threads.step .flush).map fun t => { s with threads := t, pc := .flushing }
      else none
  | .shutdown =>
      match s.pc with
      | .connecting => some { s with pc := .stopped }
      | .filling => some { s with pc := .reconnect }
      | _ => none
  | .getRead => (s.threads.step .getRead).map fun t => { s with threads := t }
  | .reader => (s.threads.step .reader).map fun t => { s with threads := t }

/-! ### What is claimed -/

/-- Every buffer holds whole packets, and no more than `BufferMaxFill`. -/
def Filled (sizes : PipeSizes) (s : Filling) : Prop :=
  ∀ i, sizes.packetSize ∣ s.pos i ∧ s.pos i ≤ sizes.bufferMaxFill

/-- The assertion of `PgRun`, which may be evaluated as long as it has the buffer. -/
def ReaderAsserts (sizes : PipeSizes) (s : Filling) : Prop :=
  ∀ cur, s.threads.reader = .owns cur → s.pos cur % sizes.packetSize = 0

/-- The assertion of `MbRun` holds where it is evaluated, and `ArenaAlloc` has room. -/
def Asserts (sizes : PipeSizes) (s : Filling) : FillStep → Prop
  | .checkFill => s.pc = .filling → s.pos s.curBuf ≤ sizes.bufferMaxFill
  | .receive (.frame data) => s.pc = .receiving → data.length = sizes.packetSize →
      s.pos s.curBuf + data.length ≤ sizes.bufSize
  | _ => True

/-! ### The buffers during the calls of the pipe -/

section Buffers

variable {t t' : Threads}

theorem buffers_loadWrite (h : t.loadWrite = some t') :
    t'.pipe = t.pipe ∧ ∀ cur, t'.writer ≠ .flushing cur := by
  simp only [Threads.loadWrite, Option.map_eq_some_iff] at h
  obtain ⟨next, _, rfl⟩ := h
  exact ⟨rfl, fun cur hcur => by cases hcur⟩

/-- An operation of the writer leaves a buffer as it is or empties it. -/
theorem buffers_stepWriter (h : t.stepWriter = some t') (i : UInt32) :
    t'.pipe.buffers i = t.pipe.buffers i ∨ t'.pipe.buffers i = [] := by
  unfold Threads.stepWriter at h
  split at h
  next => cases h
  next cur hpc =>
    split at h
    · rw [(buffers_loadWrite h).1]
      exact Or.inl rfl
    · cases h
      exact Or.inl rfl
  next cur next hpc =>
    obtain ⟨r, _, rfl⟩ := Option.map_eq_some_iff.mp h
    exact Or.inl rfl
  next cur next hpc =>
    cases h
    exact Or.inl rfl
  next cur next hpc =>
    cases h
    exact Or.inl rfl
  next cur next hpc =>
    cases h
    exact Or.inl rfl
  next next hpc =>
    cases h
    by_cases hi : i = next
    · rw [hi]
      exact Or.inr (Function.update_self _ _ _)
    · exact Or.inl (Function.update_of_ne hi _ _)

/-- A call that began with the load of `WriteBufIdx` ends after the new buffer has
    been emptied. -/
theorem stepWriter_of_not_flushing (h : t.stepWriter = some t')
    (hcall : ∀ cur, t.writer ≠ .flushing cur) :
    (∀ cur, t'.writer ≠ .flushing cur) ∧
      (t'.writer = .idle → ∃ next, t.writer = .signalled next ∧ t'.pipe.buffers next = []) := by
  unfold Threads.stepWriter at h
  split at h
  next => cases h
  next cur hpc => exact absurd hpc (hcall cur)
  next cur next hpc =>
    obtain ⟨r, _, rfl⟩ := Option.map_eq_some_iff.mp h
    exact ⟨fun _ hw => (by cases hw), fun hw => (by cases hw)⟩
  next cur next hpc =>
    cases h
    exact ⟨fun _ hw => (by cases hw), fun hw => (by cases hw)⟩
  next cur next hpc =>
    cases h
    exact ⟨fun _ hw => (by cases hw), fun hw => (by cases hw)⟩
  next cur next hpc =>
    cases h
    exact ⟨fun _ hw => (by cases hw), fun hw => (by cases hw)⟩
  next next hpc =>
    cases h
    exact ⟨fun _ hw => (by cases hw), fun _ => ⟨next, hpc, Function.update_self _ _ _⟩⟩

/-- The reader writes to no buffer and moves nothing of the writer. -/
theorem stepReader_frame (h : t.stepReader = some t') :
    t'.pipe.buffers = t.pipe.buffers ∧ t'.writer = t.writer := by
  unfold Threads.stepReader at h
  split at h
  next => cases h
  next hpc =>
    obtain ⟨r, _, rfl⟩ := Option.map_eq_some_iff.mp h
    exact ⟨rfl, rfl⟩
  next hpc =>
    cases h
    exact ⟨rfl, rfl⟩
  next cur hpc =>
    obtain ⟨next, _, rfl⟩ := Option.map_eq_some_iff.mp h
    exact ⟨rfl, rfl⟩
  next cur hpc =>
    cases h
    exact ⟨rfl, rfl⟩
  next cur hpc =>
    cases h
    exact ⟨rfl, rfl⟩
  next cur hpc => cases h

theorem getRead_frame (h : t.step .getRead = some t') :
    t'.pipe = t.pipe ∧ t'.writer = t.writer := by
  simp only [Threads.step] at h
  split at h
  · cases h
    exact ⟨rfl, rfl⟩
  · cases h
    exact ⟨rfl, rfl⟩
  · cases h

end Buffers

/-! ### The invariant -/

/-- Where a frame may come in there is room for it, and a call for a new buffer is not
    a flush. -/
structure Sound (sizes : PipeSizes) (s : Filling) : Prop where
  filled : s.Filled sizes
  receiving : s.pc = .receiving → s.pos s.curBuf < sizes.bufferMaxFill
  getting : s.pc = .getting → ∀ cur, s.threads.writer ≠ .flushing cur

/-- The sizes fit together. -/
structure Fit (sizes : PipeSizes) : Prop where
  packet_pos : 0 < sizes.packetSize
  packet_dvd : sizes.packetSize ∣ sizes.bufferMaxFill
  max_pos : 0 < sizes.bufferMaxFill
  max_le : sizes.bufferMaxFill ≤ sizes.bufSize

theorem fit_pgPrepareSizes {rowSize cap : UInt64} (hpos : 0 < rowSize) (hle : rowSize ≤ cap) :
    Fit (pgPrepareSizes rowSize cap) := by
  have hposNat : 0 < rowSize.toNat := UInt64.lt_iff_toNat_lt.mp hpos
  have hleNat : rowSize.toNat ≤ cap.toNat := UInt64.le_iff_toNat_le.mp hle
  have hmul : rowSize.toNat * (cap.toNat / rowSize.toNat) ≤ cap.toNat :=
    Nat.mul_div_le cap.toNat rowSize.toNat
  have hmax : (pgPrepareSizes rowSize cap).bufferMaxFill =
      rowSize.toNat * (cap.toNat / rowSize.toNat) := by
    have hlt := cap.toNat_lt
    simp only [pgPrepareSizes, UInt64.toNat_mul, UInt64.toNat_div]
    exact Nat.mod_eq_of_lt (Nat.lt_of_le_of_lt hmul hlt)
  refine ⟨hposNat, ?_, ?_, ?_⟩
  · rw [hmax]
    exact Nat.dvd_mul_right _ _
  · rw [hmax]
    exact Nat.mul_pos hposNat (Nat.div_pos hleNat hposNat)
  · rw [hmax]
    exact hmul

section Invariant

variable {sizes : PipeSizes} {s s' : Filling}

theorem sound_init (N : UInt64) (sizes : PipeSizes) : Sound sizes (init N) := by
  refine ⟨fun i => ⟨Nat.dvd_zero _, Nat.zero_le _⟩, ?_, ?_⟩
  · intro h
    cases h
  · intro h
    cases h

/-- Emptying buffers keeps them filled right. -/
theorem Filled.of_emptied (h : s.Filled sizes)
    (hbuf : ∀ i, s'.threads.pipe.buffers i = s.threads.pipe.buffers i ∨
      s'.threads.pipe.buffers i = []) : s'.Filled sizes := by
  intro i
  rcases hbuf i with hsame | hempty
  · rw [pos, hsame]
    exact h i
  · rw [pos, hempty]
    exact ⟨Nat.dvd_zero _, Nat.zero_le _⟩

/-- Away from the two places that it speaks of, the invariant is about the buffers. -/
theorem Filled.sound (h : s.Filled sizes) (hreceiving : s.pc ≠ .receiving)
    (hgetting : s.pc ≠ .getting) : s.Sound sizes :=
  ⟨h, fun hpc => absurd hpc hreceiving, fun hpc => absurd hpc hgetting⟩

/-- There is room for a packet in a buffer that is not full. -/
theorem Sound.room (h : s.Sound sizes) (hfit : Fit sizes) (hpc : s.pc = .receiving) :
    s.pos s.curBuf + sizes.packetSize ≤ sizes.bufferMaxFill := by
  obtain ⟨k, hk⟩ := (h.filled s.curBuf).1
  obtain ⟨n, hn⟩ := hfit.packet_dvd
  have hlt := h.receiving hpc
  rw [hk, hn] at hlt ⊢
  have hkn : k < n := Nat.lt_of_mul_lt_mul_left hlt
  calc sizes.packetSize * k + sizes.packetSize = sizes.packetSize * (k + 1) := by ring
    _ ≤ sizes.packetSize * n := Nat.mul_le_mul_left _ hkn

theorem sound_accept (h : s.Sound sizes) (hfit : Fit sizes) (hpc : s.pc = .receiving)
    {data : List UInt8} (hs : s.accept sizes data = some s') : s'.Sound sizes := by
  simp only [accept] at hs
  by_cases hlen : data.length = sizes.packetSize
  · rw [if_neg (not_not.mpr hlen)] at hs
    split at hs
    · cases hs
      refine Filled.sound ?_ (by simp) (by simp)
      intro i
      by_cases hi : i = s.curBuf
      · have hnew : Filling.pos { s.append data with pc := .filling } i =
            s.pos s.curBuf + sizes.packetSize := by
          rw [hi, ← hlen]
          simp [pos, append]
        rw [hnew]
        exact ⟨Nat.dvd_add (h.filled s.curBuf).1 (Nat.dvd_refl _), h.room hfit hpc⟩
      · have hold : Filling.pos { s.append data with pc := .filling } i = s.pos i :=
          congrArg List.length (s.threads.pipe.buffers_append_other hi data)
        rw [hold]
        exact h.filled i
    · cases hs
  · rw [if_pos hlen] at hs
    cases hs
    exact Filled.sound h.filled (by simp) (by simp)

theorem sound_stepCall (h : s.Sound sizes) (hfit : Fit sizes)
    (hpc : s.pc = .getting ∨ s.pc = .flushing) (hs : s.stepCall = some s') : s'.Sound sizes := by
  simp only [stepCall, Option.map_eq_some_iff] at hs
  obtain ⟨t, ht, rfl⟩ := hs
  have hfilled : ∀ cur pc, Filled sizes ⟨t, cur, pc⟩ :=
    fun cur pc => h.filled.of_emptied (buffers_stepWriter ht)
  rcases hpc with hget | hflush
  · obtain ⟨hcall, hend⟩ := stepWriter_of_not_flushing ht (h.getting hget)
    simp only [hget]
    split
    · next hidle =>
      obtain ⟨next, hsignalled, hempty⟩ := hend hidle
      refine ⟨hfilled _ _, fun _ => ?_, fun hpc => (by cases hpc)⟩
      have hreturned : s.returned = next := by rw [returned, hsignalled]
      simp only [pos, hreturned, hempty]
      exact hfit.max_pos
    · exact ⟨hfilled _ _, fun hpc => (by cases hpc), fun _ => hcall⟩
  · simp only [hflush]
    split
    · exact Filled.sound (hfilled _ _) (by simp) (by simp)
    · exact Filled.sound (hfilled _ _) (by simp) (by simp)

/-- An operation of the reader. -/
theorem sound_of_frame (h : s.Sound sizes) {t : Threads}
    (hbuf : t.pipe.buffers = s.threads.pipe.buffers) (hwriter : t.writer = s.threads.writer) :
    Sound sizes { s with threads := t } := by
  refine ⟨h.filled.of_emptied fun i => Or.inl (by rw [hbuf]), fun hpc => ?_, fun hpc => ?_⟩
  · simp only [pos, hbuf]
    exact h.receiving hpc
  · rw [hwriter]
    exact h.getting hpc

/-- At the fill level the call to `SdPipeGetWriteBuffer` begins; below it there is room. -/
theorem sound_checkFill (h : s.Sound sizes) (hs : s.step sizes .checkFill = some s') :
    s'.Sound sizes := by
  obtain ⟨-, hs⟩ := Option.ite_none_right_eq_some.mp hs
  split at hs
  · obtain ⟨t, ht, rfl⟩ := Option.map_eq_some_iff.mp hs
    obtain ⟨-, ht⟩ := Option.ite_none_right_eq_some.mp ht
    obtain ⟨hpipe, hcall⟩ := buffers_loadWrite ht
    exact ⟨h.filled.of_emptied fun i => Or.inl (by rw [hpipe]), fun hpc => (by cases hpc),
      fun _ => hcall⟩
  · next hfull =>
    cases hs
    refine ⟨h.filled, fun _ => ?_, fun hpc => (by cases hpc)⟩
    exact Nat.lt_of_le_of_ne (h.filled s.curBuf).2 hfull

theorem sound_receive (h : s.Sound sizes) (hfit : Fit sizes) {r : Reception}
    (hs : s.step sizes (.receive r) = some s') : s'.Sound sizes := by
  obtain ⟨hpc, hs⟩ := Option.ite_none_right_eq_some.mp hs
  cases r with
  | timeout =>
    cases hs
    exact Filled.sound h.filled (by simp) (by simp)
  | failed =>
    cases hs
    exact Filled.sound h.filled (by simp) (by simp)
  | frame data => exact sound_accept h hfit hpc hs

theorem sound_shutdown (h : s.Sound sizes) (hs : s.step sizes .shutdown = some s') :
    s'.Sound sizes := by
  simp only [step] at hs
  split at hs
  · cases hs
    exact Filled.sound h.filled (by simp) (by simp)
  · cases hs
    exact Filled.sound h.filled (by simp) (by simp)
  · cases hs

/-- **Every step keeps the buffers filled right.** -/
theorem sound_step (hfit : Fit sizes) (s : Filling) (a : FillStep) (s' : Filling)
    (h : s.Sound sizes) (hs : s.step sizes a = some s') : s'.Sound sizes := by
  cases a with
  | prepareCtx ok =>
    obtain ⟨-, hs⟩ := Option.ite_none_right_eq_some.mp hs
    cases hs
    cases ok with
    | false => exact Filled.sound h.filled (by simp) (by simp)
    | true => exact Filled.sound h.filled (by simp) (by simp)
  | checkFill => exact sound_checkFill h hs
  | writer =>
    obtain ⟨hpc, hs⟩ := Option.ite_none_right_eq_some.mp hs
    exact sound_stepCall h hfit hpc hs
  | receive r => exact sound_receive h hfit hs
  | flush =>
    obtain ⟨-, hs⟩ := Option.ite_none_right_eq_some.mp hs
    obtain ⟨t, ht, rfl⟩ := Option.map_eq_some_iff.mp hs
    obtain ⟨-, ht⟩ := Option.ite_none_right_eq_some.mp ht
    cases ht
    exact Filled.sound h.filled (by simp) (by simp)
  | shutdown => exact sound_shutdown h hs
  | getRead =>
    obtain ⟨t, ht, rfl⟩ := Option.map_eq_some_iff.mp hs
    obtain ⟨hpipe, hwriter⟩ := getRead_frame ht
    exact sound_of_frame h (by rw [hpipe]) hwriter
  | reader =>
    obtain ⟨t, ht, rfl⟩ := Option.map_eq_some_iff.mp hs
    obtain ⟨hbuf, hwriter⟩ := stepReader_frame ht
    exact sound_of_frame h hbuf hwriter

theorem asserts_of_sound (hfit : Fit sizes) (h : s.Sound sizes) (a : FillStep) :
    s.Asserts sizes a := by
  cases a with
  | checkFill => exact fun _ => (h.filled s.curBuf).2
  | receive r =>
    cases r with
    | frame data =>
      intro hpc hlen
      rw [hlen]
      exact Nat.le_trans (h.room hfit hpc) hfit.max_le
    | timeout => exact trivial
    | failed => exact trivial
  | prepareCtx _ | writer | flush | shutdown | getRead | reader => exact trivial

end Invariant

/-- **Fill levels.**  With the sizes of `PgPrepareCtx`, in every run of the two threads
    all buffers hold whole packets and at most `BufferMaxFill` at all times, no
    assertion of `MbRun` or `PgRun` fails and `ArenaAlloc` never returns `NULL`. -/
theorem fillLevel_holds {rowSize cap : UInt64} (hpos : 0 < rowSize) (hle : rowSize ≤ cap)
    {N : UInt64} (_ : 2 ≤ N.toNat) (steps : List FillStep) :
    let sizes := pgPrepareSizes rowSize cap
    Throughout (step sizes) (fun s => s.Filled sizes ∧ s.ReaderAsserts sizes) (init N) steps ∧
      Along (step sizes) (Asserts sizes) (init N) steps := by
  have hfit := fit_pgPrepareSizes hpos hle
  constructor
  · exact throughout_of_along (fun s a s' h _ hs => sound_step hfit s a s' h hs)
      (fun _ h => ⟨h.filled, fun cur _ => Nat.mod_eq_zero_of_dvd (h.filled cur).1⟩)
      (sound_init N _) (along_true _ _)
  · exact along_of_along (fun s a s' h _ hs => sound_step hfit s a s' h hs)
      (fun _ a h _ => asserts_of_sound hfit h a) (sound_init N _) (along_true _ _)

/-- Two packets fill a buffer; a call for a new one is interrupted by the reader. -/
theorem fillLevel_holds_twoPackets :
    let sizes := pgPrepareSizes 2 5
    let steps : List FillStep :=
      [.prepareCtx true, .checkFill, .receive (.frame [1, 2]), .checkFill, .receive (.frame [3, 4]),
        .checkFill, .writer, .getRead, .writer, .writer, .writer, .reader, .writer, .reader]
    Throughout (step sizes) (fun s => s.Filled sizes ∧ s.ReaderAsserts sizes) (init 2) steps ∧
      Along (step sizes) (Asserts sizes) (init 2) steps :=
  fillLevel_holds (by decide) (by decide) (by decide) _

end Filling

end Lmalloc.Pipe
