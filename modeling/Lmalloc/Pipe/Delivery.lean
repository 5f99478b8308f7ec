/-
  Lmalloc/Pipe/Delivery.lean
  ==========================
  **Exactly-once delivery, as long as packets are stored in the pipe.**

  Every accepted packet is in one of three places, in order: delivered, in the
  one buffer that is published and not yet finished, or in the current write
  buffer.  Pipe calls move packets along; receiving adds one at the end.  The one
  step that can break this is storing a packet through a `CurBuf` that has left
  the pipe.
-/
import Lmalloc.Pipe.MbRun

namespace Lmalloc.Pipe

open Lmalloc.Library

/-! ### The pipe between calls -/

/-- The two threads at rest on the pipe `p`, with `reading` still owned. -/
structure AtRest (N : UInt64) (p : SensorDataPipe) (reading : Option UInt32) (t : Threads) :
    Prop where
  pipe_eq : t.pipe = p
  writer_eq : t.writer = .idle
  reader_rest : t.reader = .idle ∨ ∃ b, t.reader = .owns b
  reader_eq : ∀ b, reading = some b → t.reader = .owns b
  inv : Inv N t

section AtRest

variable {N : UInt64} {p p' : SensorDataPipe} {reading : Option UInt32} {t : Threads}

theorem atRest_init (hN : 2 ≤ N.toNat) : AtRest N (sdpCreate N) none (Threads.init N) where
  pipe_eq := rfl
  writer_eq := rfl
  reader_rest := Or.inl rfl
  reader_eq := by simp
  inv := inv_init hN

/-- The invariant of the pipe says nothing about the contents of the buffers. -/
theorem AtRest.append (h : AtRest N p reading t) (i : UInt32) (bytes : List UInt8) :
    ∃ t', AtRest N (p.append i bytes) reading t' := by
  obtain ⟨rfl, hw, hr, hown, hinv⟩ := h
  exact ⟨{ t with pipe := t.pipe.append i bytes }, rfl, hw, hr, hown,
    ⟨hinv.bufCount_eq, hinv.published_eq, hinv.reads_eq, hinv.token, hinv.balance, hinv.full,
      hinv.writer, hinv.reader⟩⟩

theorem AtRest.publish (h : AtRest N p none t) {next : UInt32}
    (hget : publish p = some (next, p')) : ∃ t', AtRest N p' none t' := by
  obtain ⟨rfl, hw, hr, _, hinv⟩ := h
  obtain ⟨pipe, writer, reader, ps, rs⟩ := t
  cases hw
  have hinv' := run_invariant inv_step hinv (run_get hget)
  exact ⟨⟨p', .idle, reader, ps ++ [pipe.writeBufIdx.toNat], rs⟩, rfl, rfl, hr, by simp, hinv'⟩

theorem AtRest.read (h : AtRest N p none t) {cur : UInt32}
    (hread : sdPipeGetReadBuffer p = some (cur, p')) : ∃ t', AtRest N p' (some cur) t' := by
  obtain ⟨rfl, hw, hr, _, hinv⟩ := h
  obtain ⟨pipe, writer, reader, ps, rs⟩ := t
  have hinv' := run_invariant inv_step hinv (run_read hr hread)
  refine ⟨⟨p', writer, .owns cur, ps, rs ++ [cur.toNat]⟩, rfl, hw, Or.inr ⟨cur, rfl⟩, ?_, hinv'⟩
  rintro b ⟨⟩
  rfl

theorem AtRest.finish (h : AtRest N p reading t) : AtRest N p none t :=
  ⟨h.pipe_eq, h.writer_eq, h.reader_rest, by simp, h.inv⟩

/-- Between calls the indices are those of the numbers of publications and reads,
    which differ by what the reader has been told of. -/
theorem AtRest.places (h : AtRest N p reading t) :
    ∃ k, p.readBufIdx.toNat = k % N.toUInt32.toNat ∧
      p.writeBufIdx.toNat = (k + p.readEventFd) % N.toUInt32.toNat ∧
      min p.writeEventFd 1 + p.readEventFd = 1 ∧
      ∀ b, reading = some b → ∃ j, k = j + 1 ∧ b.toNat = j % N.toUInt32.toNat := by
  obtain ⟨rfl, hw, hr, hown, hinv⟩ := h
  have hwriter := hinv.writer
  have hreader := hinv.reader
  have hbalance := hinv.balance
  have htoken := hinv.token
  rw [hw] at hwriter htoken
  have htok : t.reader.token = 0 := by
    rcases hr with hr | ⟨b, hr⟩
    · rw [hr]
      rfl
    · rw [hr]
      rfl
  rw [htok] at hbalance htoken
  rw [hbalance] at hwriter
  refine ⟨t.reads.length, ?_, hwriter, htoken, ?_⟩
  · rcases hr with hr | ⟨b, hr⟩
    · rw [hr] at hreader
      exact hreader
    · rw [hr] at hreader
      exact hreader.1
  · intro b hb
    rw [hown b hb] at hreader
    exact hreader.2

end AtRest

/-! ### Where the packets are -/

/-- The contents of the buffer the reader has still to finish. -/
def SensorDataPipe.outstanding (p : SensorDataPipe) (reading : Option UInt32) : List UInt8 :=
  (p.unfinished reading).elim [] p.buffers

@[simp] theorem unfinished_append (p : SensorDataPipe) (i : UInt32) (bytes : List UInt8)
    (reading : Option UInt32) : (p.append i bytes).unfinished reading = p.unfinished reading := by
  cases reading <;> rfl

namespace Receiver

/-- **The invariant**: every accepted packet is delivered, outstanding, or in the
    current write buffer. -/
structure Accounted (N : UInt64) (s : Receiver) : Prop where
  rest : ∃ t, AtRest N s.pipe s.reading t
  reading_drained : s.reading ≠ none → s.pipe.readEventFd = 0
  split : ∃ ds us ws, s.accepted = ds ++ us ++ ws ∧ s.delivered = ds.flatten ∧
    s.pipe.outstanding s.reading = us.flatten ∧ s.pipe.buffers s.pipe.writeBufIdx = ws.flatten
  stale_empty : s.curBuf ≠ s.pipe.writeBufIdx → s.pipe.buffers s.pipe.writeBufIdx = []
  between_empty : s.pc = .connecting → s.pipe.buffers s.pipe.writeBufIdx = []

theorem accounted_init {N : UInt64} (hN : 2 ≤ N.toNat) : Accounted N (init N) where
  rest := ⟨_, atRest_init hN⟩
  reading_drained := fun h => absurd rfl h
  split := ⟨[], [], [], rfl, rfl, rfl, rfl⟩
  stale_empty := fun _ => rfl
  between_empty := fun _ => rfl

theorem exactlyOnce_of_accounted {N : UInt64} {s : Receiver} (h : Accounted N s) :
    s.ExactlyOnce := by
  obtain ⟨ds, us, ws, hacc, hdel, hout, hwrite⟩ := h.split
  refine ⟨⟨ds.length, ?_⟩, ?_⟩
  · rw [hacc, hdel, List.append_assoc, List.take_left]
  · intro hpc hdrained
    have hus : us.flatten = [] := by
      rw [← hout, SensorDataPipe.outstanding, show s.pipe.unfinished s.reading = none from hdrained]
      rfl
    have hws : ws.flatten = [] := by rw [← hwrite, h.between_empty hpc]
    rw [hacc, hdel, List.flatten_append, List.flatten_append, hus, hws, List.append_nil,
      List.append_nil]

section Steps

variable {N : UInt64} {s : Receiver}

theorem unfinished_ne (h : Accounted N s) (hn : N.toUInt32.toNat ≠ 1) {i : UInt32}
    (hi : s.unfinished = some i) : i ≠ s.pipe.writeBufIdx := by
  rintro rfl
  obtain ⟨t, ht⟩ := h.rest
  obtain ⟨k, hread, hwrite, htoken, hown⟩ := ht.places
  unfold unfinished at hi
  rcases hreading : s.reading with _ | b
  · rw [hreading, SensorDataPipe.unfinished] at hi
    split at hi
    · next hpos =>
      have hone : s.pipe.readEventFd = 1 := by omega
      rw [Option.some.injEq] at hi
      rw [hone, ← hi, hread] at hwrite
      exact Ring.succ_ne hn k hwrite
    · cases hi
  · rw [hreading, SensorDataPipe.unfinished, Option.some.injEq] at hi
    have hzero := h.reading_drained (by rw [hreading]; simp)
    obtain ⟨j, rfl, hb⟩ := hown b hreading
    rw [hzero, Nat.add_zero, ← hi, hb] at hwrite
    exact Ring.succ_ne hn j hwrite

/-- A pipe call of the writer turns the write buffer into the outstanding one. -/
theorem accounted_publish (h : Accounted N s) (hn : N.toUInt32.toNat ≠ 1)
    (hreading : s.reading = none) {next : UInt32} {p' : SensorDataPipe}
    (hpub : publish s.pipe = some (next, p')) (cur : UInt32) (pc : MbPc) :
    Accounted N { s with pipe := p', curBuf := cur, pc := pc } := by
  obtain ⟨t, ht⟩ := h.rest
  rw [hreading] at ht
  obtain ⟨t', ht'⟩ := ht.publish hpub
  obtain ⟨k, hread, hwrite, htoken, _⟩ := ht.places
  obtain ⟨k', hread', hwrite', htoken', _⟩ := ht'.places
  obtain ⟨hnext, hslot, rfl⟩ := publish_eq_some_iff.mp hpub
  have hdrained : s.pipe.readEventFd = 0 := by omega
  -- nothing is outstanding, and the reader's next buffer is the one just written
  have hsame : s.pipe.readBufIdx = s.pipe.writeBufIdx := by
    apply UInt32.toNat_inj.mp
    rw [hread, hwrite, hdrained, Nat.add_zero]
  have hout : s.pipe.outstanding s.reading = [] := by
    simp [SensorDataPipe.outstanding, SensorDataPipe.unfinished, hreading, hdrained]
  have hone : EventFd.write s.pipe.readEventFd 1 = 1 := by rw [hdrained]; rfl
  have hne : s.pipe.writeBufIdx ≠ next := by
    intro heq
    simp only [SensorDataPipe.freeBuffer, hone] at hread' hwrite'
    rw [hsame, heq, hwrite'] at hread'
    exact Ring.succ_ne hn k' hread'.symm
  obtain ⟨ds, us, ws, hacc, hdel, hus, hws⟩ := h.split
  have hempty : (Function.update s.pipe.buffers next []) next = [] := Function.update_self _ _ _
  refine ⟨⟨t', hreading ▸ ht'⟩, fun hr => absurd hreading hr, ?_, fun _ => hempty,
    fun _ => hempty⟩
  refine ⟨ds, us ++ ws, [], by rw [hacc, List.append_assoc, List.append_nil], hdel, ?_, hempty⟩
  rw [List.flatten_append, ← hus, hout, List.nil_append, ← hws]
  simp [SensorDataPipe.outstanding, SensorDataPipe.unfinished, hreading,
    SensorDataPipe.freeBuffer, hone, hsame, hne]

theorem accounted_append (h : Accounted N s) (hn : N.toUInt32.toNat ≠ 1) (hin : s.InPipe)
    (data : List UInt8) :
    Accounted N { s with
      pipe := s.pipe.append s.curBuf data
      pc := .filling
      accepted := s.accepted ++ [data] } := by
  obtain ⟨t, ht⟩ := h.rest
  obtain ⟨t', ht'⟩ := ht.append s.curBuf data
  obtain ⟨ds, us, ws, hacc, hdel, hus, hws⟩ := h.split
  refine ⟨⟨t', ht'⟩, h.reading_drained, ?_, ?_, by simp⟩
  · rcases hin with hcur | hcur
    · -- into the write buffer
      refine ⟨ds, us, ws ++ [data], by simp [hacc], hdel, ?_, ?_⟩
      · rw [← hus, SensorDataPipe.outstanding, unfinished_append, SensorDataPipe.outstanding]
        rcases hi : s.pipe.unfinished s.reading with _ | i
        · rfl
        · have hne : i ≠ s.curBuf := by
            rw [hcur]
            exact unfinished_ne h hn hi
          simp [SensorDataPipe.append, hne]
      · simp [SensorDataPipe.append, hcur, hws]
    · -- into the outstanding buffer; then the write buffer is empty
      have hne := unfinished_ne h hn hcur
      have hnil := h.stale_empty hne
      refine ⟨ds, us ++ ws ++ [data], [], by simp [hacc], hdel, ?_, ?_⟩
      · have hcur' : s.pipe.unfinished s.reading = some s.curBuf := hcur
        rw [SensorDataPipe.outstanding, hcur', Option.elim_some] at hus
        rw [SensorDataPipe.outstanding, unfinished_append, hcur', Option.elim_some]
        simp [SensorDataPipe.append, hus, ← hws, hnil]
      · exact (s.pipe.buffers_append_other hne.symm data).trans hnil
  · intro hne
    replace hne : s.curBuf ≠ s.pipe.writeBufIdx := hne
    exact (s.pipe.buffers_append_other hne.symm data).trans (h.stale_empty hne)

/-- A step that moves only the program counter, not to the head of the outer loop. -/
theorem accounted_goto (h : Accounted N s) {pc : MbPc} (hpc : pc ≠ .connecting) :
    Accounted N { s with pc := pc } :=
  ⟨h.rest, h.reading_drained, h.split, h.stale_empty, fun heq => absurd heq hpc⟩

theorem accounted_read (h : Accounted N s) (hreading : s.reading = none) {cur : UInt32}
    {p' : SensorDataPipe} (hread : sdPipeGetReadBuffer s.pipe = some (cur, p')) :
    Accounted N { s with pipe := p', reading := some cur } := by
  obtain ⟨t, ht⟩ := h.rest
  rw [hreading] at ht
  obtain ⟨t', ht'⟩ := ht.read hread
  obtain ⟨rfl, hpos, next, hnext, rfl⟩ := getRead_eq_some_iff.mp hread
  refine ⟨⟨t', ht'⟩, fun _ => rfl, ?_, h.stale_empty, h.between_empty⟩
  obtain ⟨ds, us, ws, hacc, hdel, hus, hws⟩ := h.split
  refine ⟨ds, us, ws, hacc, hdel, ?_, hws⟩
  rw [← hus, hreading]
  simp [SensorDataPipe.outstanding, SensorDataPipe.unfinished, hpos]

theorem accounted_finish (h : Accounted N s) {i : UInt32} (hreading : s.reading = some i) :
    Accounted N { s with reading := none, delivered := s.delivered ++ s.pipe.buffers i } := by
  obtain ⟨t, ht⟩ := h.rest
  have hzero := h.reading_drained (by rw [hreading]; simp)
  refine ⟨⟨t, ht.finish⟩, fun hr => absurd rfl hr, ?_, h.stale_empty, h.between_empty⟩
  obtain ⟨ds, us, ws, hacc, hdel, hus, hws⟩ := h.split
  rw [hreading] at hus
  refine ⟨ds ++ us, [], ws, by rw [hacc, List.append_nil], ?_, ?_, hws⟩
  · rw [hdel, List.flatten_append, ← hus]
    rfl
  · simp [SensorDataPipe.outstanding, SensorDataPipe.unfinished, hzero]

theorem accounted_receive {sizes : PipeSizes} (h : Accounted N s) (hn : N.toUInt32.toNat ≠ 1)
    {r : Reception} (hstore : StoresInPipe sizes s (.receive r)) {s' : Receiver}
    (hs : s.step sizes (.receive r) = some s') : Accounted N s' := by
  obtain ⟨-, hs⟩ := Option.ite_none_right_eq_some.mp hs
  cases r with
  | timeout =>
    cases hs
    exact accounted_goto h (by simp)
  | failed =>
    cases hs
    exact accounted_goto h (by simp)
  | frame data =>
    by_cases hlen : data.length = sizes.packetSize
    · simp only [accept, if_neg (not_not.mpr hlen)] at hs
      obtain ⟨-, hs⟩ := Option.ite_none_right_eq_some.mp hs
      cases hs
      exact accounted_append h hn (hstore hlen) data
    · simp only [accept, if_pos hlen] at hs
      cases hs
      exact accounted_goto h (by simp)

/-- A flush publishes the buffer, or finds it empty. -/
theorem accounted_flush {sizes : PipeSizes} (h : Accounted N s) (hn : N.toUInt32.toNat ≠ 1)
    {s' : Receiver} (hs : s.step sizes .flush = some s') : Accounted N s' := by
  obtain ⟨hpc, hs⟩ := Option.ite_none_right_eq_some.mp hs
  obtain ⟨p', hflush, rfl⟩ := Option.map_eq_some_iff.mp hs
  unfold sdPipeFlush at hflush
  split at hflush
  · obtain ⟨⟨next, p''⟩, hpub, rfl⟩ := Option.map_eq_some_iff.mp hflush
    exact accounted_publish h hn hpc.2 hpub s.curBuf .connecting
  · next hempty =>
    cases hflush
    exact ⟨h.rest, h.reading_drained, h.split, h.stale_empty, fun _ => not_not.mp hempty⟩

theorem accounted_shutdown {sizes : PipeSizes} (h : Accounted N s) {s' : Receiver}
    (hs : s.step sizes .shutdown = some s') : Accounted N s' := by
  simp only [step] at hs
  split at hs
  · cases hs
    exact accounted_goto h (by simp)
  · cases hs
    exact accounted_goto h (by simp)
  · cases hs

/-- **Every step whose packet goes into the pipe keeps the account.** -/
theorem accounted_step {sizes : PipeSizes} (hn : N.toUInt32.toNat ≠ 1) (s : Receiver)
    (a : MbStep) (s' : Receiver) (h : Accounted N s) (hstore : StoresInPipe sizes s a)
    (hs : s.step sizes a = some s') : Accounted N s' := by
  cases a with
  | prepareCtx ok =>
    obtain ⟨hpc, hs⟩ := Option.ite_none_right_eq_some.mp hs
    cases hs
    cases ok with
    | false => exact ⟨h.rest, h.reading_drained, h.split, h.stale_empty,
        fun _ => h.between_empty hpc⟩
    | true => exact accounted_goto h (by simp)
  | checkFill =>
    obtain ⟨-, hs⟩ := Option.ite_none_right_eq_some.mp hs
    split at hs
    · obtain ⟨hreading, hs⟩ := Option.ite_none_right_eq_some.mp hs
      obtain ⟨⟨next, p'⟩, hget, rfl⟩ := Option.map_eq_some_iff.mp hs
      exact accounted_publish h hn hreading hget next .receiving
    · cases hs
      exact accounted_goto h (by simp)
  | receive r => exact accounted_receive h hn hstore hs
  | flush => exact accounted_flush h hn hs
  | shutdown => exact accounted_shutdown h hs
  | read =>
    obtain ⟨hreading, hs⟩ := Option.ite_none_right_eq_some.mp hs
    obtain ⟨⟨cur, p'⟩, hread, rfl⟩ := Option.map_eq_some_iff.mp hs
    exact accounted_read h hreading hread
  | finish =>
    obtain ⟨i, hreading, rfl⟩ := Option.map_eq_some_iff.mp hs
    exact accounted_finish h hreading

end Steps

end Receiver

/-! ### Whole runs -/

/-- Packets of one byte, three of them to a buffer. -/
def tinySizes : PipeSizes := ⟨1, 3, 3⟩

/-- A packet, a failure, and a reader that drains the pipe. -/
def oneReconnect : List MbStep :=
  [.prepareCtx true, .checkFill, .receive (.frame [7]), .checkFill, .receive .failed, .flush,
    .read, .finish]

end Lmalloc.Pipe
