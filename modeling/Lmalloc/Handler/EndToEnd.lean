/-
  Lmalloc/Handler/EndToEnd.lean
  =============================
  **Every accepted packet is handed to `PgInsertData` once, in order, and the table
  holds exactly the packets of the calls that returned 0.**

  The invariant splits the packets that `MbRun` has stored into groups, one for each
  publication, and a rest that is still in the writer's buffer.  The first groups
  have been inserted; the others lie in their buffers untouched.
-/
import Lmalloc.Handler.Machine
import Lmalloc.Postgres.ConvBuffer

namespace Lmalloc.Handler

open Lmalloc.Library Lmalloc.Postgres Lmalloc.Pipe

/-- A packet is not appended to a buffer that a flush has taken from the writer, and
    `PgInsertData` gets its scratch arena. -/
def Regular (sizes : PipeSizes) (s : DataHandler) : HandlerStep → Prop
  | .thread (.receive (.frame data)) => data.length = sizes.packetSize →
      s.filling.curBuf = s.filling.threads.pipe.writeBufIdx
  | .insert o => o.scratchOk = true
  | .thread _ => True

instance decidableRegular (sizes : PipeSizes) :
    ∀ (s : DataHandler) (a : HandlerStep), Decidable (Regular sizes s a)
  | s, .thread (.receive (.frame data)) => inferInstanceAs (Decidable
      (data.length = sizes.packetSize →
        s.filling.curBuf = s.filling.threads.pipe.writeBufIdx))
  | _, .insert o => inferInstanceAs (Decidable (o.scratchOk = true))
  | _, .thread (.receive .timeout) | _, .thread (.receive .failed) | _, .thread (.prepareCtx _)
  | _, .thread .checkFill | _, .thread .writer | _, .thread .flush | _, .thread .shutdown
  | _, .thread .getRead | _, .thread .reader => isTrue trivial

/-- The packets of the groups whose call returned 0. -/
def insertedPackets (groups : List (List (List UInt8))) (inserts : List (List UInt8 × Int32)) :
    List (List UInt8) :=
  (groups.zip inserts).flatMap fun call => if call.2.2 = 0 then call.1 else []

/-- What has become of the packets `MbRun` has accepted. -/
def Delivered (ti : PgTableInfo) (s : DataHandler) : Prop :=
  ∃ groups unread, s.stored = groups.flatten ++ unread ∧
    s.inserts.map Prod.fst = groups.map List.flatten ∧
    List.Forall₂ (RowOf ti) (insertedPackets groups s.inserts) s.table ∧
    (s.filling.pc = .stopped → s.inserts.length = s.filling.threads.published.length →
      unread = [])

/-- **The invariant**: the groups published so far and the packets not yet published. -/
structure Tracks (N : UInt64) (sizes : PipeSizes) (ti : PgTableInfo) (s : DataHandler)
    (groups : List (List (List UInt8))) (ws : List (List UInt8)) : Prop where
  carries : Carries N s.inserts.length s.filling.threads groups ws
  stored : s.stored = groups.flatten ++ ws
  packets : ∀ packet ∈ s.stored, packet.length = sizes.packetSize
  reads : s.filling.threads.reads.length = s.inserts.length + s.pending.toNat
  pending : s.pending = true → s.filling.threads.owned.isSome
  outside : s.filling.pc ≠ .getting → s.filling.pc ≠ .flushing → s.filling.threads.writer = .idle
  flushed : s.filling.pc = .connecting ∨ s.filling.pc = .stopped → ws.flatten = []
  inserted : s.inserts.map Prod.fst = (groups.take s.inserts.length).map List.flatten
  table : List.Forall₂ (RowOf ti) (insertedPackets (groups.take s.inserts.length) s.inserts) s.table
  sound : s.filling.Sound sizes

section Tracks

variable {N : UInt64} {sizes : PipeSizes} {ti : PgTableInfo} {s s' : DataHandler}
  {groups : List (List (List UInt8))} {ws : List (List UInt8)}

theorem Tracks.near (h : Tracks N sizes ti s groups ws) :
    s.filling.threads.published.length ≤ s.inserts.length + 2 := by
  have hpublished := h.carries.inv.published_le
  have hreads := h.reads
  have hone := Bool.toNat_le s.pending
  omega

theorem Tracks.length_le (h : Tracks N sizes ti s groups ws) :
    s.inserts.length ≤ groups.length := by
  have hinserted := congrArg List.length h.inserted
  rw [List.length_map, List.length_map, List.length_take] at hinserted
  omega

theorem Tracks.take_append (h : Tracks N sizes ti s groups ws) (more : List (List (List UInt8))) :
    (groups ++ more).take s.inserts.length = groups.take s.inserts.length :=
  List.take_append_of_le_length h.length_le

/-- A step of the threads: what has been inserted stays as it is. -/
theorem Tracks.thread (h : Tracks N sizes ti s groups ws) {a : FillStep} {f : Filling}
    {groups' : List (List (List UInt8))} {ws' : List (List UInt8)}
    (hcarries : Carries N s.inserts.length f.threads groups' ws')
    (htake : groups'.take s.inserts.length = groups.take s.inserts.length)
    (hstored : groups'.flatten ++ ws' = groups.flatten ++ ws ++ storedBy sizes a)
    (hreader : f.threads.reader = s.filling.threads.reader ∧
      f.threads.reads = s.filling.threads.reads)
    (hnot : a ≠ .reader)
    (houtside : f.pc ≠ .getting → f.pc ≠ .flushing → f.threads.writer = .idle)
    (hflushed : f.pc = .connecting ∨ f.pc = .stopped → ws'.flatten = [])
    (hsound : f.Sound sizes) : Tracks N sizes ti (s.after sizes a f) groups' ws' := by
  have hpending : (s.after sizes a f).pending = s.pending := by
    simp [DataHandler.after, hnot]
  have howned : f.threads.owned = s.filling.threads.owned := by
    rw [Threads.owned, Threads.owned, hreader.1]
  refine ⟨hcarries, ?_, ?_, ?_, ?_, houtside, hflushed, ?_, ?_, hsound⟩
  · rw [hstored, ← h.stored]
    rfl
  · intro packet hmem
    rcases List.mem_append.mp hmem with hold | hnew
    · exact h.packets packet hold
    · cases a with
      | receive r =>
        cases r with
        | frame data =>
          simp only [storedBy] at hnew
          split at hnew
          · rwa [List.mem_singleton.mp hnew]
          · cases hnew
        | timeout => cases hnew
        | failed => cases hnew
      | _ => cases hnew
  · rw [hpending]
    simpa [DataHandler.after, hreader.2] using h.reads
  · rw [hpending]
    simpa [DataHandler.after, howned] using h.pending
  · simpa [DataHandler.after, htake] using h.inserted
  · simpa [DataHandler.after, htake] using h.table

/-- A step of `MbRun` that leaves the pipe as it is and stores nothing. -/
theorem Tracks.thread_same (h : Tracks N sizes ti s groups ws) {a : FillStep} {f : Filling}
    (hthreads : f.threads = s.filling.threads) (hstored : storedBy sizes a = [])
    (hnot : a ≠ .reader)
    (hpc : s.filling.pc ≠ .getting ∧ s.filling.pc ≠ .flushing)
    (hflushed : f.pc = .connecting ∨ f.pc = .stopped → ws.flatten = [])
    (hsound : f.Sound sizes) : Tracks N sizes ti (s.after sizes a f) groups ws := by
  refine h.thread ?_ rfl (by rw [hstored, List.append_nil]) ?_ hnot (fun _ _ => ?_) hflushed hsound
  · rw [hthreads]
    exact h.carries
  · rw [hthreads]
    exact ⟨rfl, rfl⟩
  · rw [hthreads]
    exact h.outside hpc.1 hpc.2

/-- The start of a pipe call. -/
theorem Tracks.thread_call (h : Tracks N sizes ti s groups ws) {a : FillStep} {f : Filling}
    (hinv : Inv N f.threads) (hpipe : f.threads.pipe = s.filling.threads.pipe)
    (hpublished : f.threads.published = s.filling.threads.published)
    (hheld : f.threads.held = s.filling.threads.held)
    (hreader : f.threads.reader = s.filling.threads.reader ∧
      f.threads.reads = s.filling.threads.reads)
    (hstored : storedBy sizes a = []) (hnot : a ≠ .reader)
    (hpc : f.pc = .getting ∨ f.pc = .flushing) (hsound : f.Sound sizes) :
    Tracks N sizes ti (s.after sizes a f) groups ws := by
  refine h.thread (h.carries.of_frame hinv (by rw [hpipe]) hpublished hheld) rfl
    (by rw [hstored, List.append_nil]) hreader hnot ?_ ?_ hsound
  · intro hget hflush
    rcases hpc with hpc | hpc
    · exact absurd hpc hget
    · exact absurd hpc hflush
  · intro hend
    rcases hpc with hpc | hpc
    · simp [hpc] at hend
    · simp [hpc] at hend

end Tracks

/-! ### The steps of the threads -/

theorem stepWriter_reader {t t' : Threads} (h : t.stepWriter = some t') :
    t'.reader = t.reader ∧ t'.reads = t.reads := by
  have hload : t.loadWrite = some t' → t'.reader = t.reader ∧ t'.reads = t.reads := by
    intro hl
    obtain ⟨next, -, rfl⟩ := Option.map_eq_some_iff.mp hl
    exact ⟨rfl, rfl⟩
  unfold Threads.stepWriter at h
  split at h
  next => cases h
  next =>
    split at h
    · exact hload h
    · cases h
      exact ⟨rfl, rfl⟩
  next =>
    obtain ⟨r, -, rfl⟩ := Option.map_eq_some_iff.mp h
    exact ⟨rfl, rfl⟩
  all_goals
    cases h
    exact ⟨rfl, rfl⟩

/-- A read is counted when the call returns. -/
theorem stepReader_reads {t t' : Threads} (h : t.stepReader = some t') :
    t.owned = none ∧ t'.reads.length = t.reads.length + t'.owned.isSome.toNat := by
  unfold Threads.stepReader at h
  split at h
  next => cases h
  next hpc =>
    obtain ⟨r, -, rfl⟩ := Option.map_eq_some_iff.mp h
    simp [Threads.owned, hpc]
  next hpc =>
    cases h
    simp [Threads.owned, hpc]
  next hpc =>
    obtain ⟨next, -, rfl⟩ := Option.map_eq_some_iff.mp h
    simp [Threads.owned, hpc]
  next hpc =>
    cases h
    simp [Threads.owned, hpc]
  next hpc =>
    cases h
    simp [Threads.owned, hpc]
  next => cases h

/-- The call goes on, or it has ended and `MbRun` leaves it. -/
theorem stepCall_cases {s f : Filling} (h : s.stepCall = some f) :
    s.threads.stepWriter = some f.threads ∧
      ((f.threads.writer = .idle ∧ (f.pc = .receiving ∨ f.pc = .connecting)) ∨ f.pc = s.pc) := by
  obtain ⟨t, ht, rfl⟩ := Option.map_eq_some_iff.mp h
  split
  · next hidle =>
    split
    · exact ⟨ht, Or.inl ⟨hidle, Or.inl rfl⟩⟩
    · exact ⟨ht, Or.inl ⟨hidle, Or.inr rfl⟩⟩
  · exact ⟨ht, Or.inr rfl⟩

section Steps

variable {N : UInt64} {sizes : PipeSizes} {ti : PgTableInfo} {s : DataHandler} {f : Filling}
  {groups : List (List (List UInt8))} {ws : List (List UInt8)}

theorem tracks_prepareCtx (h : Tracks N sizes ti s groups ws) {ok : Bool} (hsound : f.Sound sizes)
    (hs : s.filling.step sizes (.prepareCtx ok) = some f) :
    Tracks N sizes ti (s.after sizes (.prepareCtx ok) f) groups ws := by
  obtain ⟨hpc, hs⟩ := Option.ite_none_right_eq_some.mp hs
  cases hs
  exact h.thread_same rfl rfl (by simp) (by simp [hpc]) (fun _ => h.flushed (Or.inl hpc)) hsound

theorem tracks_checkFill (h : Tracks N sizes ti s groups ws) (hsound : f.Sound sizes)
    (hs : s.filling.step sizes .checkFill = some f) :
    Tracks N sizes ti (s.after sizes .checkFill f) groups ws := by
  obtain ⟨hpc, hs⟩ := Option.ite_none_right_eq_some.mp hs
  have hidle := h.outside (by simp [hpc]) (by simp [hpc])
  split at hs
  · obtain ⟨t, ht, rfl⟩ := Option.map_eq_some_iff.mp hs
    have hinv := inv_step _ _ _ h.carries.inv ht
    obtain ⟨-, ht⟩ := Option.ite_none_right_eq_some.mp ht
    obtain ⟨next, -, rfl⟩ := Option.map_eq_some_iff.mp ht
    exact h.thread_call hinv rfl rfl (by simp [Threads.held, hidle]) ⟨rfl, rfl⟩ rfl (by simp)
      (Or.inl rfl) hsound
  · cases hs
    exact h.thread_same rfl rfl (by simp) (by simp [hpc]) (by simp) hsound

theorem tracks_flush (h : Tracks N sizes ti s groups ws) (hsound : f.Sound sizes)
    (hs : s.filling.step sizes .flush = some f) :
    Tracks N sizes ti (s.after sizes .flush f) groups ws := by
  obtain ⟨hpc, hs⟩ := Option.ite_none_right_eq_some.mp hs
  have hidle := h.outside (by simp [hpc]) (by simp [hpc])
  obtain ⟨t, ht, rfl⟩ := Option.map_eq_some_iff.mp hs
  have hinv := inv_step _ _ _ h.carries.inv ht
  obtain ⟨-, ht⟩ := Option.ite_none_right_eq_some.mp ht
  cases ht
  exact h.thread_call hinv rfl rfl (by simp [Threads.held, hidle]) ⟨rfl, rfl⟩ rfl (by simp)
    (Or.inr rfl) hsound

theorem tracks_shutdown (h : Tracks N sizes ti s groups ws) (hsound : f.Sound sizes)
    (hs : s.filling.step sizes .shutdown = some f) :
    Tracks N sizes ti (s.after sizes .shutdown f) groups ws := by
  simp only [Filling.step] at hs
  split at hs
  next hpc =>
    cases hs
    exact h.thread_same rfl rfl (by simp) (by simp [hpc]) (fun _ => h.flushed (Or.inl hpc)) hsound
  next hpc =>
    cases hs
    exact h.thread_same rfl rfl (by simp) (by simp [hpc]) (by simp) hsound
  next => cases hs

/-- A packet comes in; it goes to the buffer the writer holds. -/
theorem tracks_receive (h : Tracks N sizes ti s groups ws) (hone : N.toUInt32.toNat ≠ 1)
    (htwo : N.toUInt32.toNat ≠ 2) {r : Reception}
    (hregular : Regular sizes s (.thread (.receive r))) (hsound : f.Sound sizes)
    (hs : s.filling.step sizes (.receive r) = some f) :
    ∃ ws', Tracks N sizes ti (s.after sizes (.receive r) f) groups ws' := by
  obtain ⟨hpc, hs⟩ := Option.ite_none_right_eq_some.mp hs
  have hidle := h.outside (by simp [hpc]) (by simp [hpc])
  cases r with
  | timeout =>
    cases hs
    exact ⟨ws, h.thread_same rfl rfl (by simp) (by simp [hpc]) (by simp) hsound⟩
  | failed =>
    cases hs
    exact ⟨ws, h.thread_same rfl rfl (by simp) (by simp [hpc]) (by simp) hsound⟩
  | frame data =>
    simp only [Filling.accept] at hs
    by_cases hlen : data.length = sizes.packetSize
    · rw [if_neg (not_not.mpr hlen)] at hs
      split at hs
      · cases hs
        have hcur := hregular hlen
        refine ⟨ws ++ [data], h.thread ?_ rfl ?_ ⟨rfl, rfl⟩ (by simp) (fun _ _ => hidle) (by simp)
          hsound⟩
        · rw [Filling.append, hcur]
          exact h.carries.append hone htwo h.near hidle data
        · simp [storedBy, hlen]
      · cases hs
    · rw [if_pos hlen] at hs
      cases hs
      exact ⟨ws, h.thread_same rfl (by simp [storedBy, hlen]) (by simp) (by simp [hpc]) (by simp)
        hsound⟩

/-- An operation of the pipe call that `MbRun` is in. -/
theorem tracks_writer (h : Tracks N sizes ti s groups ws) (hone : N.toUInt32.toNat ≠ 1)
    (htwo : N.toUInt32.toNat ≠ 2) (hsound : f.Sound sizes)
    (hs : s.filling.step sizes .writer = some f) :
    ∃ groups' ws', Tracks N sizes ti (s.after sizes .writer f) groups' ws' := by
  obtain ⟨hpc, hs⟩ := Option.ite_none_right_eq_some.mp hs
  obtain ⟨ht, hplace⟩ := stepCall_cases hs
  obtain ⟨more, ws', hcarries, hsplit, hempty⟩ := h.carries.stepWriter hone htwo h.near ht
  refine ⟨groups ++ more, ws', h.thread hcarries (h.take_append more) ?_ (stepWriter_reader ht)
    (by simp) ?_ ?_ hsound⟩
  · rw [List.flatten_append, List.append_assoc, hsplit]
    simp [storedBy]
  · intro hget hflush
    rcases hplace with ⟨hidle, -⟩ | hsame
    · exact hidle
    · rw [hsame] at hget hflush
      exact absurd hpc (not_or.mpr ⟨hget, hflush⟩)
  · intro hend
    rcases hplace with ⟨hidle, -⟩ | hsame
    · exact hempty hidle
    · rw [hsame] at hend
      rcases hpc with hpc | hpc
      · simp [hpc] at hend
      · simp [hpc] at hend

theorem tracks_getRead (h : Tracks N sizes ti s groups ws) (hnot : s.pending = false)
    (hsound : f.Sound sizes) (hs : s.filling.step sizes .getRead = some f) :
    Tracks N sizes ti (s.after sizes .getRead f) groups ws := by
  obtain ⟨t, ht, rfl⟩ := Option.map_eq_some_iff.mp hs
  have hinv := inv_step _ _ _ h.carries.inv ht
  have hpending : (s.after sizes .getRead { s.filling with threads := t }).pending = false := by
    simp [DataHandler.after, hnot]
  have hframe : t = { s.filling.threads with reader := .called } := by
    simp only [Threads.step] at ht
    split at ht
    · exact (Option.some.inj ht).symm
    · exact (Option.some.inj ht).symm
    · cases ht
  have hstored : (s.after sizes .getRead { s.filling with threads := t }).stored = s.stored :=
    List.append_nil _
  refine ⟨h.carries.of_frame hinv ?_ ?_ ?_, ?_, ?_, ?_, ?_, fun hget hflush => ?_, h.flushed,
    h.inserted, h.table, hsound⟩
  · rw [hframe]
    rfl
  · rw [hframe]
    rfl
  · rw [hframe]
    rfl
  · rw [hstored, h.stored]
  · rw [hstored]
    exact h.packets
  · rw [hpending, ← hnot]
    simpa [DataHandler.after, hframe] using h.reads
  · rw [hpending]
    simp
  · have hidle := h.outside hget hflush
    simpa [DataHandler.after, hframe] using hidle

theorem tracks_reader (h : Tracks N sizes ti s groups ws) (hsound : f.Sound sizes)
    (hs : s.filling.step sizes .reader = some f) :
    Tracks N sizes ti (s.after sizes .reader f) groups ws := by
  obtain ⟨t, ht, rfl⟩ := Option.map_eq_some_iff.mp hs
  have hwriter := (Filling.stepReader_frame ht).2
  obtain ⟨hnone, hcount⟩ := stepReader_reads ht
  -- a buffer that is waited for stops the reader
  have hnot : s.pending = false := by
    by_contra hpending
    have howned := h.pending (Bool.not_eq_false _ ▸ hpending)
    rw [hnone] at howned
    cases howned
  have hpending : (s.after sizes .reader { s.filling with threads := t }).pending =
      t.owned.isSome := by
    simp [DataHandler.after, hnot]
  have hstored : (s.after sizes .reader { s.filling with threads := t }).stored = s.stored :=
    List.append_nil _
  have hreads := h.reads
  rw [hnot, Bool.toNat_false, Nat.add_zero] at hreads
  refine ⟨h.carries.stepReader ht, ?_, ?_, ?_, ?_, fun hget hflush => ?_, h.flushed, h.inserted,
    h.table, hsound⟩
  · rw [hstored, h.stored]
  · rw [hstored]
    exact h.packets
  · rw [hpending]
    simp only [DataHandler.after]
    rw [hcount, hreads]
  · rw [hpending]
    exact id
  · simp only [DataHandler.after]
    rw [hwriter]
    exact h.outside hget hflush

/-! ### The insertion -/

theorem Carries.weaken {done : ℕ} {t : Threads} (h : Carries N done t groups ws) :
    Carries N (done + 1) t groups ws :=
  ⟨h.inv, h.published, h.current, h.signalled, fun j hj hdone => h.kept j hj (by omega)⟩

theorem insertedPackets_append {calls : List (List UInt8 × Int32)}
    (hlen : groups.length = calls.length) (group : List (List UInt8)) (block : List UInt8)
    (ret : Int32) :
    insertedPackets (groups ++ [group]) (calls ++ [(block, ret)]) =
      insertedPackets groups calls ++ if ret = 0 then group else [] := by
  rw [insertedPackets, List.zip_append hlen, List.flatMap_append]
  simp [insertedPackets]

/-- The sizes of the pipe are those of the table, and the rows of a buffer fit an `int`. -/
structure Suits (sizes : PipeSizes) (ti : PgTableInfo) : Prop where
  prepared : ti.Prepared
  fit : Filling.Fit sizes
  packetSize : sizes.packetSize = ti.rowSize.toNat
  rows : sizes.bufferMaxFill / sizes.packetSize * encodedRowSize ti < 2 ^ 31

theorem tracks_insert (h : Tracks N sizes ti s groups ws) (hsuits : Suits sizes ti)
    (hpending : s.pending = true) {cur : UInt32} (hcur : s.filling.threads.owned = some cur)
    {o : Outcomes} (hscratch : o.scratchOk = true) :
    Tracks N sizes ti (s.insertBuffer sizes ti cur o) groups ws := by
  have hreads := h.reads
  rw [hpending, Bool.toNat_true] at hreads
  obtain ⟨hlt, hblock⟩ := h.carries.read hcur hreads
  have hlen : ∀ packet ∈ groups[s.inserts.length], packet.length = sizes.packetSize := by
    intro packet hmem
    apply h.packets
    rw [h.stored]
    exact List.mem_append_left _ (List.mem_flatten.mpr ⟨_, List.getElem_mem hlt, hmem⟩)
  have hbytes := length_flatten hlen
  have hfilled := (h.sound.filled cur).2
  rw [Filling.pos, hblock, hbytes] at hfilled
  -- the items counted are the packets of the group
  have hpos := hsuits.fit.packet_pos
  have hitems : groups[s.inserts.length].length ≤ sizes.bufferMaxFill / sizes.packetSize :=
    (Nat.le_div_iff_mul_le hpos).mpr hfilled
  have hrows := Nat.lt_of_le_of_lt (Nat.mul_le_mul_right (encodedRowSize ti) hitems) hsuits.rows
  have hrow : 0 < encodedRowSize ti := by
    rw [encodedRowSize_eq]
    omega
  have hsmall := Nat.lt_of_le_of_lt (Nat.le_mul_of_pos_right _ hrow) hrows
  have hcount : (UInt64.ofNat (groups[s.inserts.length].flatten.length / sizes.packetSize)).toNat =
      groups[s.inserts.length].length := by
    rw [hbytes, Nat.mul_div_cancel _ hpos, UInt64.toNat_ofNat_of_lt' (by
      change _ < 2 ^ 64
      omega)]
  have hcommitted := committed_pgInsertData hsuits.prepared (hsuits.packetSize ▸ hlen) hcount
    (by rw [hcount]; exact hrows) hscratch
  have hdone : (s.insertBuffer sizes ti cur o).inserts.length = s.inserts.length + 1 := by
    simp [DataHandler.insertBuffer]
  have htake : groups.take (s.inserts.length + 1) =
      groups.take s.inserts.length ++ [groups[s.inserts.length]] :=
    List.take_succ_eq_append_getElem hlt
  refine ⟨?_, h.stored, h.packets, ?_, ?_, h.outside, h.flushed, ?_, ?_, h.sound⟩
  · rw [hdone]
    exact h.carries.weaken
  · rw [hdone]
    exact hreads
  · intro hfalse
    cases hfalse
  · rw [hdone, htake, List.map_append, ← h.inserted]
    simp [DataHandler.insertBuffer, hblock]
  · rw [hdone, htake]
    have htaken : (groups.take s.inserts.length).length = s.inserts.length :=
      List.length_take_of_le h.length_le
    simp only [DataHandler.insertBuffer, hblock]
    rw [insertedPackets_append htaken]
    refine List.rel_append h.table ?_
    split
    · next hzero => exact hcommitted.1 hzero
    · next hne =>
      rw [hcommitted.2 hne]
      exact List.Forall₂.nil

end Steps

/-! ### Whole runs -/

section Runs

variable {N : UInt64} {sizes : PipeSizes} {ti : PgTableInfo} {s s' : DataHandler}

theorem tracks_init (hN : 2 ≤ N.toNat) (sizes : PipeSizes) (ti : PgTableInfo) :
    Tracks N sizes ti (DataHandler.init N) [] [] := by
  refine ⟨⟨inv_init hN, rfl, ?_, fun _ => rfl, ?_⟩, rfl, ?_, rfl, ?_, fun _ _ => rfl, fun _ => rfl,
    rfl, List.Forall₂.nil, Filling.sound_init N sizes⟩
  · intro i _
    rfl
  · intro j hj
    cases hj
  · intro packet hmem
    cases hmem
  · intro hfalse
    cases hfalse

/-- **Every regular step keeps the packets accounted for.** -/
theorem tracks_step (hsuits : Suits sizes ti) (hone : N.toUInt32.toNat ≠ 1)
    (htwo : N.toUInt32.toNat ≠ 2) {a : HandlerStep} (h : ∃ groups ws, Tracks N sizes ti s groups ws)
    (hregular : Regular sizes s a) (hs : s.step sizes ti a = some s') :
    ∃ groups ws, Tracks N sizes ti s' groups ws := by
  obtain ⟨groups, ws, h⟩ := h
  cases a with
  | insert o =>
    obtain ⟨hpending, hs⟩ := Option.ite_none_right_eq_some.mp hs
    obtain ⟨cur, hcur, rfl⟩ := Option.map_eq_some_iff.mp hs
    exact ⟨groups, ws, tracks_insert h hsuits hpending hcur hregular⟩
  | thread a =>
    obtain ⟨hwait, hs⟩ := Option.ite_none_left_eq_some.mp hs
    obtain ⟨f, hf, rfl⟩ := Option.map_eq_some_iff.mp hs
    have hsound := Filling.sound_step hsuits.fit _ a f h.sound hf
    cases a with
    | prepareCtx ok => exact ⟨groups, ws, tracks_prepareCtx h hsound hf⟩
    | checkFill => exact ⟨groups, ws, tracks_checkFill h hsound hf⟩
    | writer => exact tracks_writer h hone htwo hsound hf
    | receive r => exact ⟨groups, tracks_receive h hone htwo hregular hsound hf⟩
    | flush => exact ⟨groups, ws, tracks_flush h hsound hf⟩
    | shutdown => exact ⟨groups, ws, tracks_shutdown h hsound hf⟩
    | getRead =>
      have hnot : s.pending = false := by simpa using hwait
      exact ⟨groups, ws, tracks_getRead h hnot hsound hf⟩
    | reader => exact ⟨groups, ws, tracks_reader h hsound hf⟩

theorem Tracks.delivered {groups : List (List (List UInt8))} {ws : List (List UInt8)}
    (h : Tracks N sizes ti s groups ws) (hpos : 0 < sizes.packetSize) : Delivered ti s := by
  refine ⟨groups.take s.inserts.length, (groups.drop s.inserts.length).flatten ++ ws, ?_,
    h.inserted, h.table, fun hstopped hall => ?_⟩
  · rw [← List.append_assoc, ← List.flatten_append, List.take_append_drop, h.stored]
  · -- the last flush has published all that was left, and every group is inserted
    have hempty := h.flushed (Or.inr hstopped)
    have hnil : ws = [] := by
      rw [List.eq_nil_iff_forall_not_mem]
      intro packet hmem
      have hpacket := h.packets packet (h.stored ▸ List.mem_append_right _ hmem)
      have hlength := List.flatten_eq_nil_iff.mp hempty packet hmem
      rw [hlength] at hpacket
      exact absurd hpacket (Nat.ne_of_lt hpos)
    rw [hnil, hall, ← h.carries.published, List.drop_length]
    rfl

end Runs

theorem suits_pgPrepareSizes {ti : PgTableInfo} (h : ti.Prepared) {cap : UInt64}
    (hpos : 0 < ti.rowSize) (hle : ti.rowSize ≤ cap)
    (hrows : (cap / ti.rowSize).toNat * encodedRowSize ti < 2 ^ 31) :
    Suits (pgPrepareSizes ti.rowSize cap) ti := by
  have hposNat : 0 < ti.rowSize.toNat := UInt64.lt_iff_toNat_lt.mp hpos
  refine ⟨h, Filling.fit_pgPrepareSizes hpos hle, rfl, ?_⟩
  have hitems : (pgPrepareSizes ti.rowSize cap).bufferMaxFill / ti.rowSize.toNat =
      (cap / ti.rowSize).toNat := by
    simp only [pgPrepareSizes, UInt64.toNat_mul, UInt64.toNat_div]
    rw [Nat.mod_eq_of_lt (Nat.lt_of_le_of_lt (Nat.mul_div_le _ _) cap.toNat_lt),
      Nat.mul_div_cancel_left _ hposNat]
  change (pgPrepareSizes ti.rowSize cap).bufferMaxFill / ti.rowSize.toNat * _ < _
  rw [hitems]
  exact hrows

theorem prepared_oneInt4 : oneInt4.Prepared := by
  have hsupported : ∀ col ∈ oneInt4.dataColumns,
      (col.typeOid, col.typeLength) ∈ supportedTypes := by decide
  refine ⟨hsupported, by decide, by decide, by decide, ?_⟩
  intro k hk
  have hone : oneInt4.dataColumns.length = 1 := by decide
  obtain rfl : k = 0 := by omega
  rfl

/-- Two packets in buffers of one row each; the second is published by the flush. -/
def twoRows : List HandlerStep :=
  let publish : List HandlerStep := List.replicate 5 (.thread .writer)
  let read : List HandlerStep := .thread .getRead :: List.replicate 5 (.thread .reader)
  [.thread (.prepareCtx true), .thread .checkFill, .thread (.receive (.frame [1, 0, 0, 0])),
      .thread .checkFill] ++ publish ++
    [.thread (.receive (.frame [2, 0, 0, 0]))] ++ read ++
    [.insert { noScratch with scratchOk := true }, .thread .shutdown, .thread .flush,
      .thread .writer] ++ publish ++ [.thread .shutdown] ++ read ++
    [.insert { noScratch with scratchOk := true, rowsRet := 0 }]

end Lmalloc.Handler
