/-
  Lmalloc/Handler/Machine.lean
  ============================
  **The data handler: from the frames `MbRun` accepts to the rows of the table.**

  The two threads run on one pipe with every pipe call cut into its operations, as
  in `FillLevel.lean`; on top of that `PgRun` calls `PgInsertData` once with each
  buffer it gets, and the server keeps what is committed.

  Packets are published in groups, one to a buffer.  A group stays in its buffer,
  untouched, until `PgInsertData` has been called with it: the writer is at most
  two publications ahead of the last call, so with three buffers it never comes
  round to one that is still waited for.
-/
import Lmalloc.Handler.Committed
import Lmalloc.Pipe.FillLevel
import Lmalloc.Pipe.Ownership

namespace Lmalloc.Handler

open Lmalloc.Library Lmalloc.Postgres Lmalloc.Pipe

/-! ### The machine -/

/-- `pending` holds while `PgRun` has a buffer it has not yet inserted.  `stored` logs
    the packets `MbRun` has copied into a buffer, `inserts` the buffers `PgInsertData`
    was called with and what it returned. -/
structure DataHandler where
  filling : Filling
  pending : Bool
  stored : List (List UInt8)
  inserts : List (List UInt8 × Int32)
  table : List CopyFormat.Tuple

inductive HandlerStep where
  | thread (a : FillStep)
  | insert (o : Outcomes)

/-- The packet a step stores. -/
def storedBy (sizes : PipeSizes) : FillStep → List (List UInt8)
  | .receive (.frame data) => if data.length = sizes.packetSize then [data] else []
  | _ => []

namespace DataHandler

def init (bufCount : UInt64) : DataHandler := ⟨Filling.init bufCount, false, [], [], []⟩

/-- The call of `PgInsertData` with the buffer `cur`. -/
def insertBuffer (sizes : PipeSizes) (ti : PgTableInfo) (s : DataHandler) (cur : UInt32)
    (o : Outcomes) : DataHandler :=
  let block := s.filling.threads.pipe.buffers cur
  let itemCount := UInt64.ofNat (block.length / sizes.packetSize)
  let (ret, calls) := pgInsertData ti (blockData block) itemCount o
  { s with
    pending := false
    inserts := s.inserts ++ [(block, ret)]
    table := s.table ++ committed calls }

/-- What a step of the threads that leads to `f` leaves. -/
def after (sizes : PipeSizes) (s : DataHandler) (a : FillStep) (f : Filling) : DataHandler :=
  { s with
    filling := f
    stored := s.stored ++ storedBy sizes a
    pending := s.pending || (a == .reader && f.threads.owned.isSome) }

def step (sizes : PipeSizes) (ti : PgTableInfo) (s : DataHandler) :
    HandlerStep → Option DataHandler
  | .thread a =>
      -- the next buffer is asked for when the last one has been inserted
      if a = .getRead ∧ s.pending = true then none
      else (s.filling.step sizes a).map (s.after sizes a)
  | .insert o =>
      if s.pending then s.filling.threads.owned.map fun cur => s.insertBuffer sizes ti cur o
      else none

end DataHandler

/-! ### Groups of packets in the buffers -/

/-- The packets of the groups are in their buffers from group number `done` on, and
    `ws` in the buffer that the writer holds. -/
structure Carries (N : UInt64) (done : ℕ) (t : Threads) (groups : List (List (List UInt8)))
    (ws : List (List UInt8)) : Prop where
  inv : Inv N t
  published : groups.length = t.published.length
  current : ∀ i, t.held = some i → t.pipe.buffers i = ws.flatten
  signalled : t.held = none → ws = []
  kept : ∀ j (hj : j < groups.length), done ≤ j → ∀ i : UInt32, i.toNat = j % N.toUInt32.toNat →
    t.pipe.buffers i = groups[j].flatten

section Carries

variable {N : UInt64} {done : ℕ} {t t' : Threads} {groups : List (List (List UInt8))}
  {ws : List (List UInt8)}

/-- Up to two publications ahead, in a ring of neither one place nor two. -/
theorem place_ne {n j k : ℕ} (hone : n ≠ 1) (htwo : n ≠ 2) (hlt : j < k) (hnear : k ≤ j + 2) :
    j % n ≠ k % n := by
  rcases Nat.eq_zero_or_pos n with rfl | hpos
  · rw [Nat.mod_zero, Nat.mod_zero]
    omega
  · exact Ring.index_ne hlt (by omega)

/-- A change of the writer's buffer, or of the one after the last publication, leaves
    the groups as they are. -/
theorem Carries.kept_update (h : Carries N done t groups ws) (hone : N.toUInt32.toNat ≠ 1)
    (htwo : N.toUInt32.toNat ≠ 2) (hnear : t.published.length ≤ done + 2) {k : UInt32}
    (hk : k.toNat = t.published.length % N.toUInt32.toNat) (bytes : List UInt8) :
    ∀ j (hj : j < groups.length), done ≤ j → ∀ i : UInt32, i.toNat = j % N.toUInt32.toNat →
      Function.update t.pipe.buffers k bytes i = groups[j].flatten := by
  intro j hj hdone i hi
  have hlt : j < t.published.length := by
    rw [← h.published]
    exact hj
  have hne : i ≠ k := by
    rintro rfl
    exact place_ne hone htwo hlt (by omega) (hi.symm.trans hk)
  rw [Function.update_of_ne hne]
  exact h.kept j hj hdone i hi

/-- The writer appends a packet. -/
theorem Carries.append (h : Carries N done t groups ws) (hone : N.toUInt32.toNat ≠ 1)
    (htwo : N.toUInt32.toNat ≠ 2) (hnear : t.published.length ≤ done + 2)
    (hidle : t.writer = .idle) (data : List UInt8) :
    Carries N done { t with pipe := t.pipe.append t.pipe.writeBufIdx data } groups
      (ws ++ [data]) := by
  have hheld : t.held = some t.pipe.writeBufIdx := by simp [Threads.held, hidle]
  have hheld' : ({ t with pipe := t.pipe.append t.pipe.writeBufIdx data } : Threads).held =
      some t.pipe.writeBufIdx := by
    simp [Threads.held, hidle, SensorDataPipe.append]
  have hinv := h.inv
  refine ⟨⟨hinv.bufCount_eq, hinv.published_eq, hinv.reads_eq, hinv.token, hinv.balance, hinv.full,
    hinv.writer, hinv.reader⟩, h.published, ?_, ?_, ?_⟩
  · intro i hi
    rw [hheld'] at hi
    cases hi
    simp [h.current _ hheld]
  · intro hnone
    rw [hheld'] at hnone
    cases hnone
  · exact h.kept_update hone htwo hnear (held_at hinv hheld) _

/-- An operation of a pipe call of the writer. -/
theorem Carries.stepWriter (h : Carries N done t groups ws) (hone : N.toUInt32.toNat ≠ 1)
    (htwo : N.toUInt32.toNat ≠ 2) (hnear : t.published.length ≤ done + 2)
    (hs : t.stepWriter = some t') :
    ∃ more ws', Carries N done t' (groups ++ more) ws' ∧ more.flatten ++ ws' = ws ∧
      (t'.writer = .idle → ws'.flatten = []) := by
  have hinv' := inv_stepWriter h.inv hs
  have hat := h.inv.writer
  -- all operations but two leave the buffers and the publications as they are
  have hsame : t'.pipe.buffers = t.pipe.buffers → t'.published = t.published →
      t'.held = t.held → (t'.writer = .idle → ws.flatten = []) →
      ∃ more ws', Carries N done t' (groups ++ more) ws' ∧ more.flatten ++ ws' = ws ∧
        (t'.writer = .idle → ws'.flatten = []) := by
    intro hbuffers hpublished hheld hidle
    refine ⟨[], ws, ⟨hinv', ?_, ?_, ?_, ?_⟩, rfl, hidle⟩
    · rw [List.append_nil, hpublished, h.published]
    · rw [hheld, hbuffers]
      exact h.current
    · rw [hheld]
      exact h.signalled
    · rw [hbuffers]
      simpa using h.kept
  unfold Threads.stepWriter at hs
  split at hs
  next => cases hs
  next cur hpc =>
    rw [hpc] at hat
    have hcur : t.pipe.writeBufIdx = cur := UInt32.toNat_inj.mp (hat.2.trans hat.1.symm)
    have hheld : t.held = some cur := by simp [Threads.held, hpc]
    split at hs
    · obtain ⟨next, -, rfl⟩ := Option.map_eq_some_iff.mp hs
      refine hsame rfl rfl ?_ (by simp)
      rw [hheld, ← hcur]
      rfl
    · next hempty =>
      cases hs
      refine hsame rfl rfl ?_ fun _ => ?_
      · rw [hheld, ← hcur]
        rfl
      · rw [← h.current cur hheld]
        exact not_not.mp hempty
  next cur next hpc =>
    obtain ⟨r, -, rfl⟩ := Option.map_eq_some_iff.mp hs
    exact hsame rfl rfl (by simp [Threads.held, hpc]) (by simp)
  next cur next hpc =>
    cases hs
    exact hsame rfl rfl (by simp [Threads.held, hpc]) (by simp)
  next cur next hpc =>
    cases hs
    exact hsame rfl rfl (by simp [Threads.held, hpc]) (by simp)
  next cur next hpc =>
    -- the buffer is announced to the reader
    rw [hpc] at hat
    cases hs
    have hheld : t.held = some cur := by simp [Threads.held, hpc]
    refine ⟨[ws], [], ⟨hinv', ?_, ?_, fun _ => rfl, ?_⟩, by simp, by simp⟩
    · simp [h.published]
    · intro i hi
      simp [Threads.held] at hi
    · intro j hj hdone i hi
      rw [List.length_append, List.length_singleton] at hj
      rcases Nat.lt_or_ge j groups.length with hlt | hge
      · rw [List.getElem_append_left hlt]
        exact h.kept j hlt hdone i hi
      · obtain rfl : j = groups.length := by omega
        rw [h.published] at hi
        obtain rfl : i = cur := UInt32.toNat_inj.mp (hi.trans hat.1.symm)
        rw [List.getElem_append_right (Nat.le_refl _)]
        simpa using h.current _ hheld
  next next hpc =>
    -- `ArenaFree` of the new buffer
    rw [hpc] at hat
    cases hs
    have hnil : ws = [] := h.signalled (by simp [Threads.held, hpc])
    have hnext : t.pipe.writeBufIdx = next := UInt32.toNat_inj.mp (hat.2.trans hat.1.symm)
    refine ⟨[], ws, ⟨hinv', ?_, ?_, fun _ => hnil, ?_⟩, rfl, fun _ => by rw [hnil]; rfl⟩
    · rw [List.append_nil]
      exact h.published
    · intro i hi
      obtain rfl : t.pipe.writeBufIdx = i := by
        simpa [Threads.held, SensorDataPipe.freeBuffer] using hi
      rw [hnil, hnext]
      exact Function.update_self _ _ _
    · simpa [SensorDataPipe.freeBuffer] using h.kept_update hone htwo hnear hat.1 []

/-- A step that leaves the writer, the buffers and the publications as they are. -/
theorem Carries.of_frame (h : Carries N done t groups ws) (hinv : Inv N t')
    (hbuffers : t'.pipe.buffers = t.pipe.buffers) (hpublished : t'.published = t.published)
    (hheld : t'.held = t.held) : Carries N done t' groups ws := by
  refine ⟨hinv, ?_, ?_, ?_, ?_⟩
  · rw [hpublished, h.published]
  · rw [hheld, hbuffers]
    exact h.current
  · rw [hheld]
    exact h.signalled
  · rw [hbuffers]
    exact h.kept

theorem Carries.stepReader (h : Carries N done t groups ws) (hs : t.stepReader = some t') :
    Carries N done t' groups ws := by
  have hframe : t'.pipe.buffers = t.pipe.buffers ∧ t'.published = t.published ∧
      t'.held = t.held := by
    unfold Threads.stepReader at hs
    split at hs
    next => cases hs
    next =>
      obtain ⟨r, -, rfl⟩ := Option.map_eq_some_iff.mp hs
      exact ⟨rfl, rfl, rfl⟩
    next =>
      cases hs
      exact ⟨rfl, rfl, rfl⟩
    next =>
      obtain ⟨next, -, rfl⟩ := Option.map_eq_some_iff.mp hs
      exact ⟨rfl, rfl, rfl⟩
    next =>
      cases hs
      exact ⟨rfl, rfl, rfl⟩
    next =>
      cases hs
      exact ⟨rfl, rfl, rfl⟩
    next => cases hs
  exact h.of_frame (inv_stepReader h.inv hs) hframe.1 hframe.2.1 hframe.2.2

/-- What the reader has been given is the group of that number. -/
theorem Carries.read (h : Carries N done t groups ws) {cur : UInt32}
    (hcur : t.owned = some cur) (hdone : t.reads.length = done + 1) :
    ∃ hlt : done < groups.length, t.pipe.buffers cur = groups[done].flatten := by
  obtain ⟨j, hj, hplace⟩ := owned_at h.inv hcur
  obtain rfl : j = done := by omega
  have hbalance := h.inv.balance
  have hlt : j < groups.length := by
    rw [h.published]
    omega
  exact ⟨hlt, h.kept j hlt (Nat.le_refl _) cur hplace⟩

end Carries

end Lmalloc.Handler
