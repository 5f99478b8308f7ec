/-
  Lmalloc/Karena/Atomicity.lean
  =============================
  **What a failed ioctl leaves behind.**

  A handler changes its slot before the steps that can still fail: the size check,
  `vmalloc`, the slot search, the copy back to the user.  No error path undoes the
  change.  CREATE passes its static slot to `kfree`, and when the copy back fails
  the new region stays allocated.  `Undoes` says for each command which failures
  leave the state as it was.
-/
import Lmalloc.Karena.System

namespace Lmalloc.Karena

/-- From `k` to `k'` nothing has happened that a failed call may not leave behind.
    A region obtained in between has been freed in between; nothing in the module
    comes from `kmalloc`, so nothing may have gone to `kfree`. -/
structure FailsCleanly (k k' : Kernel) : Prop where
  slots : k'.karenas = k.karenas
  index : k'.currentArenaIndex = k.currentArenaIndex
  regions : ∀ r, k.regions.length ≤ r → r < k'.regions.length →
    r ∈ k'.vfreed.drop k.vfreed.length
  kfree : k'.kfreed = k.kfreed

/-- The child BOOTSTRAP puts into a free slot. -/
def KArena.child (a : KArena) (size : UInt64) : KArena :=
  ⟨size, 0, a.uaddr + a.cur, true, a.kaddr, a.ownerPid⟩

/-- The condition on a call, in the state before it.  A known command other than
    CREATE addresses a slot.  CREATE finds no slot, or succeeds to the end.  ALLOC,
    SEEK and RESERVE that move the cursor, and BOOTSTRAP that finds a slot, reach
    the user, or what they write is what was there before.  BOOTSTRAP that finds no
    slot asks for 0 bytes. -/
def Undoes (k : Kernel) (cmd : Cmd) (d : KaData) (env : Env) : Prop :=
  env.copyFromUser = true →
    match cmd with
    | .create => openSlot k.karenas = none ∨
        pageAlign d.size ≠ 0 ∧ env.vmalloc = true ∧ env.copyToUser = true
    | .alloc => ∃ i, slot? d.arena = some i ∧
        ((k.karenas i).cur + d.size ≤ (k.karenas i).size → env.copyToUser = true ∨ d.size = 0)
    | .seek => ∃ i, slot? d.arena = some i ∧
        (env.copyToUser = true ∨ d.size = (k.karenas i).cur)
    | .reserve => ∃ i, slot? d.arena = some i ∧
        ((k.karenas i).cur + d.size ≤ (k.karenas i).size → env.copyToUser = true ∨ d.size = 0)
    | .bootstrap => ∃ i, slot? d.arena = some i ∧
        (d.size ≤ (k.karenas i).size - (k.karenas i).cur →
          match openSlot k.karenas with
          | none => d.size = 0
          | some j => env.copyToUser = true ∨
              k.karenas j = (k.karenas i).child d.size ∧ (j = i ∨ d.size = 0))
    | .pop | .pos | .size | .base | .destroy => ∃ i, slot? d.arena = some i
    | .other _ => True

/-! ### The end of `karena_ioctl` -/

theorem FailsCleanly.refl (k : Kernel) : FailsCleanly k k :=
  ⟨rfl, rfl, fun _ hle hlt => absurd hlt (Nat.not_lt.mpr hle), rfl⟩

theorem failsCleanly_setSlot {k : Kernel} {i : Slot} {a : KArena} :
    FailsCleanly k (k.setSlot i a) ↔ a = k.karenas i := by
  constructor
  · intro h
    have hi := congrFun h.slots i
    rwa [karenas_setSlot_same] at hi
  · rintro rfl
    have hsame : k.setSlot i (k.karenas i) = k := by
      simp only [Kernel.setSlot, Function.update_eq_self]
    rw [hsame]
    exact FailsCleanly.refl k

/-- A call fails when its handler does, or when its answer cannot be copied back. -/
theorem copyBack_fails {cmd : Cmd} {env : Env} {r : Int × Kernel × KaData} :
    (copyBack cmd env r).1 ≠ 0 ↔
      r.1 ≠ 0 ∨ cmd ≠ .pop ∧ cmd ≠ .destroy ∧ env.copyToUser = false := by
  simp only [copyBack]
  by_cases hret : r.1 = 0
  · by_cases hcmd : cmd ≠ .pop ∧ cmd ≠ .destroy
    · rcases hto : env.copyToUser with _ | _
      · simp [hret, hcmd, eFAULT]
      · simp [hret, hcmd]
    · simp only [hret, ne_eq, not_true_eq_false, if_false, if_neg hcmd, false_or, false_iff]
      rintro ⟨hpop, hdestroy, _⟩
      exact hcmd ⟨hpop, hdestroy⟩
  · simp [hret]

/-- A command on the cursor leaves its slot alone when it fails and when its
    answer is lost. -/
def LeavesSlot (handler : KArena → KaData → Int × KArena × KaData) (a : KArena) (d : KaData)
    (lost : Prop) : Prop :=
  (handler a d).1 ≠ 0 ∨ lost → (handler a d).2.1 = a

theorem failsCleanly_onSlot {k : Kernel} {cmd : Cmd} {env : Env} {i : Slot} {d : KaData}
    {handler : KArena → KaData → Int × KArena × KaData} :
    ((copyBack cmd env (onSlot k i d handler)).1 ≠ 0 →
        FailsCleanly k (copyBack cmd env (onSlot k i d handler)).2.1) ↔
      LeavesSlot handler (k.karenas i) d
        (cmd ≠ .pop ∧ cmd ≠ .destroy ∧ env.copyToUser = false) := by
  rw [copyBack_fails, state_copyBack]
  simp only [onSlot, failsCleanly_setSlot, LeavesSlot]

/-! ### The commands on the cursor -/

section Cursor

variable {a : KArena} {d : KaData} {lost : Prop}

theorem setCur_eq_iff {c : UInt64} : { a with cur := c } = a ↔ c = a.cur := by
  constructor
  · intro h
    exact congrArg KArena.cur h
  · rintro rfl
    rfl

theorem leavesSlot_alloc : LeavesSlot handleArenaAlloc a d lost ↔
    (a.cur + d.size ≤ a.size → lost → d.size = 0) := by
  by_cases hfit : a.cur + d.size ≤ a.size
  · simp [LeavesSlot, handleArenaAlloc, hfit, setCur_eq_iff]
  · simp [LeavesSlot, handleArenaAlloc, hfit]

theorem leavesSlot_reserve : LeavesSlot handleArenaReserve a d lost ↔
    (a.cur + d.size ≤ a.size → lost → d.size = 0) := by
  by_cases hfit : a.cur + d.size ≤ a.size
  · have hlt : ¬ a.size < a.cur + d.size := UInt64.not_lt.mpr hfit
    simp [LeavesSlot, handleArenaReserve, hlt, hfit, setCur_eq_iff]
  · have hlt : a.size < a.cur + d.size := UInt64.not_le.mp hfit
    simp [LeavesSlot, handleArenaReserve, hlt, hfit]

theorem leavesSlot_seek : LeavesSlot handleArenaSeek a d lost ↔ (lost → d.size = a.cur) := by
  simp [LeavesSlot, handleArenaSeek, setCur_eq_iff]

/-- POP copies nothing back, so no answer of it is lost. -/
theorem leavesSlot_pop (h : ¬ lost) : LeavesSlot handleArenaPop a d lost := by
  by_cases hshort : a.cur < d.size
  · simp [LeavesSlot, handleArenaPop, hshort]
  · simp [LeavesSlot, handleArenaPop, hshort, h]

end Cursor

/-! ### The commands on the table -/

section Table

variable {k : Kernel} {env : Env} {d : KaData} {i : Slot}

theorem undoes_create (pid : Pid) :
    ((copyBack .create env (handleArenaCreate k pid d env)).1 ≠ 0 →
        FailsCleanly k (copyBack .create env (handleArenaCreate k pid d env)).2.1) ↔
      (openSlot k.karenas = none ∨
        pageAlign d.size ≠ 0 ∧ env.vmalloc = true ∧ env.copyToUser = true) := by
  obtain ⟨size, arena⟩ := d
  rw [copyBack_fails, state_copyBack]
  rcases hopen : openSlot k.karenas with _ | j
  · rw [handleArenaCreate_full hopen]
    simp [FailsCleanly.refl]
  have hkfree : ∀ l : List Slot, l ++ [j] ≠ l := fun l h => by
    have hlen := congrArg List.length h
    simp at hlen
  by_cases hsize : pageAlign size = 0
  · rw [handleArenaCreate_zero hopen hsize]
    constructor
    · intro h
      exact absurd (h (Or.inl (show -eINVAL ≠ 0 by decide))).kfree (hkfree _)
    · simp [hsize]
  · rcases hv : env.vmalloc with _ | _
    · rw [handleArenaCreate_noMemory hopen hsize hv]
      constructor
      · intro h
        exact absurd (h (Or.inl (show -eNOMEM ≠ 0 by decide))).kfree (hkfree _)
      · simp
    · rw [handleArenaCreate_ok hopen hsize hv]
      rcases hto : env.copyToUser with _ | _
      · -- the region the call has obtained is still there
        constructor
        · intro h
          have hregion := (h (Or.inr (by simp))).regions k.regions.length (Nat.le_refl _)
            (by simp [Kernel.created])
          simp [Kernel.created] at hregion
        · simp
      · simp [hsize]

theorem failsCleanly_claim {size : UInt64} : FailsCleanly k (k.claim i size) ↔ size = 0 := by
  rw [Kernel.claim, failsCleanly_setSlot, setCur_eq_iff, UInt64.add_eq_left]

theorem failsCleanly_bootstrapped {size : UInt64} {j : Slot} :
    FailsCleanly k (k.bootstrapped i size j) ↔
      k.karenas j = (k.karenas i).child size ∧ (j = i ∨ size = 0) := by
  have hchild : k.bootstrapped i size j = (k.claim i size).setSlot j ((k.karenas i).child size) :=
    rfl
  by_cases hj : j = i
  · subst hj
    rw [hchild, Kernel.claim, setSlot_setSlot, failsCleanly_setSlot]
    simp only [true_or, and_true, eq_comm]
  · constructor
    · intro h
      rw [hchild] at h
      have hparent := congrFun h.slots i
      rw [karenas_setSlot_other _ _ (Ne.symm hj), Kernel.claim, karenas_setSlot_same,
        setCur_eq_iff, UInt64.add_eq_left] at hparent
      have hslot := congrFun h.slots j
      rw [karenas_setSlot_same] at hslot
      exact ⟨hslot.symm, Or.inr hparent⟩
    · rintro ⟨hslot, hj' | rfl⟩
      · exact absurd hj' hj
      · have hclaim : k.claim i 0 = k := by
          simp only [Kernel.claim, UInt64.add_zero, Kernel.setSlot, Function.update_eq_self]
        rw [hchild, hclaim]
        exact failsCleanly_setSlot.mpr hslot.symm

theorem undoes_bootstrap :
    ((copyBack .bootstrap env (handleArenaBootstrap k i d)).1 ≠ 0 →
        FailsCleanly k (copyBack .bootstrap env (handleArenaBootstrap k i d)).2.1) ↔
      (d.size ≤ (k.karenas i).size - (k.karenas i).cur →
        match openSlot k.karenas with
        | none => d.size = 0
        | some j => env.copyToUser = true ∨
            k.karenas j = (k.karenas i).child d.size ∧ (j = i ∨ d.size = 0)) := by
  rw [copyBack_fails, state_copyBack]
  rcases handleArenaBootstrap_cases k i d with
    ⟨hshort, heq⟩ | ⟨hroom, hopen, heq⟩ | ⟨j, hroom, hopen, heq⟩
  · rw [heq]
    simp [FailsCleanly.refl, UInt64.not_le.mpr hshort]
  · rw [heq, hopen]
    simp [failsCleanly_claim, hroom, eFAULT]
  · rw [heq, hopen]
    rcases hto : env.copyToUser with _ | _
    · simp [failsCleanly_bootstrapped, hroom]
    · simp

end Table

/-! ### Every call -/

/-- **A call fails without a trace, or does not fail, exactly under the
    condition.** -/
theorem failsCleanly_iff (k : Kernel) (pid : Pid) (cmd : Cmd) (d : KaData) (env : Env) :
    (∃ r, karenaIoctl k pid cmd d env = some r ∧ (r.1 ≠ 0 → FailsCleanly k r.2.1)) ↔
      Undoes k cmd d env := by
  rcases hcopy : env.copyFromUser with _ | _
  · rw [karenaIoctl_noCopy _ hcopy]
    simp [Undoes, hcopy, FailsCleanly.refl]
  -- a command on the cursor that addresses a slot
  have hslot : ∀ handler, slotHandler cmd = some handler →
      ((∃ r, karenaIoctl k pid cmd d env = some r ∧ (r.1 ≠ 0 → FailsCleanly k r.2.1)) ↔
        ∃ i, slot? d.arena = some i ∧ LeavesSlot handler (k.karenas i) d
          (cmd ≠ .pop ∧ cmd ≠ .destroy ∧ env.copyToUser = false)) := by
    intro handler hcmd
    rw [karenaIoctl_onSlot hcmd hcopy]
    rcases slot? d.arena with _ | i
    · simp
    · simp only [Option.map_some, Option.some.injEq, exists_eq_left', failsCleanly_onSlot]
  have hlost : ∀ p : Prop, (env.copyToUser = false → p) ↔ (env.copyToUser = true ∨ p) := by
    intro p
    rcases env.copyToUser with _ | _
    · simp
    · simp
  cases cmd with
  | alloc =>
    rw [hslot _ rfl]
    simp [leavesSlot_alloc, Undoes, hcopy, hlost]
  | reserve =>
    rw [hslot _ rfl]
    simp [leavesSlot_reserve, Undoes, hcopy, hlost]
  | seek =>
    rw [hslot _ rfl]
    simp [leavesSlot_seek, Undoes, hcopy, hlost]
  | pop =>
    rw [hslot _ rfl]
    simp [leavesSlot_pop, Undoes, hcopy]
  | pos =>
    rw [hslot _ rfl]
    simp [LeavesSlot, handleArenaPos, Undoes, hcopy]
  | size =>
    rw [hslot _ rfl]
    simp [LeavesSlot, handleArenaSize, Undoes, hcopy]
  | base =>
    rw [hslot _ rfl]
    simp [LeavesSlot, handleArenaBase, Undoes, hcopy]
  | create =>
    rw [karenaIoctl_create hcopy]
    simp only [Option.some.injEq, exists_eq_left', undoes_create, Undoes, hcopy, forall_true_left]
  | bootstrap =>
    rw [karenaIoctl_bootstrap hcopy]
    rcases harena : slot? d.arena with _ | i
    · simp [Undoes, hcopy, harena]
    · simp only [Option.map_some, Option.some.injEq, exists_eq_left', undoes_bootstrap, Undoes,
        hcopy, harena, forall_true_left]
  | destroy =>
    rw [karenaIoctl_destroy hcopy]
    rcases harena : slot? d.arena with _ | i
    · simp [Undoes, hcopy, harena]
    · have hret : (handleArenaDestroy k i d).1 = 0 := by
        simp only [handleArenaDestroy]
        split
        · rfl
        · rfl
      simp [Undoes, hcopy, harena, copyBack, hret]
  | other n => simp [karenaIoctl, hcopy, Undoes, copyBack, eNOTTY, FailsCleanly.refl]

/-- CREATE of 0 bytes fails on a fresh module with `-EINVAL`; it has made slot 0
    the current arena, written the caller into it, and passed it to `kfree`. -/
theorem create_zero_leaves_traces :
    ∃ k', karenaIoctl Kernel.boot 7 .create ⟨0, 0⟩ Env.ok = some (-eINVAL, k', none) ∧
      k'.kfreed = [0] ∧ (k'.karenas 0).ownerPid = 7 ∧ ¬ FailsCleanly Kernel.boot k' := by
  refine ⟨_, rfl, by decide, by decide, ?_⟩
  intro h
  exact absurd h.kfree (by decide)

end Lmalloc.Karena
