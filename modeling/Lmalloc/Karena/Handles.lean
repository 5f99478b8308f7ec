/-
  Lmalloc/Karena/Handles.lean
  ===========================
  **Which slot indices are outstanding, and which are handed out twice.**

  A handle is the slot index a successful `KARENA_CREATE` or `KARENA_BOOTSTRAP`
  returns; it is live until the slot is destroyed or released.  The ledger below
  keeps the live handles of a run, and of these the *pending* ones: those whose
  arena still has no address, because `ka_create` makes a second call, `mmap`,
  to give it one.

  The module takes a slot to be free when its `uaddr` is 0, and
  `handle_arena_create` writes that 0 over the mark `find_open_slot` has left.
  So a pending slot looks free: a live slot has `uaddr = 0` exactly when it is
  pending, and a handle is issued twice exactly when the search gets as far as a
  pending slot.
-/
import Lmalloc.Karena.System
import Mathlib.Data.Fintype.Basic
import Mathlib.Data.Finset.SDiff
import Mathlib.Data.Finset.Option

namespace Lmalloc.Karena

open Lmalloc.Library

/-- The steps that create, map and end arenas; every call into the kernel and
    every user copy succeeds. -/
inductive HandleStep where
  | devOpen
  | create (pid : Pid) (size : UInt64)
  | mmap (area : VmArea)
  | bootstrap (pid : Pid) (parent size : UInt64)
  | destroy (pid : Pid) (arena : UInt64)
  | release (pid : Pid)

def HandleStep.action : HandleStep → Action
  | .devOpen => .devOpen
  | .create pid size => .ioctl pid .create ⟨size, 0⟩ Env.ok
  | .mmap area => .mmap area
  | .bootstrap pid parent size => .ioctl pid .bootstrap ⟨size, parent⟩ Env.ok
  | .destroy pid arena => .ioctl pid .destroy ⟨0, arena⟩ Env.ok
  | .release pid => .release pid

/-- The slot index a successful ioctl has written back. -/
def handle : Option (Int × Kernel × Option KaData) → Option Slot
  | some (0, _, some alloc) => slot? alloc.arena
  | _ => none

def issued (k : Kernel) : HandleStep → Option Slot
  | .create pid size => handle (karenaIoctl k pid .create ⟨size, 0⟩ Env.ok)
  | .bootstrap pid parent size => handle (karenaIoctl k pid .bootstrap ⟨size, parent⟩ Env.ok)
  | _ => none

/-- The handles a step ends: the destroyed one, or those `dev_release` clears. -/
def retired (k k' : Kernel) : HandleStep → Finset Slot
  | .destroy _ arena => (slot? arena).toFinset
  | .release _ => Finset.univ.filter fun i => (k.karenas i).uaddr ≠ 0 ∧ (k'.karenas i).uaddr = 0
  | _ => ∅

/-- The slot a step gives an address to: by a successful `mmap`, or by the
    bootstrap of a child whose address is not 0. -/
def mapped (k : Kernel) : HandleStep → Finset Slot
  | .mmap area => ((karenaMmap k area).bind fun r => r.2.2).toFinset
  | .bootstrap pid parent size =>
      match slot? parent with
      | some i =>
          if (k.karenas i).uaddr + (k.karenas i).cur = 0 then ∅
          else (issued k (.bootstrap pid parent size)).toFinset
      | none => ∅
  | _ => ∅

/-- A run so far: the world, the live handles and the pending ones. -/
structure Ledger where
  world : World
  live : Finset Slot
  pending : Finset Slot

namespace Ledger

def boot : Ledger := ⟨World.boot, ∅, ∅⟩

def step (l : Ledger) (h : HandleStep) : Option Ledger :=
  (l.world.step h.action).map fun w =>
    { world := w
      live := (l.live ∪ (issued l.world.kernel h).toFinset) \ retired l.world.kernel w.kernel h
      pending := ((l.pending ∪ (issued l.world.kernel h).toFinset) \ mapped l.world.kernel h) \
        retired l.world.kernel w.kernel h }

def Fresh (l : Ledger) (h : HandleStep) : Prop :=
  ∀ i, issued l.world.kernel h = some i → i ∉ l.live

/-- The step asks for a slot and nothing but the table can refuse it. -/
def Asks (k : Kernel) : HandleStep → Prop
  | .create _ size => pageAlign size ≠ 0
  | .bootstrap _ parent size =>
      ∃ i, slot? parent = some i ∧ size ≤ (k.karenas i).size - (k.karenas i).cur
  | _ => False

/-- When the step asks for a slot, some slot below every pending one is free. -/
def Settled (l : Ledger) (h : HandleStep) : Prop :=
  Asks l.world.kernel h →
    ∀ i ∈ l.pending, ∃ j < i, (l.world.kernel.karenas j).uaddr = 0

structure Inv (l : Ledger) : Prop where
  pending_live : l.pending ⊆ l.live
  uaddr_eq_zero_iff : ∀ i ∈ l.live, (l.world.kernel.karenas i).uaddr = 0 ↔ i ∈ l.pending

end Ledger

/-! ### The ioctls with every call succeeding -/

section Ioctl

variable {k : Kernel} {pid : Pid} {size parent : UInt64} {i j : Slot}

theorem create_full (hopen : openSlot k.karenas = none) :
    karenaIoctl k pid .create ⟨size, 0⟩ Env.ok = some (-eFAULT, k, none) := by
  rw [karenaIoctl_create rfl, handleArenaCreate_full hopen]
  simp [copyBack, eFAULT]

theorem create_zero (hopen : openSlot k.karenas = some i) (hsize : pageAlign size = 0) :
    ∃ k', karenaIoctl k pid .create ⟨size, 0⟩ Env.ok = some (-eINVAL, k', none) ∧
      ∀ j, (k'.karenas j).uaddr = (k.karenas j).uaddr := by
  refine ⟨(handleArenaCreate k pid ⟨size, 0⟩ Env.ok).2.1, ?_, ?_⟩
  · rw [karenaIoctl_create rfl, handleArenaCreate_zero hopen hsize]
    simp [copyBack, eINVAL]
  rw [handleArenaCreate_zero hopen hsize]
  intro j
  by_cases hj : j = i
  · simp [hj, Kernel.setSlot, uaddr_of_openSlot hopen]
  · simp [hj, Kernel.setSlot]

theorem create_ok (hopen : openSlot k.karenas = some i) (hsize : pageAlign size ≠ 0) :
    karenaIoctl k pid .create ⟨size, 0⟩ Env.ok =
      some (0, k.created pid i (pageAlign size), some ⟨pageAlign size, slotIndex i⟩) := by
  rw [karenaIoctl_create rfl, handleArenaCreate_ok hopen hsize rfl]
  simp [copyBack, Env.ok]

theorem bootstrap_short (hp : slot? parent = some i)
    (hroom : ¬ size ≤ (k.karenas i).size - (k.karenas i).cur) :
    karenaIoctl k pid .bootstrap ⟨size, parent⟩ Env.ok = some (-eFAULT, k, none) := by
  rw [karenaIoctl_bootstrap rfl, hp, Option.map_some,
    handleArenaBootstrap_short (UInt64.not_le.mp hroom)]
  simp [copyBack, eFAULT]

theorem bootstrap_full (hp : slot? parent = some i)
    (hroom : size ≤ (k.karenas i).size - (k.karenas i).cur) (hopen : openSlot k.karenas = none) :
    karenaIoctl k pid .bootstrap ⟨size, parent⟩ Env.ok =
      some (-eFAULT, k.claim i size, none) := by
  rw [karenaIoctl_bootstrap rfl, hp, Option.map_some,
    handleArenaBootstrap_full (UInt64.not_lt.mpr hroom) hopen]
  simp [copyBack, eFAULT]

theorem bootstrap_ok (hp : slot? parent = some i)
    (hroom : size ≤ (k.karenas i).size - (k.karenas i).cur)
    (hopen : openSlot k.karenas = some j) :
    karenaIoctl k pid .bootstrap ⟨size, parent⟩ Env.ok =
      some (0,
        (k.claim i size).setSlot j
          ⟨size, 0, (k.karenas i).uaddr + (k.karenas i).cur, true,
            (k.karenas i).kaddr, (k.karenas i).ownerPid⟩,
        some ⟨size, slotIndex j⟩) := by
  rw [karenaIoctl_bootstrap rfl, hp, Option.map_some,
    handleArenaBootstrap_ok (UInt64.not_lt.mpr hroom) hopen]
  simp [copyBack, Env.ok]

end Ioctl

/-! ### What one step does to the handles -/

/-- **A step issues the open slot exactly when it asks for one.** -/
theorem issued_eq_some_iff (k : Kernel) (h : HandleStep) (i : Slot) :
    issued k h = some i ↔ Ledger.Asks k h ∧ openSlot k.karenas = some i := by
  cases h with
  | create pid size =>
    simp only [issued, Ledger.Asks]
    rcases hopen : openSlot k.karenas with _ | j
    · rw [create_full hopen]
      simp [handle]
    · by_cases hsize : pageAlign size = 0
      · obtain ⟨k', hcall, _⟩ := create_zero hopen hsize
        rw [hcall]
        simp [handle, hsize]
      · rw [create_ok hopen hsize]
        simp [handle, hsize]
  | bootstrap pid parent size =>
    simp only [issued, Ledger.Asks]
    rcases hp : slot? parent with _ | p
    · rw [karenaIoctl_bootstrap rfl, hp]
      simp [handle]
    · by_cases hroom : size ≤ (k.karenas p).size - (k.karenas p).cur
      · rcases hopen : openSlot k.karenas with _ | j
        · rw [bootstrap_full hp hroom hopen]
          simp [handle]
        · rw [bootstrap_ok hp hroom hopen]
          simp [handle, hroom]
      · rw [bootstrap_short hp hroom]
        simp [handle, hroom]
  | devOpen => simp [issued, Ledger.Asks]
  | mmap area => simp [issued, Ledger.Asks]
  | destroy pid arena => simp [issued, Ledger.Asks]
  | release pid => simp [issued, Ledger.Asks]

/-- What a step does to the `uaddr` fields, in terms of the handles it issues,
    maps and retires. -/
structure Effect (k k' : Kernel) (h : HandleStep) : Prop where
  of_mapped : ∀ i ∈ mapped k h, (k'.karenas i).uaddr ≠ 0
  of_issued : ∀ i ∉ mapped k h, issued k h = some i → (k'.karenas i).uaddr = 0
  frame : ∀ i ∉ mapped k h, i ∉ retired k k' h → issued k h ≠ some i →
    (k'.karenas i).uaddr = (k.karenas i).uaddr

/-- A step that issues and maps nothing, and keeps the `uaddr` of every handle it
    does not retire. -/
theorem Effect.quiet {k k' : Kernel} {h : HandleStep} (hm : mapped k h = ∅)
    (hi : issued k h = none)
    (hframe : ∀ i ∉ retired k k' h, (k'.karenas i).uaddr = (k.karenas i).uaddr) :
    Effect k k' h where
  of_mapped := by simp [hm]
  of_issued := by simp [hi]
  frame := fun i _ hr _ => hframe i hr

theorem issued_eq_none {k : Kernel} {h : HandleStep}
    (hno : ¬ Ledger.Asks k h ∨ openSlot k.karenas = none) : issued k h = none := by
  rw [Option.eq_none_iff_forall_ne_some]
  intro i hi
  obtain ⟨hasks, hopen⟩ := (issued_eq_some_iff k h i).mp hi
  rcases hno with hno | hno
  · exact hno hasks
  · rw [hno] at hopen
    cases hopen

/-- Only the open slot is issued, so every other handle is old. -/
theorem ne_of_not_issued {k : Kernel} {h : HandleStep} {i j : Slot} (hj : issued k h = some j)
    (hi : issued k h ≠ some i) : i ≠ j := by
  rintro rfl
  exact hi hj

theorem effect_create {k k' : Kernel} {pid : Pid} {size : UInt64} {r : Option KaData} {ret : Int}
    (hcall : karenaIoctl k pid .create ⟨size, 0⟩ Env.ok = some (ret, k', r)) :
    Effect k k' (.create pid size) := by
  rcases hopen : openSlot k.karenas with _ | j
  · rw [create_full hopen] at hcall
    cases hcall
    exact Effect.quiet rfl (issued_eq_none (Or.inr hopen)) (fun _ _ => rfl)
  · by_cases hsize : pageAlign size = 0
    · obtain ⟨k₁, hzero, hsame⟩ := create_zero hopen hsize
      rw [hzero] at hcall
      cases hcall
      exact Effect.quiet rfl (issued_eq_none (Or.inl (not_not.mpr hsize))) (fun i _ => hsame i)
    · rw [create_ok hopen hsize] at hcall
      cases hcall
      have hissued : issued k (.create pid size) = some j :=
        (issued_eq_some_iff k _ j).mpr ⟨hsize, hopen⟩
      refine ⟨by simp [mapped], ?_, ?_⟩
      · intro i _ hi
        rw [hissued, Option.some.injEq] at hi
        rw [← hi, created_same]
      · intro i _ _ hi
        rw [created_other _ _ _ (ne_of_not_issued hissued hi)]

theorem effect_bootstrap {k k' : Kernel} {pid : Pid} {parent size : UInt64} {r : Option KaData}
    {ret : Int}
    (hcall : karenaIoctl k pid .bootstrap ⟨size, parent⟩ Env.ok = some (ret, k', r)) :
    Effect k k' (.bootstrap pid parent size) := by
  rcases hp : slot? parent with _ | p
  · rw [karenaIoctl_bootstrap rfl, hp] at hcall
    cases hcall
  have hnone (hno : issued k (.bootstrap pid parent size) = none) :
      mapped k (.bootstrap pid parent size) = ∅ := by
    simp [mapped, hp, hno]
  by_cases hroom : size ≤ (k.karenas p).size - (k.karenas p).cur
  · rcases hopen : openSlot k.karenas with _ | j
    · rw [bootstrap_full hp hroom hopen] at hcall
      cases hcall
      have hno := issued_eq_none (h := .bootstrap pid parent size) (Or.inr hopen)
      exact Effect.quiet (hnone hno) hno (fun i _ => uaddr_claim k p size i)
    · rw [bootstrap_ok hp hroom hopen] at hcall
      cases hcall
      have hissued : issued k (.bootstrap pid parent size) = some j :=
        (issued_eq_some_iff k _ j).mpr ⟨⟨p, hp, hroom⟩, hopen⟩
      refine ⟨?_, ?_, ?_⟩
      · intro i hi
        by_cases haddr : (k.karenas p).uaddr + (k.karenas p).cur = 0
        · simp [mapped, hp, haddr] at hi
        · simp only [mapped, hp, haddr, if_false, hissued, Option.mem_toFinset,
            Option.mem_some_iff] at hi
          simpa [← hi] using haddr
      · intro i hm hi
        rw [hissued, Option.some.injEq] at hi
        subst hi
        by_contra hne
        refine hm ?_
        rw [karenas_setSlot_same] at hne
        simp [mapped, hp, hne, hissued]
      · intro i _ _ hi
        rw [karenas_setSlot_other _ _ (ne_of_not_issued hissued hi), uaddr_claim]
  · rw [bootstrap_short hp hroom] at hcall
    cases hcall
    have hasks : ¬ Ledger.Asks k (.bootstrap pid parent size) := by
      rintro ⟨i, hi, hle⟩
      rw [hp, Option.some.injEq] at hi
      exact hroom (hi ▸ hle)
    have hno := issued_eq_none (Or.inl hasks)
    exact Effect.quiet (hnone hno) hno (fun _ _ => rfl)

theorem effect_mmap {k k' : Kernel} {area : VmArea} {ret : Int} {s : Option Slot}
    (hcall : karenaMmap k area = some (ret, k', s)) : Effect k k' (.mmap area) := by
  have hmapped : mapped k (.mmap area) = s.toFinset := by simp [mapped, hcall]
  rcases karenaMmap_cases hcall with ⟨_, rfl, rfl⟩ | ⟨j, rfl, _, _, rfl⟩
  · exact Effect.quiet hmapped rfl (fun _ _ => rfl)
  · refine ⟨?_, by simp [issued], ?_⟩
    · intro i hi
      rw [hmapped, Option.mem_toFinset, Option.mem_some_iff] at hi
      rw [← hi, karenas_setSlot_same]
      exact area.start_ne_zero
    · intro i hi _ _
      rw [hmapped, Option.mem_toFinset, Option.mem_some_iff] at hi
      rw [karenas_setSlot_other _ _ (Ne.symm hi)]

theorem effect_destroy {k k' : Kernel} {pid : Pid} {arena : UInt64} {r : Option KaData} {ret : Int}
    (hcall : karenaIoctl k pid .destroy ⟨0, arena⟩ Env.ok = some (ret, k', r)) :
    Effect k k' (.destroy pid arena) := by
  rw [karenaIoctl_destroy rfl, Option.map_eq_some_iff] at hcall
  obtain ⟨j, hj, hcall⟩ := hcall
  have hk : k' = (handleArenaDestroy k j ⟨0, arena⟩).2.1 := by
    rw [← state_copyBack .destroy Env.ok, hcall]
  refine Effect.quiet rfl rfl ?_
  intro i hi
  have hne : i ≠ j := by
    rintro rfl
    exact hi (by simp [retired, show slot? arena = some i from hj])
  rw [hk, handleArenaDestroy_state]
  simp [Kernel.setSlot, hne]

theorem effect_release (k : Kernel) (pid : Pid) :
    Effect k (devRelease k pid) (.release pid) := by
  refine Effect.quiet rfl rfl ?_
  intro i hi
  rcases karenas_devRelease k pid i with hsame | ⟨hu, _, hrel⟩
  · rw [hsame]
  · have hzero : ((devRelease k pid).karenas i).uaddr = 0 := by
      rw [hrel]
      rfl
    exact absurd (by simp [retired, hu, hzero]) hi

/-- **Every step has the effect its handles say.** -/
theorem effect_of_step {w w' : World} {h : HandleStep} (hs : w.step h.action = some w') :
    Effect w.kernel w'.kernel h := by
  cases h with
  | devOpen =>
    simp only [HandleStep.action, World.step, Option.some.injEq] at hs
    subst hs
    exact Effect.quiet rfl rfl (fun _ _ => rfl)
  | create pid size =>
    simp only [HandleStep.action, World.step, Option.map_eq_some_iff] at hs
    obtain ⟨⟨ret, k', r⟩, hcall, rfl⟩ := hs
    exact effect_create hcall
  | mmap area =>
    simp only [HandleStep.action, World.step, Option.map_eq_some_iff] at hs
    obtain ⟨⟨ret, k', s⟩, hcall, rfl⟩ := hs
    exact effect_mmap hcall
  | bootstrap pid parent size =>
    simp only [HandleStep.action, World.step, Option.map_eq_some_iff] at hs
    obtain ⟨⟨ret, k', r⟩, hcall, rfl⟩ := hs
    exact effect_bootstrap hcall
  | destroy pid arena =>
    simp only [HandleStep.action, World.step, Option.map_eq_some_iff] at hs
    obtain ⟨⟨ret, k', r⟩, hcall, rfl⟩ := hs
    exact effect_destroy hcall
  | release pid =>
    simp only [HandleStep.action, World.step, Option.some.injEq] at hs
    subst hs
    exact effect_release w.kernel pid

/-! ### Whole runs -/

namespace Ledger

theorem inv_boot : Inv boot where
  pending_live := Finset.Subset.refl _
  uaddr_eq_zero_iff := by simp [boot]

/-- Whatever a step does, a live handle has `uaddr = 0` exactly while it is
    pending. -/
theorem inv_step (l : Ledger) (h : HandleStep) (l' : Ledger) (hinv : Inv l)
    (hs : l.step h = some l') : Inv l' := by
  simp only [step, Option.map_eq_some_iff] at hs
  obtain ⟨w, hw, rfl⟩ := hs
  have heff := effect_of_step hw
  refine ⟨?_, ?_⟩
  · intro i hi
    simp only [Finset.mem_sdiff, Finset.mem_union] at hi ⊢
    exact ⟨hi.1.1.imp_left fun hp => hinv.pending_live hp, hi.2⟩
  · intro i hi
    simp only [Finset.mem_sdiff, Finset.mem_union, Option.mem_toFinset, Option.mem_def] at hi ⊢
    obtain ⟨hold, hret⟩ := hi
    by_cases hm : i ∈ mapped l.world.kernel h
    · simp [hm, heff.of_mapped i hm]
    · by_cases hi : issued l.world.kernel h = some i
      · simp [hm, hi, hret, heff.of_issued i hm hi]
      · have hlive : i ∈ l.live := hold.resolve_right hi
        simp [hm, hi, hret, heff.frame i hm hret hi, hinv.uaddr_eq_zero_iff i hlive]

/-- **One step issues a fresh handle exactly when the table has settled.** -/
theorem fresh_iff_settled {l : Ledger} (hinv : Inv l) (h : HandleStep) :
    Fresh l h ↔ Settled l h := by
  constructor
  · intro hfresh hasks i hi
    have hlive : i ∈ l.live := hinv.pending_live hi
    have hzero : (l.world.kernel.karenas i).uaddr = 0 := (hinv.uaddr_eq_zero_iff i hlive).mpr hi
    by_contra hno
    have hopen : openSlot l.world.kernel.karenas = some i :=
      openSlot_eq_some_iff.mpr ⟨hzero, fun j hlt hj => hno ⟨j, hlt, hj⟩⟩
    exact hfresh i ((issued_eq_some_iff _ h i).mpr ⟨hasks, hopen⟩) hlive
  · intro hsettled i hi hlive
    obtain ⟨hasks, hopen⟩ := (issued_eq_some_iff _ h i).mp hi
    obtain ⟨hzero, hbefore⟩ := openSlot_eq_some_iff.mp hopen
    have hpend : i ∈ l.pending := (hinv.uaddr_eq_zero_iff i hlive).mp hzero
    obtain ⟨j, hlt, hj⟩ := hsettled hasks i hpend
    exact hbefore j hlt hj

end Ledger

/-- **A run of any processes never issues a live handle exactly when no CREATE
    or BOOTSTRAP of it searches the table while the lowest free slot is pending.** -/
theorem freshHandles_iff_settled (hs : List HandleStep) :
    Along Ledger.step Ledger.Fresh Ledger.boot hs ↔
      Along Ledger.step Ledger.Settled Ledger.boot hs :=
  along_congr Ledger.inv_step (fun _ h hinv => Ledger.fresh_iff_settled hinv h) Ledger.inv_boot

/-- Two processes create an arena before either maps its own: both get slot 0. -/
theorem handle_issued_twice :
    ¬ Along Ledger.step Ledger.Fresh Ledger.boot
      [.devOpen, .create 1 4096, .create 2 4096] := by
  intro hfresh
  have hsecond := ((hfresh.2 _ rfl).2 _ rfl).1 0
  exact absurd (hsecond (by decide)) (by decide)

end Lmalloc.Karena
