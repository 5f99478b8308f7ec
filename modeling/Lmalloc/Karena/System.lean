/-
  Lmalloc/Karena/System.lean
  ==========================
  **The module together with the processes that use it.**

  A `World` is the module state and the mappings `karena_mmap` has established.
  Any process may take any step at any time; each entry of the module is one
  atomic step.  A mapping stays until its process unmaps it: neither
  `KARENA_DESTROY` nor `dev_release` touches the list.
-/
import Lmalloc.Karena.Slots
import Lmalloc.Library.Run

namespace Lmalloc.Karena

/-- A mapping established by `karena_mmap`.  `slot` is its `vm_private_data`;
    `region` records the memory the arena had at the time of the `mmap`. -/
structure Mapping where
  area : VmArea
  slot : Slot
  region : Option Region

structure World where
  kernel : Kernel
  mappings : List Mapping

inductive Action where
  | devOpen
  | ioctl (pid : Pid) (cmd : Cmd) (alloc : KaData) (env : Env)
  | mmap (area : VmArea)
  | fault (m : ℕ) (pgoff : UInt64)   -- on the mapping number `m`
  | munmap (m : ℕ)
  | release (pid : Pid)

def World.boot : World := ⟨Kernel.boot, []⟩

/-- One step.  A call that leaves the table has no successor; a fault needs a
    mapping and changes nothing. -/
def World.step (w : World) : Action → Option World
  | .devOpen => some { w with kernel := Lmalloc.Karena.devOpen w.kernel }
  | .ioctl pid cmd alloc env =>
      (karenaIoctl w.kernel pid cmd alloc env).map fun r => { w with kernel := r.2.1 }
  | .mmap area =>
      (karenaMmap w.kernel area).map fun r =>
        { kernel := r.2.1
          mappings := w.mappings ++
            r.2.2.toList.map fun i => ⟨area, i, (w.kernel.karenas i).kaddr⟩ }
  | .fault m _ => (w.mappings[m]?).map fun _ => w
  | .munmap m => some { w with mappings := w.mappings.eraseIdx m }
  | .release pid => some { w with kernel := devRelease w.kernel pid }

/-! ### What the ioctls of the life cycle do -/

section Ioctl

variable {k : Kernel} {pid : Pid} {alloc : KaData} {env : Env}

theorem karenaIoctl_noCopy (cmd : Cmd) (h : env.copyFromUser = false) :
    karenaIoctl k pid cmd alloc env = some (-eFAULT, k, none) := by
  simp only [karenaIoctl, h, if_true]

@[simp] theorem state_copyBack (cmd : Cmd) (env : Env) (r : Int × Kernel × KaData) :
    (copyBack cmd env r).2.1 = r.2.1 := by
  simp only [copyBack]
  split
  · rfl
  · split
    · split
      · rfl
      · rfl
    · rfl

/-- Success is success of the handler and of the copy back to the user. -/
theorem copyBack_success {cmd : Cmd} {r : Int × Kernel × KaData} {k' : Kernel}
    {out : Option KaData} (hpop : cmd ≠ .pop) (hdestroy : cmd ≠ .destroy)
    (h : copyBack cmd env r = (0, k', out)) : k' = r.2.1 ∧ out = some r.2.2 := by
  unfold copyBack at h
  split at h
  · next hret =>
    simp only [Prod.mk.injEq] at h
    exact absurd h.1 hret
  · rw [if_pos ⟨hpop, hdestroy⟩] at h
    cases hto : env.copyToUser with
    | false =>
      rw [hto] at h
      cases h
    | true =>
      rw [hto] at h
      cases h
      exact ⟨rfl, rfl⟩

theorem karenaIoctl_create (h : env.copyFromUser = true) :
    karenaIoctl k pid .create alloc env =
      some (copyBack .create env (handleArenaCreate k pid alloc env)) := by
  simp [karenaIoctl, h]

theorem karenaIoctl_bootstrap (h : env.copyFromUser = true) :
    karenaIoctl k pid .bootstrap alloc env =
      (slot? alloc.arena).map fun i => copyBack .bootstrap env (handleArenaBootstrap k i alloc) := by
  simp [karenaIoctl, h]

theorem karenaIoctl_destroy (h : env.copyFromUser = true) :
    karenaIoctl k pid .destroy alloc env =
      (slot? alloc.arena).map fun i => copyBack .destroy env (handleArenaDestroy k i alloc) := by
  simp [karenaIoctl, h]

end Ioctl

/-- The commands whose handler works on a single slot. -/
def slotHandler : Cmd → Option (KArena → KaData → Int × KArena × KaData)
  | .alloc => some handleArenaAlloc
  | .seek => some handleArenaSeek
  | .pop => some handleArenaPop
  | .pos => some handleArenaPos
  | .reserve => some handleArenaReserve
  | .size => some handleArenaSize
  | .base => some handleArenaBase
  | _ => none

theorem karenaIoctl_onSlot {k : Kernel} {pid : Pid} {cmd : Cmd} {alloc : KaData} {env : Env}
    {handler : KArena → KaData → Int × KArena × KaData} (hcmd : slotHandler cmd = some handler)
    (hcopy : env.copyFromUser = true) :
    karenaIoctl k pid cmd alloc env =
      (slot? alloc.arena).map fun i => copyBack cmd env (onSlot k i alloc handler) := by
  cases cmd with
  | alloc | seek | pop | pos | reserve | size | base =>
    cases hcmd
    simp [karenaIoctl, hcopy]
  | create | destroy | bootstrap | other n => cases hcmd

/-- **What an ioctl runs**: nothing, or a handler on a slot, or one of the three handlers of the
    table. -/
theorem karenaIoctl_cases {k : Kernel} {pid : Pid} {cmd : Cmd} {alloc : KaData} {env : Env}
    {r : Int × Kernel × Option KaData} (h : karenaIoctl k pid cmd alloc env = some r) :
    (r.1 ≠ 0 ∧ r.2.1 = k) ∨
      (∃ i handler, slotHandler cmd = some handler ∧ env.copyFromUser = true ∧
        slot? alloc.arena = some i ∧ r = copyBack cmd env (onSlot k i alloc handler)) ∨
      (cmd = .create ∧ env.copyFromUser = true ∧
        r = copyBack .create env (handleArenaCreate k pid alloc env)) ∨
      (∃ i, cmd = .bootstrap ∧ env.copyFromUser = true ∧ slot? alloc.arena = some i ∧
        r = copyBack .bootstrap env (handleArenaBootstrap k i alloc)) ∨
      ∃ i, cmd = .destroy ∧ env.copyFromUser = true ∧ slot? alloc.arena = some i ∧
        r = copyBack .destroy env (handleArenaDestroy k i alloc) := by
  have hfault : -eFAULT ≠ 0 := by decide
  have hnotty : -eNOTTY ≠ 0 := by decide
  cases hcopy : env.copyFromUser with
  | false =>
    rw [karenaIoctl_noCopy _ hcopy] at h
    cases h
    exact Or.inl ⟨hfault, rfl⟩
  | true =>
    cases cmd with
    | create =>
      rw [karenaIoctl_create hcopy] at h
      exact Or.inr (Or.inr (Or.inl ⟨rfl, rfl, (Option.some.inj h).symm⟩))
    | bootstrap =>
      rw [karenaIoctl_bootstrap hcopy] at h
      obtain ⟨i, hi, rfl⟩ := Option.map_eq_some_iff.mp h
      exact Or.inr (Or.inr (Or.inr (Or.inl ⟨i, rfl, rfl, hi, rfl⟩)))
    | destroy =>
      rw [karenaIoctl_destroy hcopy] at h
      obtain ⟨i, hi, rfl⟩ := Option.map_eq_some_iff.mp h
      exact Or.inr (Or.inr (Or.inr (Or.inr ⟨i, rfl, rfl, hi, rfl⟩)))
    | alloc | seek | pop | pos | reserve | size | base =>
      rw [karenaIoctl_onSlot rfl hcopy] at h
      obtain ⟨i, hi, rfl⟩ := Option.map_eq_some_iff.mp h
      exact Or.inr (Or.inl ⟨i, _, rfl, rfl, hi, rfl⟩)
    | other n =>
      simp only [karenaIoctl, hcopy, Bool.true_eq_false, if_false, Option.some.injEq] at h
      rw [← h, copyBack, if_pos hnotty]
      exact Or.inl ⟨hnotty, rfl⟩

/-- A command on the cursor changes nothing but the cursor. -/
theorem slotHandler_cur {cmd : Cmd} {handler : KArena → KaData → Int × KArena × KaData}
    (h : slotHandler cmd = some handler) (a : KArena) (d : KaData) :
    ∃ c, (handler a d).2.1 = { a with cur := c } := by
  cases cmd with
  | alloc =>
    cases h
    simp only [handleArenaAlloc]
    split
    · exact ⟨_, rfl⟩
    · exact ⟨a.cur, rfl⟩
  | pop =>
    cases h
    simp only [handleArenaPop]
    split
    · exact ⟨a.cur, rfl⟩
    · exact ⟨_, rfl⟩
  | reserve =>
    cases h
    simp only [handleArenaReserve]
    split
    · exact ⟨a.cur, rfl⟩
    · exact ⟨_, rfl⟩
  | seek =>
    cases h
    exact ⟨d.size, rfl⟩
  | pos | size | base =>
    cases h
    exact ⟨a.cur, rfl⟩
  | create | destroy | bootstrap | other n => cases h

/-- **`karena_mmap` either refuses and changes nothing, or maps the current arena**,
    whose `uaddr` was 0 and is the start of the mapping from then on. -/
theorem karenaMmap_cases {k k' : Kernel} {area : VmArea} {ret : Int} {mapped : Option Slot}
    (h : karenaMmap k area = some (ret, k', mapped)) :
    (ret ≠ 0 ∧ mapped = none ∧ k' = k) ∨
      ∃ i, mapped = some i ∧ slot? k.currentArenaIndex = some i ∧ (k.karenas i).uaddr = 0 ∧
        k' = k.setSlot i { k.karenas i with uaddr := area.vmStart } := by
  simp only [karenaMmap, Option.map_eq_some_iff] at h
  obtain ⟨i, hi, h⟩ := h
  have hrefused : (-eINVAL, k, none) = (ret, k', mapped) → ret ≠ 0 ∧ mapped = none ∧ k' = k := by
    rintro ⟨⟩
    exact ⟨by decide, rfl, rfl⟩
  by_cases hu : (k.karenas i).uaddr = 0
  · simp only [hu, ne_eq, not_true_eq_false, if_false] at h
    split at h
    · exact Or.inl (hrefused h)
    · split at h
      · exact Or.inl (hrefused h)
      · cases h
        exact Or.inr ⟨i, rfl, hi, hu, rfl⟩
  · simp only [hu, ne_eq, not_false_eq_true, if_true] at h
    exact Or.inl (hrefused h)

/-- `karena_mmap` maps exactly when the slot is unmapped, the area is no longer than
    the arena, and its offset is 0. -/
theorem karenaMmap_eq {k : Kernel} {area : VmArea} {i : Slot}
    (hi : slot? k.currentArenaIndex = some i) :
    karenaMmap k area =
      if (k.karenas i).uaddr = 0 ∧ area.vmEnd - area.vmStart ≤ (k.karenas i).size ∧
          area.vmPgoff = 0 then
        some (0, k.setSlot i { k.karenas i with uaddr := area.vmStart }, some i)
      else some (-eINVAL, k, none) := by
  simp only [karenaMmap, hi, Option.map_some]
  by_cases hu : (k.karenas i).uaddr = 0
  · by_cases hlen : area.vmEnd - area.vmStart ≤ (k.karenas i).size
    · have hfits : ¬ area.vmEnd - area.vmStart > (k.karenas i).size := UInt64.not_lt.mpr hlen
      by_cases hoff : area.vmPgoff = 0
      · simp [hu, hlen, hoff, hfits]
      · simp [hu, hoff, hfits]
    · have hlong : area.vmEnd - area.vmStart > (k.karenas i).size := UInt64.not_le.mp hlen
      simp [hu, hlen, hlong]
  · simp [hu]

theorem VmArea.start_ne_zero (area : VmArea) : area.vmStart ≠ 0 := by
  intro h
  have hpos := area.start_pos
  rw [h] at hpos
  exact absurd hpos (by decide)

end Lmalloc.Karena
