/-
  Lmalloc/Karena/Regions.lean
  ===========================
  **Who owns the memory behind the arenas.**

  A region of `vmalloc` belongs to the slot CREATE puts it into, and BOOTSTRAP
  hands the same pointer to a child.  It is given back in two places: DESTROY of a
  slot that is not a child, which keeps the pointer, and `dev_release`, which
  clears it.  So a region can be freed while a child still lives on it, and freed
  again by a second DESTROY.  The conditions of `World.KeepsMemory` are exactly
  those under which neither happens.
-/
import Mathlib
import Lmalloc.Karena.System

namespace Lmalloc.Karena

open Lmalloc.Library

/-! ### What `dev_release` cleans up -/

/-- `dev_release` cleans up the arenas of the process in the order of the slots,
    up to and including the first child. -/
def Kernel.Cleaned (k : Kernel) (pid : Pid) (i : Slot) : Prop :=
  k.Mine pid i ∧ ∀ j < i, k.Mine pid j → (k.karenas j).bootstrapped = false

/-- The loop of `dev_release` over a list of slots. -/
def releaseList (k : Kernel) (pid : Pid) : List Slot → Kernel
  | [] => k
  | i :: is =>
      let r := releaseSlot k pid i
      if r.2 then r.1 else releaseList r.1 pid is

theorem releaseLoop_eq_list (k : Kernel) (pid : Pid) (left : ℕ) (h : left ≤ 100) :
    releaseLoop k pid left h = releaseList k pid ((List.finRange 100).drop (100 - left)) := by
  induction left generalizing k with
  | zero =>
    rw [Nat.sub_zero, List.drop_of_length_le (by simp)]
    rfl
  | succ left ih =>
    have hlt : 100 - (left + 1) < (List.finRange 100).length := by
      rw [List.length_finRange]
      omega
    have hnext : 100 - (left + 1) + 1 = 100 - left := by omega
    rw [List.drop_eq_getElem_cons hlt, hnext, releaseLoop, releaseList]
    simp only [List.getElem_finRange, Fin.cast_mk]
    rw [ih]

theorem devRelease_eq_list (k : Kernel) (pid : Pid) :
    devRelease k pid = releaseList k pid (List.finRange 100) := by
  rw [devRelease, releaseLoop_eq_list]
  rfl

/-- The slots of the list that are cleaned up, judged by the state before. -/
def cleanedOf (k : Kernel) (pid : Pid) : List Slot → List Slot
  | [] => []
  | i :: is =>
      if k.Mine pid i then
        if (k.karenas i).bootstrapped then [i] else i :: cleanedOf k pid is
      else cleanedOf k pid is

theorem karenas_cleanUp_other (k : Kernel) {i j : Slot} (h : j ≠ i) :
    (k.cleanUp i).karenas j = k.karenas j := by
  simp only [Kernel.cleanUp, karenas_setSlot_other _ _ h]

/-- Cleaning up a slot that is not in the list changes nothing for the list. -/
theorem cleanedOf_cleanUp (k : Kernel) (pid : Pid) {i : Slot} {is : List Slot} (h : i ∉ is) :
    cleanedOf (k.cleanUp i) pid is = cleanedOf k pid is := by
  induction is with
  | nil => rfl
  | cons j is ih =>
    have hne : j ≠ i := fun heq => h (heq ▸ List.mem_cons_self)
    have hrest : i ∉ is := fun hmem => h (List.mem_cons_of_mem j hmem)
    have hsame := karenas_cleanUp_other k hne
    simp only [cleanedOf, Kernel.Mine, hsame, ih hrest]

theorem cleanedOf_sublist (k : Kernel) (pid : Pid) (is : List Slot) :
    (cleanedOf k pid is).Sublist is := by
  induction is with
  | nil => exact List.Sublist.refl _
  | cons i is ih =>
    simp only [cleanedOf]
    split
    · split
      · exact List.Sublist.cons_cons i (List.nil_sublist is)
      · exact ih.cons_cons i
    · exact ih.cons i

/-- **What a pass over distinct slots leaves behind**: the cleaned slots are
    released, the others untouched, and the memory of the cleaned ones is freed. -/
theorem releaseList_spec (k : Kernel) (pid : Pid) {is : List Slot} (h : is.Nodup) :
    (∀ i, (releaseList k pid is).karenas i =
        if i ∈ cleanedOf k pid is then (k.karenas i).released else k.karenas i) ∧
      (releaseList k pid is).vfreed =
        k.vfreed ++ (cleanedOf k pid is).flatMap fun i => (k.karenas i).freedRegion := by
  induction is generalizing k with
  | nil => simp [releaseList, cleanedOf]
  | cons i is ih =>
    obtain ⟨hi, hrest⟩ := List.nodup_cons.mp h
    by_cases hmine : k.Mine pid i
    · have hone : ∀ j, (k.cleanUp i).karenas j =
          if j = i then (k.karenas i).released else k.karenas j := by
        intro j
        by_cases hj : j = i
        · subst hj
          simp [Kernel.cleanUp]
        · rw [if_neg hj, karenas_cleanUp_other k hj]
      rcases hb : (k.karenas i).bootstrapped with _ | _
      · obtain ⟨htable, hfreed⟩ := ih (k.cleanUp i) hrest
        rw [cleanedOf_cleanUp k pid hi] at htable hfreed
        have hmem : i ∉ cleanedOf k pid is := fun hin => hi ((cleanedOf_sublist k pid is).mem hin)
        simp only [releaseList, releaseSlot_mine hmine, hb, Bool.false_eq_true, if_false,
          cleanedOf, if_pos hmine]
        constructor
        · intro j
          rw [htable j, hone j]
          by_cases hj : j = i
          · subst hj
            simp [hmem]
          · simp [hj]
        · rw [hfreed, List.flatMap_cons, ← List.append_assoc]
          congr 1
          refine List.flatMap_congr fun j hj => ?_
          have hne : j ≠ i := fun heq => hmem (heq ▸ hj)
          rw [karenas_cleanUp_other k hne]
      · simp only [releaseList, releaseSlot_mine hmine, hb, if_true, cleanedOf, if_pos hmine,
          List.flatMap_singleton]
        refine ⟨?_, rfl⟩
        intro j
        rw [hone j]
        by_cases hj : j = i
        · subst hj
          simp
        · simp [hj]
    · simp only [releaseList, releaseSlot_other hmine, Bool.false_eq_true, if_false, cleanedOf,
        if_neg hmine]
      exact ih k hrest

/-- Over a sorted list, the cleaned slots are those with no child before them. -/
theorem mem_cleanedOf {k : Kernel} {pid : Pid} {is : List Slot} (h : is.Pairwise (· < ·))
    {i : Slot} : i ∈ cleanedOf k pid is ↔
      i ∈ is ∧ k.Mine pid i ∧
        ∀ j ∈ is, j < i → k.Mine pid j → (k.karenas j).bootstrapped = false := by
  induction is with
  | nil => simp [cleanedOf]
  | cons m is ih =>
    obtain ⟨hm, hrest⟩ := List.pairwise_cons.mp h
    have hlater : ∀ j ∈ is, ¬ j < m := fun j hj => Fin.not_lt.mpr (Fin.le_of_lt (hm j hj))
    simp only [cleanedOf]
    by_cases hmine : k.Mine pid m
    · rcases hb : (k.karenas m).bootstrapped with _ | _
      · simp only [if_pos hmine, Bool.false_eq_true, if_false, List.mem_cons, ih hrest]
        constructor
        · rintro (rfl | ⟨hi, hmi, hall⟩)
          · refine ⟨Or.inl rfl, hmine, ?_⟩
            rintro j (rfl | hj) hlt _
            · exact absurd hlt (Fin.lt_irrefl j)
            · exact absurd hlt (hlater j hj)
          · refine ⟨Or.inr hi, hmi, ?_⟩
            rintro j (rfl | hj) hlt hmj
            · exact hb
            · exact hall j hj hlt hmj
        · rintro ⟨rfl | hi, hmi, hall⟩
          · exact Or.inl rfl
          · exact Or.inr ⟨hi, hmi, fun j hj => hall j (Or.inr hj)⟩
      · simp only [if_pos hmine, if_true, List.mem_cons, List.not_mem_nil, or_false]
        constructor
        · rintro rfl
          refine ⟨Or.inl rfl, hmine, ?_⟩
          rintro j (rfl | hj) hlt _
          · exact absurd hlt (Fin.lt_irrefl j)
          · exact absurd hlt (hlater j hj)
        · rintro ⟨rfl | hi, _, hall⟩
          · rfl
          · have hfalse := hall m (Or.inl rfl) (hm i hi) hmine
            rw [hb] at hfalse
            cases hfalse
    · simp only [if_neg hmine, ih hrest, List.mem_cons]
      constructor
      · rintro ⟨hi, hmi, hall⟩
        refine ⟨Or.inr hi, hmi, ?_⟩
        rintro j (rfl | hj) hlt hmj
        · exact absurd hmj hmine
        · exact hall j hj hlt hmj
      · rintro ⟨rfl | hi, hmi, hall⟩
        · exact absurd hmi hmine
        · exact ⟨hi, hmi, fun j hj => hall j (Or.inr hj)⟩

def cleanedSlots (k : Kernel) (pid : Pid) : List Slot := cleanedOf k pid (List.finRange 100)

theorem mem_cleanedSlots {k : Kernel} {pid : Pid} {i : Slot} :
    i ∈ cleanedSlots k pid ↔ k.Cleaned pid i := by
  rw [cleanedSlots, mem_cleanedOf (List.pairwise_lt_finRange 100), Kernel.Cleaned]
  simp only [List.mem_finRange, true_and, forall_true_left]

theorem nodup_cleanedSlots (k : Kernel) (pid : Pid) : (cleanedSlots k pid).Nodup :=
  (cleanedOf_sublist k pid _).nodup (List.nodup_finRange 100)

/-- **`dev_release` cleans up the cleaned slots and frees their memory.** -/
theorem devRelease_spec (k : Kernel) (pid : Pid) :
    (∀ i, (devRelease k pid).karenas i =
        if i ∈ cleanedSlots k pid then (k.karenas i).released else k.karenas i) ∧
      (devRelease k pid).vfreed =
        k.vfreed ++ (cleanedSlots k pid).flatMap fun i => (k.karenas i).freedRegion := by
  rw [devRelease_eq_list]
  exact releaseList_spec k pid (List.nodup_finRange 100)

/-! ### Sound memory, and the steps that keep it sound -/

/-- No region is freed twice, and no live arena sits on a freed region. -/
structure Kernel.MemorySound (k : Kernel) : Prop where
  freed_once : k.vfreed.Nodup
  live_kept : ∀ i r, (k.karenas i).uaddr ≠ 0 → (k.karenas i).kaddr = some r → r ∉ k.vfreed

namespace World

def MemorySound (w : World) : Prop := w.kernel.MemorySound

/-- The condition on a step, in the state before it.  An `mmap` that maps and a
    BOOTSTRAP whose child is live work on memory that has not been freed.  What a
    DESTROY or a release frees has not been freed before, and no other live arena
    sits on it but a child that the same release cleans up. -/
def KeepsMemory (w : World) : Action → Prop
  | .mmap area =>
      ∀ i, slot? w.kernel.currentArenaIndex = some i → (w.kernel.karenas i).uaddr = 0 →
        area.vmEnd - area.vmStart ≤ (w.kernel.karenas i).size → area.vmPgoff = 0 →
          ∀ r, (w.kernel.karenas i).kaddr = some r → r ∉ w.kernel.vfreed
  | .ioctl _ .bootstrap d env =>
      env.copyFromUser = true → ∀ i, slot? d.arena = some i →
        d.size ≤ (w.kernel.karenas i).size - (w.kernel.karenas i).cur →
          openSlot w.kernel.karenas ≠ none →
            (w.kernel.karenas i).uaddr + (w.kernel.karenas i).cur ≠ 0 →
              ∀ r, (w.kernel.karenas i).kaddr = some r → r ∉ w.kernel.vfreed
  | .ioctl _ .destroy d env =>
      env.copyFromUser = true → ∀ i, slot? d.arena = some i →
        ∀ r ∈ (w.kernel.karenas i).freedRegion, r ∉ w.kernel.vfreed ∧
          ∀ j ≠ i, (w.kernel.karenas j).uaddr ≠ 0 → (w.kernel.karenas j).kaddr ≠ some r
  | .release pid =>
      ∀ i, w.kernel.Cleaned pid i →
        ∀ r ∈ (w.kernel.karenas i).freedRegion, r ∉ w.kernel.vfreed ∧
          ∀ j ≠ i, (w.kernel.karenas j).uaddr ≠ 0 → (w.kernel.karenas j).kaddr = some r →
            w.kernel.Cleaned pid j ∧ (w.kernel.karenas j).bootstrapped = true
  | _ => True

end World

/-- From `k` to `k'` no memory is obtained, freed or moved, and no arena is born. -/
structure Idle (k k' : Kernel) : Prop where
  vfreed_eq : k'.vfreed = k.vfreed
  uaddr_eq : ∀ i, (k'.karenas i).uaddr = (k.karenas i).uaddr
  kaddr : ∀ i, (k'.karenas i).kaddr = (k.karenas i).kaddr ∨ (k'.karenas i).kaddr = none

theorem Idle.refl (k : Kernel) : Idle k k := ⟨rfl, fun _ => rfl, fun _ => Or.inl rfl⟩

theorem idle_setSlot {k k' : Kernel} {i : Slot} {a : KArena}
    (htable : k'.karenas = (k.setSlot i a).karenas) (hfreed : k'.vfreed = k.vfreed)
    (hu : a.uaddr = (k.karenas i).uaddr)
    (hk : a.kaddr = (k.karenas i).kaddr ∨ a.kaddr = none) : Idle k k' := by
  refine ⟨hfreed, ?_, ?_⟩
  · intro j
    rw [htable]
    by_cases hj : j = i
    · subst hj
      rw [karenas_setSlot_same, hu]
    · rw [karenas_setSlot_other _ _ hj]
  · intro j
    rw [htable]
    by_cases hj : j = i
    · subst hj
      rw [karenas_setSlot_same]
      exact hk
    · rw [karenas_setSlot_other _ _ hj]
      exact Or.inl rfl

theorem Idle.kaddr_eq {k k' : Kernel} (h : Idle k k') {i : Slot} {r : Region}
    (hr : (k'.karenas i).kaddr = some r) : (k.karenas i).kaddr = some r := by
  rcases h.kaddr i with hsame | hnone
  · rw [← hsame, hr]
  · rw [hnone] at hr
    cases hr

/-- **What an ioctl does to the memory**: nothing, or CREATE obtains a region, or
    BOOTSTRAP fills a slot, or DESTROY empties one. -/
theorem ioctl_memory {k : Kernel} {pid : Pid} {cmd : Cmd} {d : KaData} {env : Env}
    {r : Int × Kernel × Option KaData} (hcall : karenaIoctl k pid cmd d env = some r) :
    Idle k r.2.1 ∨
      (∃ i, openSlot k.karenas = some i ∧ r.2.1 = k.created pid i (pageAlign d.size)) ∨
      (∃ i j, cmd = .bootstrap ∧ env.copyFromUser = true ∧ slot? d.arena = some i ∧
        d.size ≤ (k.karenas i).size - (k.karenas i).cur ∧ openSlot k.karenas = some j ∧
        r.2.1 = k.bootstrapped i d.size j) ∨
      ∃ i, cmd = .destroy ∧ env.copyFromUser = true ∧ slot? d.arena = some i ∧
        r.2.1 = (handleArenaDestroy k i d).2.1 := by
  rcases karenaIoctl_cases hcall with
    ⟨_, hk⟩ | ⟨i, handler, hcmd, _, _, rfl⟩ | ⟨_, _, rfl⟩ | ⟨i, rfl, hcopy, hi, rfl⟩ |
      ⟨i, rfl, hcopy, hi, rfl⟩
  · rw [hk]
    exact Or.inl (Idle.refl k)
  · obtain ⟨c, hc⟩ := slotHandler_cur hcmd (k.karenas i) d
    rw [state_copyBack, onSlot, hc]
    exact Or.inl (idle_setSlot rfl rfl rfl (Or.inl rfl))
  · rw [state_copyBack]
    rcases handleArenaCreate_cases k pid d env with
      ⟨_, heq⟩ | ⟨i, a, _, _, hopen, hu, hk, _, heq⟩ | ⟨i, hopen, _, _, heq⟩
    · rw [heq]
      exact Or.inl (Idle.refl k)
    · rw [heq]
      exact Or.inl (idle_setSlot rfl rfl (hu.trans (uaddr_of_openSlot hopen).symm) hk)
    · rw [heq]
      exact Or.inr (Or.inl ⟨i, hopen, rfl⟩)
  · rw [state_copyBack]
    rcases handleArenaBootstrap_cases k i d with ⟨_, heq⟩ | ⟨_, _, heq⟩ | ⟨j, hroom, hopen, heq⟩
    · rw [heq]
      exact Or.inl (Idle.refl k)
    · rw [heq]
      exact Or.inl (idle_setSlot rfl rfl rfl (Or.inl rfl))
    · rw [heq]
      exact Or.inr (Or.inr (Or.inl ⟨i, j, rfl, hcopy, hi, hroom, hopen, rfl⟩))
  · rw [state_copyBack]
    exact Or.inr (Or.inr (Or.inr ⟨i, rfl, hcopy, hi, rfl⟩))

/-- **Only a CREATE obtains a region**, and one that returns 0 does. -/
theorem ioctl_regions {k k' : Kernel} {pid : Pid} {cmd : Cmd} {d : KaData} {env : Env} {ret : Int}
    {out : Option KaData} (hcall : karenaIoctl k pid cmd d env = some (ret, k', out)) :
    k'.regions = k.regions ++ [pageAlign d.size] ∨
      k'.regions = k.regions ∧ (cmd = .create → ret ≠ 0) := by
  rcases karenaIoctl_cases hcall with
    ⟨hret, hk⟩ | ⟨i, handler, hcmd, _, _, hr⟩ | ⟨_, _, hr⟩ | ⟨i, rfl, _, _, hr⟩ |
      ⟨i, rfl, _, _, hr⟩
  · exact Or.inr ⟨congrArg Kernel.regions hk, fun _ => hret⟩
  · have hk : k' = (onSlot k i d handler).2.1 := by rw [← state_copyBack cmd env, ← hr]
    refine Or.inr ⟨by rw [hk]; rfl, ?_⟩
    rintro rfl
    cases hcmd
  · have hk : k' = (handleArenaCreate k pid d env).2.1 := by rw [← state_copyBack .create env, ← hr]
    rcases handleArenaCreate_cases k pid d env with
      ⟨_, heq⟩ | ⟨i, a, _, _, _, _, _, hne, heq⟩ | ⟨i, _, _, _, heq⟩
    · have hfault : -eFAULT ≠ 0 := by decide
      rw [heq] at hk hr
      rw [copyBack, if_pos hfault] at hr
      cases hr
      exact Or.inr ⟨rfl, fun _ => hfault⟩
    · rw [heq] at hk hr
      rw [copyBack, if_pos hne] at hr
      cases hr
      exact Or.inr ⟨rfl, fun _ => hne⟩
    · rw [heq] at hk
      exact Or.inl (by rw [hk]; rfl)
  · refine Or.inr ⟨?_, fun h => (by cases h)⟩
    have hk : k' = (handleArenaBootstrap k i d).2.1 := by
      rw [← state_copyBack .bootstrap env, ← hr]
    rw [hk]
    rcases handleArenaBootstrap_cases k i d with ⟨_, heq⟩ | ⟨_, _, heq⟩ | ⟨j, _, _, heq⟩
    · rw [heq]
    · rw [heq, Kernel.claim, regions_setSlot]
    · rw [heq, Kernel.bootstrapped, regions_setSlot, Kernel.claim, regions_setSlot]
  · refine Or.inr ⟨?_, fun h => (by cases h)⟩
    have hk : k' = (handleArenaDestroy k i d).2.1 := by rw [← state_copyBack .destroy env, ← hr]
    rw [hk, handleArenaDestroy_state, regions_setSlot]

/-! ### What each kind of step preserves -/

section Steps

variable {k : Kernel}

@[simp] theorem kaddr_claim (k : Kernel) (i : Slot) (size : UInt64) (j : Slot) :
    ((k.claim i size).karenas j).kaddr = (k.karenas j).kaddr := by
  by_cases hj : j = i
  · simp [Kernel.claim, hj]
  · rw [Kernel.claim, karenas_setSlot_other _ _ hj]

/-- Slots other than the child's keep their place and their memory. -/
theorem karenas_bootstrapped_other {i j m : Slot} {size : UInt64} (h : m ≠ j) :
    ((k.bootstrapped i size j).karenas m).uaddr = (k.karenas m).uaddr ∧
      ((k.bootstrapped i size j).karenas m).kaddr = (k.karenas m).kaddr := by
  rw [Kernel.bootstrapped, karenas_setSlot_other _ _ h]
  exact ⟨uaddr_claim k i size m, kaddr_claim k i size m⟩

theorem Idle.memorySound {k' : Kernel} (h : Idle k k') (hs : k.MemorySound) :
    k'.MemorySound where
  freed_once := h.vfreed_eq ▸ hs.freed_once
  live_kept := by
    intro i r hu hr
    rw [h.uaddr_eq] at hu
    rw [h.vfreed_eq]
    exact hs.live_kept i r hu (h.kaddr_eq hr)

theorem memorySound_created (hs : k.MemorySound) (pid : Pid) (i : Slot) (size : UInt64) :
    (k.created pid i size).MemorySound where
  freed_once := hs.freed_once
  live_kept := by
    intro j r hu hr
    by_cases hj : j = i
    · subst hj
      rw [created_same] at hu
      exact absurd rfl hu
    · rw [created_other _ _ _ hj] at hu hr
      exact hs.live_kept j r hu hr

theorem memorySound_bootstrapped (hs : k.MemorySound) {i j : Slot} {size : UInt64}
    (hchild : (k.karenas i).uaddr + (k.karenas i).cur ≠ 0 →
      ∀ r, (k.karenas i).kaddr = some r → r ∉ k.vfreed) :
    (k.bootstrapped i size j).MemorySound where
  freed_once := hs.freed_once
  live_kept := by
    intro m r hu hr
    by_cases hm : m = j
    · subst hm
      rw [Kernel.bootstrapped, karenas_setSlot_same] at hu hr
      exact hchild hu r hr
    · obtain ⟨hue, hke⟩ := @karenas_bootstrapped_other k i j m size hm
      rw [hue] at hu
      rw [hke] at hr
      exact hs.live_kept m r hu hr

theorem memorySound_mapped (hs : k.MemorySound) {i : Slot} (addr : UInt64)
    (hmapped : ∀ r, (k.karenas i).kaddr = some r → r ∉ k.vfreed) :
    (k.setSlot i { k.karenas i with uaddr := addr }).MemorySound where
  freed_once := hs.freed_once
  live_kept := by
    intro j r hu hr
    by_cases hj : j = i
    · subst hj
      rw [karenas_setSlot_same] at hr
      exact hmapped r hr
    · rw [karenas_setSlot_other _ _ hj] at hu hr
      exact hs.live_kept j r hu hr

theorem mem_freedRegion_iff {a : KArena} {r : Region} :
    r ∈ a.freedRegion ↔ a.bootstrapped = false ∧ a.kaddr = some r := by
  rcases hb : a.bootstrapped with _ | _
  · simp [KArena.freedRegion, hb]
  · simp [KArena.freedRegion, hb]

theorem nodup_freedRegion (a : KArena) : a.freedRegion.Nodup := by
  simp only [KArena.freedRegion]
  split
  · exact List.nodup_nil
  · cases a.kaddr with
    | none => exact List.nodup_nil
    | some r => exact List.nodup_singleton r

/-- **Freeing rule.**  Some slots are emptied and `rs` is freed: sound if nothing of
    it was free before, nothing is freed twice, and no arena that stays live sits
    on it. -/
theorem memorySound_free (hs : k.MemorySound) {k' : Kernel} {rs : List Region}
    (hfreed : k'.vfreed = k.vfreed ++ rs) (hrs : rs.Nodup) (hnew : ∀ r ∈ rs, r ∉ k.vfreed)
    (hslots : ∀ i r, (k'.karenas i).uaddr ≠ 0 → (k'.karenas i).kaddr = some r →
      (k.karenas i).uaddr ≠ 0 ∧ (k.karenas i).kaddr = some r ∧ r ∉ rs) : k'.MemorySound where
  freed_once := by
    rw [hfreed, List.nodup_append']
    exact ⟨hs.freed_once, hrs, fun r hold hr => hnew r hr hold⟩
  live_kept := by
    intro i r hu hr
    obtain ⟨hu', hr', hnot⟩ := hslots i r hu hr
    rw [hfreed, List.mem_append]
    rintro (hold | hin)
    · exact hs.live_kept i r hu' hr' hold
    · exact hnot hin

theorem memorySound_destroy (hs : k.MemorySound) {i : Slot} (d : KaData)
    (hkeep : ∀ r ∈ (k.karenas i).freedRegion, r ∉ k.vfreed ∧
      ∀ j ≠ i, (k.karenas j).uaddr ≠ 0 → (k.karenas j).kaddr ≠ some r) :
    (handleArenaDestroy k i d).2.1.MemorySound := by
  rw [handleArenaDestroy_state]
  refine memorySound_free hs rfl (nodup_freedRegion _) (fun r hr => (hkeep r hr).1) ?_
  intro j r hu hr
  replace hu : ((k.setSlot i (k.karenas i).destroyed).karenas j).uaddr ≠ 0 := hu
  replace hr : ((k.setSlot i (k.karenas i).destroyed).karenas j).kaddr = some r := hr
  by_cases hj : j = i
  · subst hj
    rw [karenas_setSlot_same] at hu
    exact absurd rfl hu
  · rw [karenas_setSlot_other _ _ hj] at hu hr
    exact ⟨hu, hr, fun hin => (hkeep r hin).2 j hj hu hr⟩

/-- Only the cleaned slots die in a release, and a slot that stays keeps its memory. -/
theorem live_devRelease {pid : Pid} {i : Slot}
    (hu : ((devRelease k pid).karenas i).uaddr ≠ 0) :
    ¬ k.Cleaned pid i ∧ (devRelease k pid).karenas i = k.karenas i := by
  have htable := (devRelease_spec k pid).1 i
  split at htable
  · rw [htable] at hu
    exact absurd rfl hu
  · rename_i hnot
    exact ⟨fun hc => hnot (mem_cleanedSlots.mpr hc), htable⟩

theorem mem_freed_devRelease {pid : Pid} {r : Region} :
    r ∈ ((cleanedSlots k pid).flatMap fun i => (k.karenas i).freedRegion) ↔
      ∃ i, k.Cleaned pid i ∧ r ∈ (k.karenas i).freedRegion := by
  simp only [List.mem_flatMap, mem_cleanedSlots]

theorem memorySound_release (hs : k.MemorySound) {pid : Pid}
    (hkeep : ∀ i, k.Cleaned pid i → ∀ r ∈ (k.karenas i).freedRegion, r ∉ k.vfreed ∧
      ∀ j ≠ i, (k.karenas j).uaddr ≠ 0 → (k.karenas j).kaddr = some r →
        k.Cleaned pid j ∧ (k.karenas j).bootstrapped = true) :
    (devRelease k pid).MemorySound := by
  refine memorySound_free hs (devRelease_spec k pid).2 ?_ ?_ ?_
  · rw [List.nodup_flatMap]
    refine ⟨fun i _ => nodup_freedRegion _, ?_⟩
    -- two cleaned slots with one region: the condition makes the second a child,
    -- and the region of a child is not freed
    refine (nodup_cleanedSlots k pid).imp_of_mem ?_
    intro i j hi hj hne r hri hrj
    have hci := mem_cleanedSlots.mp hi
    have hcj := mem_cleanedSlots.mp hj
    obtain ⟨hb, hr⟩ := mem_freedRegion_iff.mp hrj
    have hchild := ((hkeep i hci r hri).2 j (Ne.symm hne) hcj.1.1 hr).2
    rw [hb] at hchild
    cases hchild
  · intro r hr
    obtain ⟨i, hc, hri⟩ := mem_freed_devRelease.mp hr
    exact (hkeep i hc r hri).1
  · intro j r hu hr
    obtain ⟨hnot, hsame⟩ := live_devRelease hu
    rw [hsame] at hu hr
    refine ⟨hu, hr, ?_⟩
    intro hin
    obtain ⟨i, hc, hri⟩ := mem_freed_devRelease.mp hin
    by_cases hj : j = i
    · exact hnot (hj ▸ hc)
    · exact hnot ((hkeep i hc r hri).2 j hj hu hr).1

/-! A state after a step that is sound shows that the step met its condition. -/

theorem kept_of_mapped {i : Slot} {addr : UInt64} (haddr : addr ≠ 0)
    (hs : (k.setSlot i { k.karenas i with uaddr := addr }).MemorySound) :
    ∀ r, (k.karenas i).kaddr = some r → r ∉ k.vfreed := by
  intro r hr
  exact hs.live_kept i r (by rw [karenas_setSlot_same]; exact haddr)
    (by rw [karenas_setSlot_same]; exact hr)

theorem kept_of_bootstrapped {i j : Slot} {size : UInt64}
    (hchild : (k.karenas i).uaddr + (k.karenas i).cur ≠ 0)
    (hs : (k.bootstrapped i size j).MemorySound) :
    ∀ r, (k.karenas i).kaddr = some r → r ∉ k.vfreed := by
  intro r hr
  have hj : (k.bootstrapped i size j).karenas j = _ := karenas_setSlot_same _ _ _
  exact hs.live_kept j r (by rw [hj]; exact hchild) (by rw [hj]; exact hr)

theorem kept_of_destroy {i : Slot} {d : KaData} (hs : (handleArenaDestroy k i d).2.1.MemorySound) :
    ∀ r ∈ (k.karenas i).freedRegion, r ∉ k.vfreed ∧
      ∀ j ≠ i, (k.karenas j).uaddr ≠ 0 → (k.karenas j).kaddr ≠ some r := by
  rw [handleArenaDestroy_state] at hs
  intro r hr
  have honce := (List.nodup_append'.mp hs.freed_once).2.2
  refine ⟨fun hold => honce hold hr, ?_⟩
  intro j hj hu hk
  have hsame : (k.setSlot i (k.karenas i).destroyed).karenas j = k.karenas j :=
    karenas_setSlot_other _ _ hj
  refine hs.live_kept j r ?_ ?_ (List.mem_append_right _ hr)
  · rw [hsame]
    exact hu
  · rw [hsame]
    exact hk

theorem kept_of_release {pid : Pid} (hs : (devRelease k pid).MemorySound) :
    ∀ i, k.Cleaned pid i → ∀ r ∈ (k.karenas i).freedRegion, r ∉ k.vfreed ∧
      ∀ j ≠ i, (k.karenas j).uaddr ≠ 0 → (k.karenas j).kaddr = some r →
        k.Cleaned pid j ∧ (k.karenas j).bootstrapped = true := by
  obtain ⟨htable, hfreed⟩ := devRelease_spec k pid
  have honce := hs.freed_once
  rw [hfreed] at honce
  obtain ⟨_, hnew, hdisj⟩ := List.nodup_append'.mp honce
  intro i hc r hri
  have hin := mem_freed_devRelease.mpr ⟨i, hc, hri⟩
  refine ⟨fun hold => hdisj hold hin, ?_⟩
  intro j hj hu hr
  have hcj : k.Cleaned pid j := by
    by_contra hcj
    have hsame := htable j
    rw [if_neg (fun hm => hcj (mem_cleanedSlots.mp hm))] at hsame
    refine hs.live_kept j r ?_ ?_ ?_
    · rw [hsame]
      exact hu
    · rw [hsame]
      exact hr
    · rw [hfreed]
      exact List.mem_append_right _ hin
  refine ⟨hcj, ?_⟩
  -- a second cleaned slot with the region that is not a child would free it again
  by_contra hb
  have hrj := mem_freedRegion_iff.mpr ⟨Bool.eq_false_of_not_eq_true hb, hr⟩
  have hpair := (List.nodup_flatMap.mp hnew).2
  have hsymm : Std.Symm (Function.onFun List.Disjoint fun i => (k.karenas i).freedRegion) :=
    ⟨fun _ _ hd _ hrj hri => hd hri hrj⟩
  exact hpair.forall (mem_cleanedSlots.mpr hcj) (mem_cleanedSlots.mpr hc) hj hrj hri

end Steps

/-! ### Whole runs -/

namespace World

theorem memorySound_step (w : World) (a : Action) (w' : World) (hs : w.MemorySound)
    (hkeep : w.KeepsMemory a) (h : w.step a = some w') : w'.MemorySound := by
  cases a with
  | devOpen =>
    cases h
    exact ⟨hs.freed_once, hs.live_kept⟩
  | ioctl pid cmd d env =>
    obtain ⟨r, hcall, rfl⟩ := Option.map_eq_some_iff.mp h
    rcases ioctl_memory hcall with hidle | ⟨i, _, heq⟩ | ⟨i, j, rfl, hcopy, hi, hroom, hopen, heq⟩ |
      ⟨i, rfl, hcopy, hi, heq⟩
    · exact hidle.memorySound hs
    · show r.2.1.MemorySound
      rw [heq]
      exact memorySound_created hs pid i _
    · show r.2.1.MemorySound
      rw [heq]
      exact memorySound_bootstrapped hs (hkeep hcopy i hi hroom (by simp [hopen]))
    · show r.2.1.MemorySound
      rw [heq]
      exact memorySound_destroy hs d (hkeep hcopy i hi)
  | mmap area =>
    obtain ⟨r, hcall, rfl⟩ := Option.map_eq_some_iff.mp h
    obtain ⟨i, hi, _⟩ := Option.map_eq_some_iff.mp hcall
    rw [karenaMmap_eq hi] at hcall
    split at hcall
    · rename_i hmaps
      cases hcall
      exact memorySound_mapped hs area.vmStart (hkeep i hi hmaps.1 hmaps.2.1 hmaps.2.2)
    · cases hcall
      exact hs
  | fault m pgoff =>
    obtain ⟨_, _, rfl⟩ := Option.map_eq_some_iff.mp h
    exact hs
  | munmap m =>
    cases h
    exact hs
  | release pid =>
    cases h
    exact memorySound_release hs hkeep

/-- A step that fails the condition leads to a state that is not sound. -/
theorem unsound_of_not_keepsMemory (w : World) (a : Action) (_ : True)
    (h : ¬ w.KeepsMemory a) : ∃ w', w.step a = some w' ∧ ¬ w'.MemorySound := by
  cases a with
  | mmap area =>
    simp only [KeepsMemory, not_forall] at h
    obtain ⟨i, hi, hu, hlen, hoff, r, hr, hno⟩ := h
    have hcall := @karenaMmap_eq w.kernel area i hi
    rw [if_pos ⟨hu, hlen, hoff⟩] at hcall
    refine ⟨_, by rw [step, hcall, Option.map_some], ?_⟩
    intro hs
    exact hno (kept_of_mapped area.start_ne_zero hs r hr)
  | release pid =>
    refine ⟨_, rfl, ?_⟩
    intro hs
    exact h (kept_of_release hs)
  | ioctl pid cmd d env =>
    cases cmd with
    | bootstrap =>
      simp only [KeepsMemory, not_forall] at h
      obtain ⟨hcopy, i, hi, hroom, hopen, hchild, r, hr, hno⟩ := h
      obtain ⟨j, hj⟩ := Option.ne_none_iff_exists'.mp hopen
      have hcall := @karenaIoctl_bootstrap w.kernel pid d env hcopy
      rw [hi, Option.map_some] at hcall
      refine ⟨_, by rw [step, hcall, Option.map_some], ?_⟩
      intro hs
      rw [MemorySound, state_copyBack, handleArenaBootstrap_ok (UInt64.not_lt.mpr hroom) hj] at hs
      exact hno (kept_of_bootstrapped hchild hs r hr)
    | destroy =>
      simp only [KeepsMemory, not_forall] at h
      obtain ⟨hcopy, i, hi, r, hr, hno⟩ := h
      have hcall := @karenaIoctl_destroy w.kernel pid d env hcopy
      rw [hi, Option.map_some] at hcall
      refine ⟨_, by rw [step, hcall, Option.map_some], ?_⟩
      intro hs
      rw [MemorySound, state_copyBack] at hs
      exact hno (kept_of_destroy hs r hr)
    | create | alloc | seek | pop | pos | reserve | size | base | other n =>
      exact absurd trivial h
  | devOpen => exact absurd trivial h
  | fault m pgoff => exact absurd trivial h
  | munmap m => exact absurd trivial h

end World

/-- **In a run of any processes no region is freed twice and no live arena loses its
    memory exactly when every step meets the condition.** -/
theorem memorySound_iff (as : List Action) :
    Throughout World.step World.MemorySound World.boot as ↔
      Along World.step World.KeepsMemory World.boot as := by
  constructor
  · exact along_of_throughout (fun _ _ _ _ _ => trivial) World.unsound_of_not_keepsMemory trivial
  · refine throughout_of_along World.memorySound_step (fun _ hs => hs) ?_
    refine ⟨List.nodup_nil, ?_⟩
    intro i r hu
    exact absurd rfl hu

/-- One page at address `0x10000`. -/
theorem page_pos : (0 : UInt64) < 0x10000 := by decide

theorem page_lt : (0x10000 : UInt64) < 0x11000 := by decide

def pageArea : VmArea := ⟨0x10000, 0x11000, 0, page_pos, page_lt⟩

/-- A process creates and maps an arena and destroys it twice: the region goes to
    `vfree` twice. -/
theorem region_freed_twice :
    ∃ w, run World.step World.boot
        [.devOpen, .ioctl 1 .create ⟨4096, 0⟩ Env.ok, .mmap pageArea,
          .ioctl 1 .destroy ⟨0, 0⟩ Env.ok, .ioctl 1 .destroy ⟨0, 0⟩ Env.ok] = some w ∧
      w.kernel.vfreed = [0, 0] ∧ ¬ w.MemorySound := by
  refine ⟨_, rfl, by decide, ?_⟩
  intro hs
  exact absurd hs.freed_once (by decide)

end Lmalloc.Karena
