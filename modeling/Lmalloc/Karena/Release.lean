/-
  Lmalloc/Karena/Release.lean
  ===========================
  **What `dev_release` leaves behind.**

  The loop of `dev_release` returns from inside when it has cleaned up a child, so
  that the slots behind the first child of the process are never looked at.  The
  process leaves nothing behind exactly when its first child is its last arena
  and no two of its own arenas share a region (`cleanedUp_iff`).
-/
import Lmalloc.Library.Table
import Lmalloc.Karena.Regions

namespace Lmalloc.Karena

open Lmalloc.Library

/-- A release of the process has cleaned up everything that was its own, and nothing else. -/
structure Kernel.CleanedUp (k : Kernel) (pid : Pid) (k' : Kernel) : Prop where
  none_left : ∀ i, (k'.karenas i).uaddr ≠ 0 → (k'.karenas i).ownerPid ≠ pid
  freed_once : ∀ i r, k.Mine pid i → (k.karenas i).bootstrapped = false →
    (k.karenas i).kaddr = some r → k'.vfreed.count r = k.vfreed.count r + 1
  others_kept : ∀ i, (k.karenas i).ownerPid ≠ pid → k'.karenas i = k.karenas i

/-- No live arena of the process follows a child of its own, and no region is in two slots
    that are to free it. -/
structure Kernel.ChildLast (k : Kernel) (pid : Pid) : Prop where
  child_last : ∀ i j, i < j → k.Mine pid i → k.Mine pid j → (k.karenas i).bootstrapped = false
  apart : ∀ i j r, k.Mine pid i → k.Mine pid j → r ∈ (k.karenas i).freedRegion →
    r ∈ (k.karenas j).freedRegion → i = j

/-- A region is freed as often as there are slots that free it. -/
theorem count_freed (k : Kernel) (is : List Slot) (r : Region) :
    (is.flatMap fun i => (k.karenas i).freedRegion).count r =
      is.countP fun i => r ∈ (k.karenas i).freedRegion := by
  induction is with
  | nil => rfl
  | cons i is ih =>
    rw [List.flatMap_cons, List.count_append, ih, List.countP_cons, Nat.add_comm]
    congr 1
    by_cases hr : r ∈ (k.karenas i).freedRegion
    · rw [List.count_eq_one_of_mem (nodup_freedRegion _) hr, if_pos (decide_eq_true hr)]
    · rw [List.count_eq_zero_of_not_mem hr, if_neg (by simpa using hr)]

section Release

variable {k : Kernel} {pid : Pid}

/-- What a release adds to the log. -/
theorem count_devRelease (k : Kernel) (pid : Pid) (r : Region) :
    (devRelease k pid).vfreed.count r =
      k.vfreed.count r + (cleanedSlots k pid).countP fun i => r ∈ (k.karenas i).freedRegion := by
  rw [(devRelease_spec k pid).2, List.count_append, count_freed]

theorem karenas_devRelease_of_cleaned {i : Slot} (h : k.Cleaned pid i) :
    (devRelease k pid).karenas i = (k.karenas i).released := by
  rw [(devRelease_spec k pid).1 i, if_pos (mem_cleanedSlots.mpr h)]

theorem karenas_devRelease_of_not_cleaned {i : Slot} (h : ¬ k.Cleaned pid i) :
    (devRelease k pid).karenas i = k.karenas i := by
  rw [(devRelease_spec k pid).1 i, if_neg fun hmem => h (mem_cleanedSlots.mp hmem)]

/-- Whose slots these are does not matter: a slot of another process is not cleaned. -/
theorem others_kept_devRelease (k : Kernel) (pid : Pid) (i : Slot)
    (hother : (k.karenas i).ownerPid ≠ pid) : (devRelease k pid).karenas i = k.karenas i := by
  apply karenas_devRelease_of_not_cleaned
  intro hcleaned
  exact hother hcleaned.1.2

theorem Kernel.ChildLast.cleaned_of_mine (h : k.ChildLast pid) {i : Slot} (hi : k.Mine pid i) :
    k.Cleaned pid i :=
  ⟨hi, fun j hj hmine => h.child_last j i hj hmine hi⟩

theorem Kernel.ChildLast.cleanedUp (h : k.ChildLast pid) :
    k.CleanedUp pid (devRelease k pid) where
  none_left := by
    intro i hu hown
    by_cases hmine : k.Mine pid i
    · rw [karenas_devRelease_of_cleaned (h.cleaned_of_mine hmine)] at hu
      exact hu rfl
    · rw [karenas_devRelease_of_not_cleaned fun hc => hmine hc.1] at hu hown
      exact hmine ⟨hu, hown⟩
  freed_once := by
    intro i r hmine hb hr
    have hmem : r ∈ (k.karenas i).freedRegion := mem_freedRegion_iff.mpr ⟨hb, hr⟩
    rw [count_devRelease]
    congr 1
    apply countP_eq_one (a := i) (nodup_cleanedSlots k pid)
    · exact mem_cleanedSlots.mpr (h.cleaned_of_mine hmine)
    · exact decide_eq_true hmem
    · intro j hj hrj
      exact h.apart j i r (mem_cleanedSlots.mp hj).1 hmine (of_decide_eq_true hrj) hmem
  others_kept := others_kept_devRelease k pid

theorem Kernel.CleanedUp.cleaned_of_mine (h : k.CleanedUp pid (devRelease k pid)) {i : Slot}
    (hi : k.Mine pid i) : k.Cleaned pid i := by
  by_contra hnot
  have hsame := karenas_devRelease_of_not_cleaned hnot
  refine h.none_left i ?_ ?_
  · rw [hsame]
    exact hi.1
  · rw [hsame]
    exact hi.2

theorem Kernel.CleanedUp.childLast (h : k.CleanedUp pid (devRelease k pid)) :
    k.ChildLast pid where
  child_last := by
    intro i j hij hi hj
    exact (h.cleaned_of_mine hj).2 i hij hi
  apart := by
    intro i j r hi hj hri hrj
    obtain ⟨hb, hr⟩ := mem_freedRegion_iff.mp hri
    have honce := h.freed_once i r hi hb hr
    rw [count_devRelease, Nat.add_left_cancel_iff] at honce
    exact eq_of_countP_eq_one honce (mem_cleanedSlots.mpr (h.cleaned_of_mine hi))
      (mem_cleanedSlots.mpr (h.cleaned_of_mine hj)) (decide_eq_true hri) (decide_eq_true hrj)

/-- **A release cleans up after the process exactly when no arena of the process follows a
    child, and no two of its slots free one region.** -/
theorem cleanedUp_iff (k : Kernel) (pid : Pid) :
    k.CleanedUp pid (devRelease k pid) ↔ k.ChildLast pid :=
  ⟨Kernel.CleanedUp.childLast, Kernel.ChildLast.cleanedUp⟩

end Release

/-- The page after that of `pageArea`. -/
theorem secondPage_pos : (0 : UInt64) < 0x11000 := by decide

theorem secondPage_lt : (0x11000 : UInt64) < 0x12000 := by decide

def secondPage : VmArea := ⟨0x11000, 0x12000, 0, secondPage_pos, secondPage_lt⟩

/-- Process 1 creates an arena in slot 0, a child of it in slot 1, and a second arena in
    slot 2.  Its release leaves the second arena live and its region allocated. -/
theorem release_stops_at_child :
    ∃ w, run World.step World.boot
        [.devOpen, .ioctl 1 .create ⟨4096, 0⟩ Env.ok, .mmap pageArea,
          .ioctl 1 .bootstrap ⟨100, 0⟩ Env.ok,
          .ioctl 1 .create ⟨4096, 0⟩ Env.ok, .mmap secondPage] = some w ∧
      ((devRelease w.kernel 1).karenas 2).uaddr = 0x11000 ∧
      ((devRelease w.kernel 1).karenas 2).ownerPid = 1 ∧
      (w.kernel.karenas 2).kaddr = some 1 ∧ (devRelease w.kernel 1).vfreed = [0] ∧
      ¬ w.kernel.CleanedUp 1 (devRelease w.kernel 1) := by
  refine ⟨_, rfl, by decide, by decide, by decide, by decide, ?_⟩
  intro h
  exact h.none_left 2 (by decide) (by decide)

end Lmalloc.Karena
