/-
  Lmalloc/Tasks/ThreadGroup.lean
  ==============================
  **The manager of the thread groups and the monitors that report to it.**

  Each group has a detached thread `TgMonitor` that waits for the group's tasks and
  then counts the group as completed, under the mutex of the manager.  The main
  thread waits until all are counted or a shutdown is requested, and frees the
  manager.

  Without a request the mutex is enough: main holds it when it sees the full count,
  so every monitor has unlocked for the last time.  With a request main leaves the
  loop early, and a monitor that is still waiting for its tasks locks a mutex that
  has been freed.

  A signal to the condition variable, its timeout of one second and a spurious
  wake-up are all the same here: main may wake at any time.
-/
import Mathlib
import Lmalloc.Library.Run

namespace Lmalloc.Tasks

open Lmalloc.Library

/-! ### States -/

/-- What `TgMonitor` does next. -/
inductive MonitorPc where
  | joining        -- `pthread_join` of the tasks, and the cleanup
  | locking
  | marking        -- `Group->Completed = true`
  | counting       -- `Group->Manager->CompletedCount++`
  | signalling
  | unlocking
  | finished
deriving DecidableEq, Repr

/-- What the main thread does next. -/
inductive MainPc where
  | locking
  | testing        -- the condition of the `while`
  | waiting        -- in `SdbCondWait`
  | scanning
  | leaving        -- the `if` behind the loop
  | unlocking
  | returned       -- `TgManagerWaitForAll` has returned
  | destroyed      -- and so has `TgDestroyManager`
deriving DecidableEq, Repr

inductive Holder (n : ℕ) where
  | main
  | monitor (g : Fin n)
deriving DecidableEq, Repr

/-- `tg_group`; `listed` says that the manager's array still points to it. -/
structure TgGroup where
  pc : MonitorPc
  completed : Bool
  listed : Bool
deriving DecidableEq, Repr

/-- `tg_manager` with its groups.  Freed memory keeps what it held; `late` records that
    a monitor has accessed it. -/
structure TgManager (n : ℕ) where
  main : MainPc
  groups : Fin n → TgGroup
  completedCount : ℕ
  mutex : Option (Holder n)
  shutdown : Bool
  freed : Bool
  late : Bool

inductive TgAction (n : ℕ) where
  | main
  | monitor (g : Fin n)
  | requestShutdown
deriving DecidableEq, Repr

namespace TgManager

variable {n : ℕ}

/-- After `TgManagerStartAll`. -/
def started (n : ℕ) : TgManager n :=
  ⟨.locking, fun _ => ⟨.joining, false, true⟩, 0, none, false, false, false⟩

/-- An access of a monitor to `Group->Manager`. -/
def touch (s : TgManager n) : TgManager n := { s with late := s.late || s.freed }

def setGroup (s : TgManager n) (g : Fin n) (group : TgGroup) : TgManager n :=
  { s with groups := Function.update s.groups g group }

def setPc (s : TgManager n) (g : Fin n) (pc : MonitorPc) : TgManager n :=
  s.setGroup g { s.groups g with pc := pc }

/-- `TgMonitor` of group `g`, operation by operation. -/
def stepMonitor (s : TgManager n) (g : Fin n) : Option (TgManager n) :=
  match (s.groups g).pc with
  | .joining => some (s.setPc g .locking)
  | .locking =>
      if s.mutex = none then
        some { s.touch.setPc g .marking with mutex := some (.monitor g) }
      else none
  | .marking => some (s.setGroup g { s.groups g with pc := .counting, completed := true })
  | .counting =>
      some { s.touch.setPc g .signalling with completedCount := s.completedCount + 1 }
  | .signalling => some (s.touch.setPc g .unlocking)
  | .unlocking => some { s.touch.setPc g .finished with mutex := none }
  | .finished => none

/-- The loop over `Manager->Groups`. -/
def unlist (group : TgGroup) : TgGroup :=
  if group.listed ∧ group.completed then { group with listed := false } else group

/-- `TgManagerWaitForAll` and `TgDestroyManager`, operation by operation. -/
def stepMain (s : TgManager n) : Option (TgManager n) :=
  match s.main with
  | .locking => if s.mutex = none then some { s with main := .testing, mutex := some .main } else none
  | .testing =>
      if s.completedCount < n ∧ s.shutdown = false then
        some { s with main := .waiting, mutex := none }
      else some { s with main := .leaving }
  | .waiting =>
      if s.mutex = none then some { s with main := .scanning, mutex := some .main } else none
  | .scanning => some { s with main := .testing, groups := fun g => unlist (s.groups g) }
  | .leaving =>
      some { s with
        main := .unlocking
        completedCount := if s.shutdown then n else s.completedCount }
  | .unlocking => some { s with main := .returned, mutex := none }
  | .returned => some { s with main := .destroyed, freed := true }
  | .destroyed => none

def step (s : TgManager n) : TgAction n → Option (TgManager n)
  | .main => s.stepMain
  | .monitor g => s.stepMonitor g
  | .requestShutdown => some { s with shutdown := true }

/-! ### What is claimed -/

/-- No monitor has accessed the manager after it was freed. -/
def Outlives (s : TgManager n) : Prop := s.late = false

/-- If `TgManagerWaitForAll` has returned without a request, all groups are completed
    and counted. -/
def AllCounted (s : TgManager n) : Prop :=
  s.main = .returned → s.shutdown = false →
    (∀ g, (s.groups g).completed = true) ∧ s.completedCount = n

/-- The condition of the `while` does not find a request while a group is missing. -/
def RequestUnseen (s : TgManager n) (a : TgAction n) : Prop :=
  a = .main → s.main = .testing → s.completedCount < n → s.shutdown = false

instance (s : TgManager n) : DecidablePred s.RequestUnseen := fun a =>
  inferInstanceAs (Decidable (a = .main → s.main = .testing → s.completedCount < n →
    s.shutdown = false))

/-! ### The invariant -/

end TgManager

/-- Between lock and unlock. -/
def MonitorPc.inside : MonitorPc → Bool
  | .marking | .counting | .signalling | .unlocking => true
  | _ => false

def MonitorPc.marked : MonitorPc → Bool
  | .counting | .signalling | .unlocking | .finished => true
  | _ => false

def MonitorPc.counted : MonitorPc → Bool
  | .signalling | .unlocking | .finished => true
  | _ => false

def MainPc.inside : MainPc → Bool
  | .testing | .scanning | .leaving | .unlocking => true
  | _ => false

/-- Behind the loop. -/
def MainPc.pastLoop : MainPc → Bool
  | .leaving | .unlocking | .returned | .destroyed => true
  | _ => false

namespace TgManager

variable {n : ℕ}

/-- The groups whose monitor has counted them. -/
def counted (s : TgManager n) : Finset (Fin n) :=
  Finset.univ.filter fun g => (s.groups g).pc.counted

structure Orderly (s : TgManager n) : Prop where
  count_eq : s.completedCount = s.counted.card
  monitor_inside : ∀ g, (s.groups g).pc.inside = true ↔ s.mutex = some (.monitor g)
  main_inside : s.main.inside = true ↔ s.mutex = some .main
  marked : ∀ g, (s.groups g).pc.marked = true → (s.groups g).completed = true
  pastLoop : s.main.pastLoop = true → ∀ g, (s.groups g).pc = .finished
  freed : s.freed = true → s.main = .destroyed
  late : s.late = false

theorem orderly_started (n : ℕ) : Orderly (started n) := by
  refine ⟨?_, ?_, ?_, ?_, ?_, ?_, rfl⟩
  · simp [started, counted, MonitorPc.counted]
  · intro g
    simp [started, MonitorPc.inside]
  · simp [started, MainPc.inside]
  · intro g hmarked
    cases hmarked
  · intro hpast
    cases hpast
  · intro hfreed
    cases hfreed

section Orderly

variable {s s' : TgManager n} {g : Fin n}

/-- A monitor that has something left to do finds the manager in place. -/
theorem Orderly.not_pastLoop (h : Orderly s) (hpc : (s.groups g).pc ≠ .finished) :
    s.main.pastLoop = false ∧ s.freed = false := by
  have hpast : s.main.pastLoop = false := by
    by_contra htrue
    exact hpc (h.pastLoop (by simpa using htrue) g)
  refine ⟨hpast, ?_⟩
  by_contra hfreed
  rw [h.freed (by simpa using hfreed)] at hpast
  cases hpast

theorem Orderly.touch_eq (h : Orderly s) (hpc : (s.groups g).pc ≠ .finished) : s.touch = s := by
  have hfreed := (h.not_pastLoop hpc).2
  have hlate : (s.late || s.freed) = s.late := by rw [hfreed, Bool.or_false]
  rw [touch, hlate]

theorem counted_setGroup_of_same {group : TgGroup}
    (hsame : group.pc.counted = (s.groups g).pc.counted) :
    (s.setGroup g group).counted = s.counted := by
  refine Finset.filter_congr fun j _ => ?_
  by_cases hj : j = g
  · subst hj
    simp only [setGroup, Function.update_self, hsame]
  · simp only [setGroup, Function.update_of_ne hj]

theorem counted_setGroup_of_new {group : TgGroup} (hnew : group.pc.counted = true)
    (hold : (s.groups g).pc.counted = false) :
    (s.setGroup g group).counted.card = s.counted.card + 1 := by
  have hinsert : (s.setGroup g group).counted = insert g s.counted := by
    ext j
    rw [Finset.mem_insert, counted, counted, Finset.mem_filter_univ, Finset.mem_filter_univ]
    by_cases hj : j = g
    · subst hj
      simp only [setGroup, Function.update_self, hnew, true_or]
    · simp only [setGroup, Function.update_of_ne hj, hj, false_or]
  have hnot : g ∉ s.counted := by simp [counted, hold]
  rw [hinsert, Finset.card_insert_of_notMem hnot]

/-- A monitor takes the mutex only from nobody, and lets go only of what it holds: whoever else
    has it keeps it. -/
theorem Orderly.other_holder (h : Orderly s) {group : TgGroup} {mutex : Option (Holder n)}
    (hmutex : mutex = if group.pc.inside then some (.monitor g) else
      if (s.groups g).pc.inside then none else s.mutex)
    (henter : group.pc.inside = true → s.mutex = none ∨ s.mutex = some (.monitor g))
    {x : Holder n} (hx : x ≠ .monitor g) : mutex = some x ↔ s.mutex = some x := by
  have hne : some (Holder.monitor g) ≠ some x := fun heq => hx (Option.some.inj heq).symm
  rw [hmutex]
  by_cases hnew : group.pc.inside = true
  · rw [if_pos hnew]
    rcases henter hnew with hfree | hmine
    · rw [hfree]
      exact iff_of_false hne (Option.some_ne_none x).symm
    · rw [hmine]
  · rw [if_neg hnew]
    by_cases hold : (s.groups g).pc.inside = true
    · rw [if_pos hold, (h.monitor_inside g).mp hold]
      exact iff_of_false (Option.some_ne_none x).symm hne
    · rw [if_neg hold]

/-- One operation of a monitor: its program counter, the count and the mutex go
    together. -/
theorem Orderly.monitor (h : Orderly s) (hpc : (s.groups g).pc ≠ .finished) {group : TgGroup}
    {count : ℕ} {mutex : Option (Holder n)}
    (hcount : count = (s.setGroup g group).counted.card)
    (hmutex : mutex = if group.pc.inside then some (.monitor g) else
      if (s.groups g).pc.inside then none else s.mutex)
    (henter : group.pc.inside = true → s.mutex = none ∨ s.mutex = some (.monitor g))
    (hmarked : group.pc.marked = true → group.completed = true) :
    Orderly { s.setGroup g group with completedCount := count, mutex := mutex } := by
  obtain ⟨hpast, hfreed⟩ := h.not_pastLoop hpc
  have hother : ∀ j, j ≠ g → ((s.setGroup g group).groups j) = s.groups j := by
    intro j hj
    simp only [setGroup, Function.update_of_ne hj]
  have hself : (s.setGroup g group).groups g = group := by
    simp only [setGroup, Function.update_self]
  refine ⟨hcount, ?_, ?_, ?_, ?_, ?_, h.late⟩
  · intro j
    simp only
    by_cases hj : j = g
    · subst hj
      rw [hself, hmutex]
      by_cases hnew : group.pc.inside = true
      · simp [hnew]
      · by_cases hold : (s.groups j).pc.inside = true
        · simp [hnew, hold]
        · simp only [hnew, hold, Bool.false_eq_true, if_false, false_iff]
          exact fun hmine => hold ((h.monitor_inside j).mpr hmine)
    · rw [hother j hj]
      apply (h.monitor_inside j).trans
      exact (h.other_holder hmutex henter fun heq => hj (Holder.monitor.inj heq)).symm
  · apply h.main_inside.trans
    apply (h.other_holder hmutex henter _).symm
    intro heq
    cases heq
  · intro j
    simp only
    by_cases hj : j = g
    · subst hj
      rw [hself]
      exact hmarked
    · rw [hother j hj]
      exact h.marked j
  · intro htrue
    exact absurd (hpast.symm.trans htrue) Bool.false_ne_true
  · intro htrue
    exact absurd (hfreed.symm.trans htrue) Bool.false_ne_true

/-- The count of a monitor that stays on one side of its increment. -/
theorem Orderly.count_setGroup (h : Orderly s) {group : TgGroup}
    (hsame : group.pc.counted = (s.groups g).pc.counted) :
    s.completedCount = (s.setGroup g group).counted.card := by
  rw [counted_setGroup_of_same hsame]
  exact h.count_eq

theorem orderly_stepMonitor (h : Orderly s) (hs : s.stepMonitor g = some s') : Orderly s' := by
  cases hpc : (s.groups g).pc with
  | joining =>
    simp only [stepMonitor, hpc, Option.some.injEq] at hs
    subst hs
    refine @Orderly.monitor _ _ _ h (by rw [hpc]; decide) { s.groups g with pc := .locking }
      s.completedCount s.mutex (h.count_setGroup (by rw [hpc]; rfl)) ?_ ?_ ?_
    · rw [hpc]
      rfl
    · exact fun hinside => nomatch hinside
    · exact fun hmarked => nomatch hmarked
  | locking =>
    simp only [stepMonitor, hpc, h.touch_eq (show (s.groups g).pc ≠ .finished by rw [hpc]; decide)]
      at hs
    split at hs
    · next hfree =>
      cases hs
      refine @Orderly.monitor _ _ _ h (by rw [hpc]; decide) { s.groups g with pc := .marking }
        s.completedCount (some (.monitor g)) (h.count_setGroup (by rw [hpc]; rfl)) rfl ?_ ?_
      · exact fun _ => Or.inl hfree
      · exact fun hmarked => nomatch hmarked
    · cases hs
  | marking =>
    have hmine := (h.monitor_inside g).mp (by rw [hpc]; rfl)
    simp only [stepMonitor, hpc, Option.some.injEq] at hs
    subst hs
    refine @Orderly.monitor _ _ _ h (by rw [hpc]; decide)
      { s.groups g with pc := .counting, completed := true } s.completedCount s.mutex
      (h.count_setGroup (by rw [hpc]; rfl)) hmine ?_ ?_
    · exact fun _ => Or.inr hmine
    · exact fun _ => rfl
  | counting =>
    have hmine := (h.monitor_inside g).mp (by rw [hpc]; rfl)
    have hmarked := h.marked g (by rw [hpc]; rfl)
    simp only [stepMonitor, hpc, Option.some.injEq,
      h.touch_eq (show (s.groups g).pc ≠ .finished by rw [hpc]; decide)] at hs
    subst hs
    refine @Orderly.monitor _ _ _ h (by rw [hpc]; decide) { s.groups g with pc := .signalling }
      (s.completedCount + 1) s.mutex ?_ hmine ?_ ?_
    · rw [counted_setGroup_of_new rfl (by rw [hpc]; rfl), h.count_eq]
    · exact fun _ => Or.inr hmine
    · exact fun _ => hmarked
  | signalling =>
    have hmine := (h.monitor_inside g).mp (by rw [hpc]; rfl)
    have hmarked := h.marked g (by rw [hpc]; rfl)
    simp only [stepMonitor, hpc, Option.some.injEq,
      h.touch_eq (show (s.groups g).pc ≠ .finished by rw [hpc]; decide)] at hs
    subst hs
    refine @Orderly.monitor _ _ _ h (by rw [hpc]; decide) { s.groups g with pc := .unlocking }
      s.completedCount s.mutex (h.count_setGroup (by rw [hpc]; rfl)) hmine ?_ ?_
    · exact fun _ => Or.inr hmine
    · exact fun _ => hmarked
  | unlocking =>
    have hmarked := h.marked g (by rw [hpc]; rfl)
    simp only [stepMonitor, hpc, Option.some.injEq,
      h.touch_eq (show (s.groups g).pc ≠ .finished by rw [hpc]; decide)] at hs
    subst hs
    refine @Orderly.monitor _ _ _ h (by rw [hpc]; decide) { s.groups g with pc := .finished }
      s.completedCount none (h.count_setGroup (by rw [hpc]; rfl)) ?_ ?_ ?_
    · rw [hpc]
      rfl
    · exact fun hinside => nomatch hinside
    · exact fun _ => hmarked
  | finished =>
    simp only [stepMonitor, hpc] at hs
    cases hs

/-! ### The main thread -/

/-- While no monitor is inside, main may take the mutex or let it go. -/
theorem Orderly.mainStep (h : Orderly s) {main : MainPc} {count : ℕ}
    {mutex : Option (Holder n)} {freed : Bool} (hcount : count = s.counted.card)
    (hout : ∀ g, (s.groups g).pc.inside = false)
    (hmutex : mutex = if main.inside then some .main else none)
    (hpast : main.pastLoop = true → ∀ g, (s.groups g).pc = .finished)
    (hfreed : freed = true → main = .destroyed) :
    Orderly { s with main := main, completedCount := count, mutex := mutex, freed := freed } := by
  refine ⟨hcount, ?_, ?_, h.marked, hpast, hfreed, h.late⟩
  · intro g
    simp only
    rw [hout g, hmutex]
    cases main.inside with
    | true => simp
    | false => simp
  · simp only
    rw [hmutex]
    cases main.inside with
    | true => simp
    | false => simp

theorem Orderly.not_freed (h : Orderly s) (hmain : s.main ≠ .destroyed) : s.freed = false := by
  by_contra hfreed
  exact hmain (h.freed (by simpa using hfreed))

/-- A step of main before the last one: nothing has been freed. -/
theorem Orderly.mainMoves (h : Orderly s) (hnow : s.main ≠ .destroyed) {main : MainPc} {count : ℕ}
    {mutex : Option (Holder n)} (hcount : count = s.counted.card)
    (hout : ∀ g, (s.groups g).pc.inside = false)
    (hmutex : mutex = if main.inside then some .main else none)
    (hpast : main.pastLoop = true → ∀ g, (s.groups g).pc = .finished) :
    Orderly { s with main := main, completedCount := count, mutex := mutex } := by
  refine h.mainStep hcount hout hmutex hpast ?_
  intro hfreed
  exact absurd ((h.not_freed hnow).symm.trans hfreed) Bool.false_ne_true

theorem Orderly.outside_of_mutex (h : Orderly s) (hmutex : ∀ g, s.mutex ≠ some (.monitor g))
    (g : Fin n) : (s.groups g).pc.inside = false := by
  by_contra htrue
  exact hmutex g ((h.monitor_inside g).mp (by simpa using htrue))

theorem Orderly.outside_of_free (h : Orderly s) (hfree : s.mutex = none) (g : Fin n) :
    (s.groups g).pc.inside = false := by
  refine h.outside_of_mutex (fun g hmutex => ?_) g
  rw [hfree] at hmutex
  cases hmutex

/-- Main inside the mutex keeps the monitors out. -/
theorem Orderly.outside (h : Orderly s) (hmain : s.main.inside = true) (g : Fin n) :
    (s.groups g).pc.inside = false := by
  refine h.outside_of_mutex (fun g hmutex => ?_) g
  rw [h.main_inside.mp hmain] at hmutex
  cases hmutex

theorem card_counted_of_finished (h : ∀ g, (s.groups g).pc = .finished) : s.counted.card = n := by
  have hall : s.counted = Finset.univ := by
    refine Finset.filter_true_of_mem fun g _ => ?_
    rw [h g]
    rfl
  rw [hall, Finset.card_univ, Fintype.card_fin]

/-- All are counted, and none is inside: the monitors have finished. -/
theorem Orderly.all_finished (h : Orderly s) (hfull : ¬ s.completedCount < n)
    (hout : ∀ g, (s.groups g).pc.inside = false) (g : Fin n) : (s.groups g).pc = .finished := by
  have hcard : s.counted.card = Fintype.card (Fin n) := by
    rw [Fintype.card_fin]
    refine Nat.le_antisymm ?_ ?_
    · exact (Finset.card_le_univ _).trans_eq (Fintype.card_fin n)
    · rw [← h.count_eq]
      exact Nat.le_of_not_lt hfull
  have hmem : g ∈ s.counted := by
    rw [Finset.eq_univ_of_card _ hcard]
    exact Finset.mem_univ g
  rw [counted, Finset.mem_filter_univ] at hmem
  have hg := hout g
  cases hpc : (s.groups g).pc with
  | finished => rfl
  | joining | locking | marking | counting =>
    rw [hpc] at hmem
    cases hmem
  | signalling | unlocking =>
    rw [hpc] at hg
    cases hg

theorem orderly_unlist (h : Orderly s) : Orderly { s with groups := fun g => unlist (s.groups g) } := by
  have hpc : ∀ g, (unlist (s.groups g)).pc = (s.groups g).pc := by
    intro g
    unfold unlist
    split
    · rfl
    · rfl
  have hcompleted : ∀ g, (unlist (s.groups g)).completed = (s.groups g).completed := by
    intro g
    unfold unlist
    split
    · rfl
    · rfl
  refine ⟨?_, ?_, h.main_inside, ?_, ?_, h.freed, h.late⟩
  · refine h.count_eq.trans (congrArg Finset.card (Finset.filter_congr fun g _ => ?_))
    rw [hpc]
  · intro g
    rw [hpc]
    exact h.monitor_inside g
  · intro g hmarked
    rw [hpc] at hmarked
    rw [hcompleted]
    exact h.marked g hmarked
  · intro hpast g
    rw [hpc]
    exact h.pastLoop hpast g

/-- When the monitors have finished and main is not inside, the mutex is free. -/
theorem Orderly.mutex_eq_none (h : Orderly s) (hmain : s.main.inside = false)
    (hout : ∀ g, (s.groups g).pc.inside = false) : s.mutex = none := by
  cases hheld : s.mutex with
  | none => rfl
  | some holder =>
    cases holder with
    | main => exact absurd (hmain.symm.trans (h.main_inside.mpr hheld)) Bool.false_ne_true
    | monitor g =>
      exact absurd ((hout g).symm.trans ((h.monitor_inside g).mpr hheld)) Bool.false_ne_true

theorem orderly_stepMain (h : Orderly s) (hunseen : s.RequestUnseen .main)
    (hs : s.stepMain = some s') : Orderly s' := by
  cases hmain : s.main with
  | locking =>
    simp only [stepMain, hmain] at hs
    split at hs
    · next hfree =>
      cases hs
      exact h.mainMoves (by rw [hmain]; decide) h.count_eq (h.outside_of_free hfree) rfl
        fun hpast => nomatch hpast
    · cases hs
  | testing =>
    have hnow : s.main ≠ .destroyed := by rw [hmain]; decide
    have hout := h.outside (by rw [hmain]; rfl)
    simp only [stepMain, hmain] at hs
    split at hs
    · cases hs
      exact h.mainMoves hnow h.count_eq hout rfl fun hpast => nomatch hpast
    · next hleave =>
      cases hs
      -- a request that is not seen leaves only the full count
      have hfull : ¬ s.completedCount < n := fun hlt => hleave ⟨hlt, hunseen rfl hmain hlt⟩
      exact h.mainMoves hnow h.count_eq hout (h.main_inside.mp (by rw [hmain]; rfl))
        fun _ => h.all_finished hfull hout
  | waiting =>
    simp only [stepMain, hmain] at hs
    split at hs
    · next hfree =>
      cases hs
      exact h.mainMoves (by rw [hmain]; decide) h.count_eq (h.outside_of_free hfree) rfl
        fun hpast => nomatch hpast
    · cases hs
  | scanning =>
    have hmutex := h.main_inside.mp (by rw [hmain]; rfl)
    simp only [stepMain, hmain, Option.some.injEq] at hs
    subst hs
    have hunlisted := orderly_unlist h
    exact hunlisted.mainMoves (by simp only [hmain]; decide) hunlisted.count_eq
      (hunlisted.outside (by simp only [hmain]; rfl)) hmutex fun hpast => nomatch hpast
  | leaving =>
    have hfinished := h.pastLoop (by rw [hmain]; rfl)
    simp only [stepMain, hmain, Option.some.injEq] at hs
    subst hs
    refine h.mainMoves (by rw [hmain]; decide) ?_ (h.outside (by rw [hmain]; rfl))
      (h.main_inside.mp (by rw [hmain]; rfl)) fun _ => hfinished
    rw [h.count_eq, card_counted_of_finished hfinished, ite_self]
  | unlocking =>
    have hfinished := h.pastLoop (by rw [hmain]; rfl)
    simp only [stepMain, hmain, Option.some.injEq] at hs
    subst hs
    exact h.mainMoves (by rw [hmain]; decide) h.count_eq (h.outside (by rw [hmain]; rfl)) rfl
      fun _ => hfinished
  | returned =>
    have hfinished := h.pastLoop (by rw [hmain]; rfl)
    have hout : ∀ g, (s.groups g).pc.inside = false := by
      intro g
      rw [hfinished g]
      rfl
    simp only [stepMain, hmain, Option.some.injEq] at hs
    subst hs
    exact h.mainStep h.count_eq hout (h.mutex_eq_none (by rw [hmain]; rfl) hout)
      (fun _ => hfinished) fun _ => rfl
  | destroyed =>
    simp only [stepMain, hmain] at hs
    cases hs

/-- **Every step that does not leave a group behind keeps the invariant.** -/
theorem orderly_step (s : TgManager n) (a : TgAction n) (s' : TgManager n) (h : Orderly s)
    (hunseen : s.RequestUnseen a) (hs : s.step a = some s') : Orderly s' := by
  cases a with
  | main => exact orderly_stepMain h hunseen hs
  | monitor g => exact orderly_stepMonitor h hs
  | requestShutdown =>
    cases hs
    exact ⟨h.count_eq, h.monitor_inside, h.main_inside, h.marked, h.pastLoop, h.freed, h.late⟩

end Orderly

/-! ### Whole runs -/

theorem shutdown_step {s s' : TgManager n} {a : TgAction n} (hs : s.step a = some s') :
    s.shutdown = true → s'.shutdown = true := by
  cases a with
  | main =>
    simp only [step, stepMain] at hs
    split at hs
    · split at hs
      · cases hs
        exact id
      · cases hs
    · split at hs
      · cases hs
        exact id
      · cases hs
        exact id
    · split at hs
      · cases hs
        exact id
      · cases hs
    all_goals cases hs
    all_goals exact id
  | monitor g =>
    simp only [step, stepMonitor] at hs
    split at hs
    · cases hs
      exact id
    · split at hs
      · cases hs
        exact id
      · cases hs
    all_goals cases hs
    all_goals exact id
  | requestShutdown =>
    cases hs
    exact fun _ => rfl

/-- Until a shutdown is requested, every run is orderly. -/
theorem shutdown_or_orderly {s : TgManager n} (hs : Reachable step (started n) s) :
    s.shutdown = true ∨ Orderly s := by
  refine hs.invariant (I := fun s => s.shutdown = true ∨ Orderly s) ?_
    (Or.inr (orderly_started n))
  rintro s a s' (hshutdown | horderly) hstep
  · exact Or.inl (shutdown_step hstep hshutdown)
  · cases hrequested : s.shutdown with
    | true => exact Or.inl (shutdown_step hstep hrequested)
    | false => exact Or.inr (orderly_step s a s' horderly (fun _ _ _ => hrequested) hstep)

theorem Orderly.allCounted {s : TgManager n} (h : Orderly s) : s.AllCounted := by
  intro hreturned _
  have hfinished := h.pastLoop (by rw [hreturned]; rfl)
  constructor
  · intro g
    refine h.marked g ?_
    rw [hfinished g]
    rfl
  · rw [h.count_eq]
    exact card_counted_of_finished hfinished

/-- **Without a request, `TgManagerWaitForAll` returns when all groups are completed.** -/
theorem allCounted_reachable {s : TgManager n} (hs : Reachable step (started n) s) :
    s.AllCounted := by
  rcases shutdown_or_orderly hs with hshutdown | horderly
  · intro _ hnone
    rw [hshutdown] at hnone
    cases hnone
  · exact horderly.allCounted

/-- **The manager outlives its monitors in every run in which the loop of
    `TgManagerWaitForAll` never finds a request while a group is missing.** -/
theorem manager_outlives (n : ℕ) (acts : List (TgAction n)) :
    Throughout step AllCounted (started n) acts ∧
      (Along step RequestUnseen (started n) acts →
        Throughout step Outlives (started n) acts) := by
  constructor
  · refine throughout_of_along (P := fun _ _ => True)
      (I := fun s => Reachable step (started n) s) ?_ (fun _ => allCounted_reachable)
      (Reachable.refl _) (along_true _ _)
    intro s a s' hs _ hstep
    exact hs.trans ⟨[a], run_cons_of_step hstep []⟩
  · exact throughout_of_along orderly_step (fun _ h => h.late) (orderly_started n)

/-- One group: main waits, the monitor reports, and main frees the manager. -/
def oneGroup : List (TgAction 1) :=
  [.main, .main, .monitor 0, .monitor 0, .monitor 0, .monitor 0, .monitor 0, .monitor 0, .main,
    .main, .main, .main, .main, .main]

theorem manager_outlives_oneGroup :
    Throughout step AllCounted (started 1) oneGroup ∧
      Throughout step Outlives (started 1) oneGroup :=
  ⟨(manager_outlives 1 oneGroup).1, (manager_outlives 1 oneGroup).2 (by decide)⟩

/-- A request while the only group is at work: main leaves the loop and frees the
    manager, and then the monitor locks its mutex. -/
theorem request_leaves_monitor :
    ¬ ∀ acts : List (TgAction 1), Throughout step Outlives (started 1) acts := by
  intro hall
  have hrun : ((run step (started 1)
      [.requestShutdown, .main, .main, .main, .main, .main, .monitor 0, .monitor 0]).map late) =
        some true := by decide
  obtain ⟨s, hs, hlate⟩ := Option.map_eq_some_iff.mp hrun
  have hnever := (hall _).last hs
  rw [Outlives, hlate] at hnever
  cases hnever

/-! ### The condition is needed -/

/-- Once main has seen the request, the rest is up to the scheduler. -/
theorem breaks_of_locking {s : TgManager n} {g : Fin n} (hmain : s.main = .testing)
    (hrequest : s.shutdown = true) (hpc : (s.groups g).pc = .locking) :
    ∃ acts s', run step s acts = some s' ∧ ¬ s'.Outlives := by
  have hrun : (run step s [.main, .main, .main, .main, .monitor g]).map late = some true := by
    simp [run, step, stepMain, stepMonitor, hmain, hrequest, hpc, touch, setPc, setGroup]
  obtain ⟨s', hs', hlate⟩ := Option.map_eq_some_iff.mp hrun
  refine ⟨_, s', hs', ?_⟩
  rw [Outlives, hlate]
  exact Bool.noConfusion

/-- **A request found while a group is missing leads to an access after the free.** -/
theorem breaks_of_request_seen {s : TgManager n} (h : Orderly s)
    (hseen : ¬ s.RequestUnseen .main) : ∃ acts s', run step s acts = some s' ∧ ¬ s'.Outlives := by
  simp only [RequestUnseen, true_implies, Classical.not_imp, Bool.not_eq_false] at hseen
  obtain ⟨hmain, hmissing, hrequest⟩ := hseen
  obtain ⟨g, hg⟩ : ∃ g, g ∉ s.counted := by
    by_contra hall
    have huniv : s.counted = Finset.univ :=
      Finset.eq_univ_iff_forall.mpr fun g => not_not.mp fun hg => hall ⟨g, hg⟩
    rw [h.count_eq, huniv, Finset.card_univ, Fintype.card_fin] at hmissing
    exact Nat.lt_irrefl n hmissing
  rw [counted, Finset.mem_filter_univ] at hg
  have hout := h.outside (by rw [hmain]; rfl) g
  cases hpc : (s.groups g).pc with
  | joining =>
    have hstep : s.step (.monitor g) = some (s.setPc g .locking) := by
      simp only [step, stepMonitor, hpc]
    have hlocking : ((s.setPc g .locking).groups g).pc = .locking := by
      simp only [setPc, setGroup, Function.update_self]
    obtain ⟨acts, s', hrun, hbroken⟩ :=
      @breaks_of_locking n (s.setPc g .locking) g hmain hrequest hlocking
    exact ⟨.monitor g :: acts, s', (run_cons_of_step hstep acts).trans hrun, hbroken⟩
  | locking => exact breaks_of_locking hmain hrequest hpc
  | marking | counting =>
    rw [hpc] at hout
    cases hout
  | signalling | unlocking | finished =>
    rw [hpc] at hg
    exact absurd rfl hg

end TgManager

end Lmalloc.Tasks
