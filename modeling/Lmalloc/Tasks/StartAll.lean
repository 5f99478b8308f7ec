/-
  Lmalloc/Tasks/StartAll.lean
  ===========================
  **Starting the thread groups, one thread after the other.**

  `TgManagerStartAll` holds the mutex of the manager while `TgStartGroup` creates the
  threads of one group after the other.  The threads that exist run on meanwhile, and
  so do the monitors of the groups that are complete.

  When a thread cannot be created, `TgStartGroup` joins those of the group that are
  there already.  Those wait at a barrier that also counts the one that is missing,
  so only a thread that fails before the barrier is ever joined.
-/
import Lmalloc.Tasks.Startup

namespace Lmalloc.Tasks

open Lmalloc.Library

/-! ### States -/

/-- What the main thread does next in `TgManagerStartAll`. -/
inductive StartPc where
  | locking
  | creating (g i : ℕ)              -- thread `i` of group `g`; behind the last one, the monitor
  | joining (g i j : ℕ) (ret : ℤ)   -- thread `j`, since thread `i` could not be created
  | unlocking (ret : ℤ)
  | returned (ret : ℤ)
deriving DecidableEq, Repr

/-- `TgMonitor`; what it does with the mutex is told in `ThreadGroup`. -/
inductive MonitorState where
  | absent
  | joining (j : ℕ)
  | locking
  | counted
deriving DecidableEq, Repr

/-- A group of `k` threads that meet at one barrier, of which `created` exist. -/
structure StartedGroup (k : ℕ) where
  threads : Meeting (Fin k)
  created : ℕ
  monitor : MonitorState
  cleaned : Bool

structure StartAll (k : ℕ) where
  main : StartPc
  groups : ℕ → StartedGroup k
  locked : Bool
  completedCount : ℕ

inductive StartAction (k : ℕ) where
  | main (result : ℤ)               -- the result of `pthread_create`, where it is called
  | thread (g : ℕ) (i : Fin k)
  | monitor (g : ℕ)
deriving DecidableEq, Repr

namespace StartedGroup

variable {k : ℕ}

/-- As `TgCreateGroup` leaves it; the calls are those before the barrier. -/
def fresh (calls : Fin k → List Bool) : StartedGroup k := ⟨Meeting.start calls, 0, .absent, false⟩

def Returned (group : StartedGroup k) (i : Fin k) : Prop :=
  (group.threads.parties i).phase = .returned

/-- `pthread_join` of thread `j` comes back. -/
def Joins (group : StartedGroup k) (j : ℕ) : Prop := ∀ i : Fin k, i.val = j → group.Returned i

instance (group : StartedGroup k) (j : ℕ) : Decidable (group.Joins j) :=
  inferInstanceAs (Decidable (∀ i : Fin k, i.val = j →
    (group.threads.parties i).phase = .returned))

end StartedGroup

namespace StartAll

variable {k : ℕ}

/-- The manager as `TgCreateManager` leaves it. -/
def start (calls : ℕ → Fin k → List Bool) : StartAll k :=
  ⟨.locking, fun g => .fresh (calls g), false, 0⟩

def setGroup (s : StartAll k) (g : ℕ) (group : StartedGroup k) : StartAll k :=
  { s with groups := Function.update s.groups g group }

/-- `TgManagerStartAll` of `n` groups and the `TgStartGroup` in it. -/
def stepMain (n : ℕ) (s : StartAll k) (result : ℤ) : Option (StartAll k) :=
  match s.main with
  | .locking =>
      if s.locked then none else some { s with main := .creating 0 0, locked := true }
  | .creating g i =>
      if g < n then
        if i < k then
          if result = 0 then
            some { s.setGroup g { s.groups g with created := i + 1 } with
              main := .creating g (i + 1) }
          else some { s with main := .joining g i 0 result }
        else if result = 0 then
          some { s.setGroup g { s.groups g with monitor := .joining 0 } with
            main := .creating (g + 1) 0 }
        -- the threads of the group run on without a monitor
        else some { s with main := .unlocking (-result) }
      else some { s with main := .unlocking 0 }
  | .joining g i j ret =>
      if j < i then
        if (s.groups g).Joins j then some { s with main := .joining g i (j + 1) ret } else none
      else
        some { s.setGroup g { s.groups g with cleaned := true } with main := .unlocking (-ret) }
  | .unlocking ret => some { s with main := .returned ret, locked := false }
  | .returned _ => none

/-- A thread that exists takes its next step. -/
def stepThread (s : StartAll k) (g : ℕ) (i : Fin k) : Option (StartAll k) :=
  if i.val < (s.groups g).created then
    ((s.groups g).threads.step k i).map fun threads =>
      s.setGroup g { s.groups g with threads := threads }
  else none

def stepMonitor (s : StartAll k) (g : ℕ) : Option (StartAll k) :=
  match (s.groups g).monitor with
  | .absent => none
  | .joining j =>
      if j < k then
        if (s.groups g).Joins j then
          some (s.setGroup g { s.groups g with monitor := .joining (j + 1) })
        else none
      else some (s.setGroup g { s.groups g with monitor := .locking, cleaned := true })
  | .locking =>
      if s.locked then none
      else
        some { s.setGroup g { s.groups g with monitor := .counted } with
          completedCount := s.completedCount + 1 }
  | .counted => none

def step (n : ℕ) (s : StartAll k) : StartAction k → Option (StartAll k)
  | .main result => s.stepMain n result
  | .thread g i => s.stepThread g i
  | .monitor g => s.stepMonitor g

end StartAll

/-! ### What holds of each group -/

/-- How many threads a monitor has joined, of `k`. -/
def MonitorState.joined (k : ℕ) : MonitorState → ℕ
  | .absent => 0
  | .joining j => j
  | .locking | .counted => k

namespace StartedGroup

variable {k : ℕ} {calls : Fin k → List Bool} {group group' : StartedGroup k}

structure Sound (calls : Fin k → List Bool) (group : StartedGroup k) : Prop where
  absent : ∀ i : Fin k, group.created ≤ i → Meeting.Assembling calls i group.threads
  created_le : group.created ≤ k
  monitored : group.monitor ≠ .absent → group.created = k
  joined : ∀ i : Fin k, i.val < group.monitor.joined k → group.Returned i
  cleaned : group.cleaned = true → ∀ i : Fin k, i.val < group.created → group.Returned i
  past : group.monitor = .locking ∨ group.monitor = .counted → group.cleaned = true

theorem sound_fresh (calls : Fin k → List Bool) : (fresh calls).Sound calls := by
  refine ⟨?_, Nat.zero_le k, ?_, ?_, ?_, ?_⟩
  · exact fun i _ => Meeting.assembling_start calls i
  · exact fun h => absurd rfl h
  · exact fun i hi => absurd hi (Nat.not_lt_zero _)
  · exact fun h => nomatch h
  · rintro (h | h)
    · cases h
    · cases h

/-- What the threads and the monitor of a group may make of it. -/
structure Evolves (group group' : StartedGroup k) : Prop where
  begun : group.created ≠ 0 ∨ group.monitor ≠ .absent
  created : group'.created = group.created
  monitor : group'.monitor = .absent ↔ group.monitor = .absent
  cleaned : group.monitor = .absent → group'.cleaned = group.cleaned
  returned : ∀ i, group.Returned i → group'.Returned i

/-- A thread that has returned stays so. -/
theorem returned_step {threads : Meeting (Fin k)} {i : Fin k}
    (h : group.threads.step k i = some threads) {j : Fin k} (hj : group.Returned j) :
    (threads.parties j).phase = .returned := by
  by_cases hji : j = i
  · subst hji
    simp only [Returned] at hj
    simp only [Meeting.step, hj] at h
    cases h
  · have hset : ∀ p, ((group.threads.set i p).parties j).phase = .returned := by
      intro p
      rw [Meeting.parties_set_other _ _ _ hji]
      exact hj
    cases hphase : (group.threads.parties i).phase with
    | settingUp rest =>
      cases rest with
      | nil =>
        simp only [Meeting.step, hphase, Option.some.injEq] at h
        subst h
        -- the last arrival changes only those that wait
        have hnot : ((group.threads.set i ⟨.waiting,
            (group.threads.parties i).arrivals + 1⟩).parties j).phase ≠ .waiting := by
          rw [hset]
          intro heq
          cases heq
        simp only [Meeting.arrive]
        by_cases hlast : (group.threads.set i ⟨.waiting,
            (group.threads.parties i).arrivals + 1⟩).count + 1 = k
        · simp only [if_pos hlast, Meeting.released, if_neg hnot]
          exact hset _
        · simp only [if_neg hlast]
          exact hset _
      | cons call rest =>
        cases call with
        | true | false =>
          simp only [Meeting.step, hphase, Option.some.injEq] at h
          subst h
          exact hset _
    | waiting | returned =>
      simp only [Meeting.step, hphase] at h
      cases h
    | running =>
      simp only [Meeting.step, hphase, Option.some.injEq] at h
      subst h
      exact hset _

theorem Sound.thread (h : group.Sound calls) {i : Fin k} (hi : i.val < group.created)
    {threads : Meeting (Fin k)} (hstep : group.threads.step k i = some threads) :
    StartedGroup.Sound calls { group with threads := threads } ∧
      group.Evolves { group with threads := threads } := by
  have hkeeps : ∀ j, group.Returned j → (threads.parties j).phase = .returned :=
    fun j => returned_step hstep
  refine ⟨⟨?_, h.created_le, h.monitored, ?_, ?_, h.past⟩, ⟨?_, rfl, Iff.rfl, fun _ => rfl, hkeeps⟩⟩
  · intro t ht
    refine Meeting.assembling_step (h.absent t ht) ?_ (by rwa [Fintype.card_fin])
    intro heq
    subst heq
    exact absurd hi (Nat.not_lt.mpr ht)
  · exact fun j hj => hkeeps j (h.joined j hj)
  · exact fun hclean j hj => hkeeps j (h.cleaned hclean j hj)
  · exact Or.inl (Nat.ne_of_gt (Nat.zero_lt_of_lt hi))

/-- One operation of the monitor of a complete group. -/
theorem Sound.monitor (h : group.Sound calls) (hpresent : group.monitor ≠ .absent)
    {monitor : MonitorState} {cleaned : Bool} (hmonitor : monitor ≠ .absent)
    (hjoined : ∀ i : Fin k, i.val < monitor.joined k → group.Returned i)
    (hcleaned : cleaned = true → group.cleaned = true ∨ monitor.joined k = k)
    (hpast : monitor = .locking ∨ monitor = .counted → cleaned = true) :
    StartedGroup.Sound calls { group with monitor := monitor, cleaned := cleaned } ∧
      group.Evolves { group with monitor := monitor, cleaned := cleaned } := by
  have hall := h.monitored hpresent
  refine ⟨⟨h.absent, h.created_le, fun _ => hall, hjoined, ?_, hpast⟩,
    ⟨Or.inr hpresent, rfl, iff_of_false hmonitor hpresent, ?_, fun _ hi => hi⟩⟩
  · intro hclean i hi
    rcases hcleaned hclean with hbefore | hwhole
    · exact h.cleaned hbefore i hi
    · apply hjoined i
      rw [hwhole]
      exact i.isLt
  · exact fun habsent => absurd habsent hpresent

/-- Every thread has been created, and a monitor waits for them. -/
def Whole (group : StartedGroup k) : Prop := group.created = k ∧ group.monitor ≠ .absent

theorem Evolves.whole (h : group.Evolves group') (hwhole : group.Whole) : group'.Whole :=
  ⟨h.created.trans hwhole.1, fun habsent => hwhole.2 (h.monitor.mp habsent)⟩

theorem Evolves.not_fresh (h : group.Evolves group') : group ≠ fresh calls := by
  intro hfresh
  subst hfresh
  rcases h.begun with hcreated | hmonitor
  · exact hcreated rfl
  · exact hmonitor rfl

/-- Nothing has been done behind the threads that exist. -/
def Begun (group : StartedGroup k) (i : ℕ) : Prop :=
  group.created = i ∧ group.monitor = .absent ∧ group.cleaned = false

theorem Evolves.begun_iff (h : group.Evolves group') {i : ℕ} (hi : group.Begun i) :
    group'.Begun i :=
  ⟨h.created.trans hi.1, h.monitor.mpr hi.2.1, (h.cleaned hi.2.1).trans hi.2.2⟩

end StartedGroup

/-! ### Where the main thread is -/

namespace StartAll

variable {k n : ℕ} {calls : ℕ → Fin k → List Bool} {s s' : StartAll k}

/-- The groups, as far as the main thread has come. -/
def Agrees (n : ℕ) (calls : ℕ → Fin k → List Bool) (groups : ℕ → StartedGroup k) :
    StartPc → Prop
  | .locking => ∀ g, groups g = .fresh (calls g)
  | .creating g i =>
      i ≤ k ∧ (groups g).Begun i ∧ (∀ g' > g, groups g' = .fresh (calls g')) ∧
        ∀ g' < g, (groups g').Whole
  | .joining g i j ret =>
      g < n ∧ i < k ∧ j ≤ i ∧ ret ≠ 0 ∧ (groups g).Begun i ∧
        ∀ t : Fin k, t.val < j → (groups g).Returned t
  | .unlocking ret | .returned ret => ret = 0 → ∀ g < n, (groups g).Whole

/-- `TgManagerStartAll` has returned. -/
def ended : StartPc → Bool
  | .returned _ => true
  | .locking | .creating _ _ | .joining _ _ _ _ | .unlocking _ => false

/-- The main thread has the mutex. -/
def Inside : StartPc → Prop
  | .creating _ _ | .joining _ _ _ _ | .unlocking _ => True
  | .locking | .returned _ => False

/-- The monitors that have counted their group. -/
def counted (n : ℕ) (groups : ℕ → StartedGroup k) : Finset ℕ :=
  (Finset.range n).filter fun g => (groups g).monitor = .counted

/-- Only the `n` groups of the manager have threads. -/
def Within (n g : ℕ) (group : StartedGroup k) : Prop :=
  group.created ≠ 0 ∨ group.monitor ≠ .absent → g < n

structure Sound (n : ℕ) (calls : ℕ → Fin k → List Bool) (s : StartAll k) : Prop where
  group : ∀ g, (s.groups g).Sound (calls g)
  agrees : Agrees n calls s.groups s.main
  beyond : ∀ g, Within n g (s.groups g)
  locked : s.locked = true ↔ Inside s.main
  count_eq : s.completedCount = (counted n s.groups).card
  waits : ended s.main = false → ∀ g, (s.groups g).monitor ≠ .counted

theorem sound_start (n : ℕ) (calls : ℕ → Fin k → List Bool) : Sound n calls (start calls) := by
  refine ⟨fun g => StartedGroup.sound_fresh (calls g), fun _ => rfl, ?_, ?_, ?_, ?_⟩
  · rintro g (h | h)
    · exact absurd rfl h
    · exact absurd rfl h
  · exact iff_of_false Bool.false_ne_true id
  · simp [start, counted, StartedGroup.fresh]
  · exact fun _ _ h => nomatch h

@[simp] theorem groups_setGroup_same (s : StartAll k) (g : ℕ) (group : StartedGroup k) :
    (s.setGroup g group).groups g = group := Function.update_self ..

theorem groups_setGroup_other (s : StartAll k) {g g' : ℕ} (group : StartedGroup k)
    (h : g' ≠ g) : (s.setGroup g group).groups g' = s.groups g' := Function.update_of_ne h ..

/-- A predicate that holds of all groups, when one of them changes. -/
theorem forall_setGroup {P : ℕ → StartedGroup k → Prop} {g : ℕ} {group : StartedGroup k}
    (h : ∀ g', P g' (s.groups g')) (hg : P g group) :
    ∀ g', P g' ((s.setGroup g group).groups g') := by
  intro g'
  by_cases heq : g' = g
  · subst heq
    rwa [groups_setGroup_same]
  · rw [groups_setGroup_other _ _ heq]
    exact h g'

/-- What a group does by itself is no concern of the main thread's. -/
theorem agrees_setGroup {g : ℕ} {group : StartedGroup k}
    (h : Agrees n calls s.groups s.main) (hevolves : (s.groups g).Evolves group) :
    Agrees n calls (s.setGroup g group).groups s.main := by
  have hwhole : ∀ g', (s.groups g').Whole → ((s.setGroup g group).groups g').Whole :=
    @forall_setGroup k s (fun g' group' => (s.groups g').Whole → group'.Whole) g group
      (fun _ => id) hevolves.whole
  have hbegun : ∀ g' i, (s.groups g').Begun i → ((s.setGroup g group).groups g').Begun i :=
    @forall_setGroup k s (fun g' group' => ∀ i, (s.groups g').Begun i → group'.Begun i) g group
      (fun _ _ => id) fun _ => hevolves.begun_iff
  have hreturned : ∀ g' t, (s.groups g').Returned t →
      ((s.setGroup g group).groups g').Returned t :=
    @forall_setGroup k s (fun g' group' => ∀ t, (s.groups g').Returned t → group'.Returned t)
      g group (fun _ _ => id) hevolves.returned
  have hfresh : ∀ g', s.groups g' = .fresh (calls g') →
      (s.setGroup g group).groups g' = .fresh (calls g') :=
    @forall_setGroup k s
      (fun g' group' => s.groups g' = .fresh (calls g') → group' = .fresh (calls g')) g group
      (fun _ => id) fun h => absurd h hevolves.not_fresh
  cases hmain : s.main with
  | locking =>
    rw [hmain] at h
    exact fun g' => hfresh g' (h g')
  | creating g' i =>
    rw [hmain] at h
    obtain ⟨hle, hat, hlater, hearlier⟩ := h
    exact ⟨hle, hbegun g' i hat, fun g'' hg => hfresh g'' (hlater g'' hg),
      fun g'' hg => hwhole g'' (hearlier g'' hg)⟩
  | joining g' i j ret =>
    rw [hmain] at h
    obtain ⟨hg, hi, hj, hret, hat, hjoined⟩ := h
    exact ⟨hg, hi, hj, hret, hbegun g' i hat, fun t ht => hreturned g' t (hjoined t ht)⟩
  | unlocking ret | returned ret =>
    rw [hmain] at h
    exact fun hret g' hg => hwhole g' (h hret g' hg)

theorem counted_setGroup_of_same {g : ℕ} {group : StartedGroup k}
    (h : group.monitor = .counted ↔ (s.groups g).monitor = .counted) :
    counted n (s.setGroup g group).groups = counted n s.groups := by
  refine Finset.filter_congr fun g' _ => ?_
  by_cases heq : g' = g
  · subst heq
    rwa [groups_setGroup_same]
  · rw [groups_setGroup_other _ _ heq]

theorem counted_setGroup_of_new {g : ℕ} {group : StartedGroup k} (hg : g < n)
    (hnew : group.monitor = .counted) (hold : (s.groups g).monitor ≠ .counted) :
    (counted n (s.setGroup g group).groups).card = (counted n s.groups).card + 1 := by
  have hinsert : counted n (s.setGroup g group).groups = insert g (counted n s.groups) := by
    ext g'
    simp only [counted, Finset.mem_insert, Finset.mem_filter, Finset.mem_range]
    by_cases heq : g' = g
    · subst heq
      simp [hg, hnew]
    · simp [groups_setGroup_other _ _ heq, heq]
  have hnot : g ∉ counted n s.groups := by simp [counted, hold]
  rw [hinsert, Finset.card_insert_of_notMem hnot]

/-- A group does something by itself, and does not count itself. -/
theorem Sound.evolve (h : Sound n calls s) {g : ℕ} {group : StartedGroup k}
    (hgroup : group.Sound (calls g)) (hevolves : (s.groups g).Evolves group)
    (hcounted : group.monitor = .counted ↔ (s.groups g).monitor = .counted) :
    Sound n calls (s.setGroup g group) := by
  refine ⟨forall_setGroup h.group hgroup, agrees_setGroup h.agrees hevolves,
    forall_setGroup h.beyond fun _ => h.beyond g hevolves.begun, h.locked, ?_, ?_⟩
  · rw [counted_setGroup_of_same hcounted]
    exact h.count_eq
  · intro hmain
    exact @forall_setGroup k s (fun _ group' => group'.monitor ≠ .counted) g group (h.waits hmain)
      fun hnew => h.waits hmain g (hcounted.mp hnew)

theorem sound_stepThread (h : Sound n calls s) {g : ℕ} {i : Fin k}
    (hs : s.stepThread g i = some s') : Sound n calls s' := by
  obtain ⟨hi, hs⟩ := Option.ite_none_right_eq_some.mp hs
  obtain ⟨threads, hstep, rfl⟩ := Option.map_eq_some_iff.mp hs
  obtain ⟨hgroup, hevolves⟩ := (h.group g).thread hi hstep
  exact h.evolve hgroup hevolves Iff.rfl

/-- One more thread is joined when it has returned. -/
theorem StartedGroup.Joins.extend {group : StartedGroup k} {j : ℕ} (h : group.Joins j)
    (hbefore : ∀ i : Fin k, i.val < j → group.Returned i) :
    ∀ i : Fin k, i.val < j + 1 → group.Returned i := by
  intro i hi
  rcases Nat.lt_succ_iff_lt_or_eq.mp hi with hlt | heq
  · exact hbefore i hlt
  · exact h i heq

theorem sound_stepMonitor (h : Sound n calls s) {g : ℕ} (hs : s.stepMonitor g = some s') :
    Sound n calls s' := by
  have hgroup := h.group g
  cases hmonitor : (s.groups g).monitor with
  | absent =>
    simp only [stepMonitor, hmonitor] at hs
    cases hs
  | joining j =>
    have hpresent : (s.groups g).monitor ≠ .absent := by
      rw [hmonitor]
      exact fun heq => nomatch heq
    have hjoined : ∀ i : Fin k, i.val < j → (s.groups g).Returned i := by
      have hjoined := hgroup.joined
      rwa [hmonitor] at hjoined
    simp only [stepMonitor, hmonitor] at hs
    split at hs
    · obtain ⟨hjoins, hs⟩ := Option.ite_none_right_eq_some.mp hs
      cases hs
      obtain ⟨hsound, hevolves⟩ := @StartedGroup.Sound.monitor _ _ _ hgroup hpresent
        (.joining (j + 1)) (s.groups g).cleaned (fun heq => nomatch heq)
        (StartedGroup.Joins.extend hjoins hjoined) Or.inl (by simp)
      exact h.evolve hsound hevolves (by rw [hmonitor]; simp)
    · next hall =>
      cases hs
      obtain ⟨hsound, hevolves⟩ := @StartedGroup.Sound.monitor _ _ _ hgroup hpresent
        .locking true (fun heq => nomatch heq)
        (fun i hi => hjoined i (Nat.lt_of_lt_of_le hi (Nat.not_lt.mp hall)))
        (fun _ => Or.inr rfl) (fun _ => rfl)
      exact h.evolve hsound hevolves (by rw [hmonitor]; simp)
  | locking =>
    have hpresent : (s.groups g).monitor ≠ .absent := by
      rw [hmonitor]
      exact fun heq => nomatch heq
    have hjoined := hgroup.joined
    rw [hmonitor] at hjoined
    simp only [stepMonitor, hmonitor] at hs
    obtain ⟨hfree, hs⟩ := Option.ite_none_left_eq_some.mp hs
    cases hs
    obtain ⟨hsound, hevolves⟩ := @StartedGroup.Sound.monitor _ _ _ hgroup hpresent
      .counted (s.groups g).cleaned (fun heq => nomatch heq) hjoined Or.inl
      (fun _ => hgroup.past (Or.inl hmonitor))
    have hout : ¬ Inside s.main := fun hinside => hfree (h.locked.mpr hinside)
    refine ⟨forall_setGroup h.group hsound, agrees_setGroup h.agrees hevolves,
      forall_setGroup h.beyond fun _ => h.beyond g hevolves.begun, h.locked, ?_, ?_⟩
    · rw [counted_setGroup_of_new (h.beyond g (Or.inr hpresent)) rfl
        (by rw [hmonitor]; exact fun heq => nomatch heq), h.count_eq]
    · -- the mutex is free only before the start and behind it
      intro hmain
      cases hpc : s.main with
      | locking =>
        have hagrees := h.agrees
        rw [hpc] at hagrees
        rw [hagrees g] at hmonitor
        cases hmonitor
      | creating _ _ | joining _ _ _ _ | unlocking _ =>
        rw [hpc] at hout
        exact absurd trivial hout
      | returned ret => cases (congrArg ended hpc).symm.trans hmain
  | counted =>
    simp only [stepMonitor, hmonitor] at hs
    cases hs

/-- The main thread works on a group that no monitor has counted. -/
theorem Sound.main (h : Sound n calls s) {pc : StartPc} {g : ℕ} {group : StartedGroup k}
    {locked : Bool} (hg : g < n) (hgroup : group.Sound (calls g))
    (hmonitor : group.monitor ≠ .counted) (hmain : ended s.main = false)
    (hagrees : Agrees n calls (s.setGroup g group).groups pc)
    (hlocked : locked = true ↔ Inside pc) :
    Sound n calls { s.setGroup g group with main := pc, locked := locked } := by
  have hnone : ∀ g', ((s.setGroup g group).groups g').monitor ≠ .counted :=
    @forall_setGroup k s (fun _ group' => group'.monitor ≠ .counted) g group (h.waits hmain)
      hmonitor
  refine ⟨forall_setGroup h.group hgroup, hagrees, forall_setGroup h.beyond fun _ => hg, hlocked,
    ?_, fun _ => hnone⟩
  rw [counted_setGroup_of_same (iff_of_false hmonitor (h.waits hmain g))]
  exact h.count_eq

/-- The main thread goes on without touching a group. -/
theorem Sound.goOn (h : Sound n calls s) {pc : StartPc} {locked : Bool}
    (hmain : ended s.main = false) (hagrees : Agrees n calls s.groups pc)
    (hlocked : locked = true ↔ Inside pc) :
    Sound n calls { s with main := pc, locked := locked } :=
  ⟨h.group, hagrees, h.beyond, hlocked, h.count_eq, fun _ => h.waits hmain⟩

/-- The next thread of the group is created. -/
theorem Sound.create (h : Sound n calls s) {g i : ℕ} (hmain : s.main = .creating g i)
    (hg : g < n) (hi : i < k) :
    Sound n calls { s.setGroup g { s.groups g with created := i + 1 } with
      main := .creating g (i + 1) } := by
  have hagrees := h.agrees
  rw [hmain] at hagrees
  obtain ⟨-, ⟨hcreated, habsent, hcleaned⟩, hlater, hearlier⟩ := hagrees
  have hgroup := h.group g
  have hnot : ended s.main = false := by rw [hmain]; rfl
  refine @Sound.main k n calls s h _ g { s.groups g with created := i + 1 } s.locked hg
    ⟨?_, hi, ?_, hgroup.joined, ?_, hgroup.past⟩ (h.waits hnot g) hnot ⟨hi, ?_, ?_, ?_⟩ ?_
  · intro t ht
    exact hgroup.absent t (hcreated.trans_le (Nat.le_of_succ_le ht))
  · exact fun hpresent => absurd habsent hpresent
  · exact fun hclean => absurd (hcleaned.symm.trans hclean) Bool.false_ne_true
  · rw [groups_setGroup_same]
    exact ⟨rfl, habsent, hcleaned⟩
  · intro g' hg'
    rw [groups_setGroup_other _ _ (Nat.ne_of_gt hg')]
    exact hlater g' hg'
  · intro g' hg'
    rw [groups_setGroup_other _ _ (Nat.ne_of_lt hg')]
    exact hearlier g' hg'
  · rw [h.locked, hmain]
    exact Iff.rfl

/-- The group has its threads, and gets its monitor. -/
theorem Sound.createMonitor (h : Sound n calls s) {g i : ℕ} (hmain : s.main = .creating g i)
    (hg : g < n) (hi : ¬ i < k) :
    Sound n calls { s.setGroup g { s.groups g with monitor := .joining 0 } with
      main := .creating (g + 1) 0 } := by
  have hagrees := h.agrees
  rw [hmain] at hagrees
  obtain ⟨hle, ⟨hcreated, habsent, hcleaned⟩, hlater, hearlier⟩ := hagrees
  have hgroup := h.group g
  have hnot : ended s.main = false := by rw [hmain]; rfl
  have hall : (s.groups g).created = k := hcreated.trans (Nat.le_antisymm hle (Nat.not_lt.mp hi))
  refine @Sound.main k n calls s h _ g { s.groups g with monitor := .joining 0 } s.locked hg
    ⟨hgroup.absent, hgroup.created_le, fun _ => hall, ?_, hgroup.cleaned, ?_⟩
    (fun heq => nomatch heq) hnot ⟨Nat.zero_le k, ?_, ?_, ?_⟩ ?_
  · exact fun t ht => absurd ht (Nat.not_lt_zero _)
  · rintro (heq | heq)
    · cases heq
    · cases heq
  · rw [groups_setGroup_other _ _ (Nat.succ_ne_self g), hlater _ (Nat.lt_succ_self g)]
    exact ⟨rfl, rfl, rfl⟩
  · intro g' hg'
    have hlt : g < g' := Nat.lt_of_succ_lt hg'
    rw [groups_setGroup_other _ _ (Nat.ne_of_gt hlt)]
    exact hlater g' hlt
  · intro g' hg'
    rcases Nat.lt_succ_iff_lt_or_eq.mp hg' with hlt | heq
    · rw [groups_setGroup_other _ _ (Nat.ne_of_lt hlt)]
      exact hearlier g' hlt
    · subst heq
      rw [groups_setGroup_same]
      exact ⟨hall, fun heq => nomatch heq⟩
  · rw [h.locked, hmain]
    exact Iff.rfl

/-- All that were there have been joined, and the group is cleaned up. -/
theorem Sound.cleanUp (h : Sound n calls s) {g i j : ℕ} {ret : ℤ}
    (hmain : s.main = .joining g i j ret) (hj : ¬ j < i) :
    Sound n calls { s.setGroup g { s.groups g with cleaned := true } with
      main := .unlocking (-ret) } := by
  have hagrees := h.agrees
  rw [hmain] at hagrees
  obtain ⟨hg, -, -, hret, ⟨hcreated, habsent, -⟩, hjoined⟩ := hagrees
  have hgroup := h.group g
  have hnot : ended s.main = false := by rw [hmain]; rfl
  refine @Sound.main k n calls s h _ g { s.groups g with cleaned := true } s.locked hg
    ⟨hgroup.absent, hgroup.created_le, hgroup.monitored, hgroup.joined, ?_, fun _ => rfl⟩
    (h.waits hnot g) hnot ?_ ?_
  · intro _ t ht
    apply hjoined t
    exact Nat.lt_of_lt_of_le ht (hcreated.trans_le (Nat.not_lt.mp hj))
  · intro hzero
    exact absurd (neg_eq_zero.mp hzero) hret
  · rw [h.locked, hmain]
    exact Iff.rfl

theorem sound_stepMain (h : Sound n calls s) {result : ℤ} (hs : s.stepMain n result = some s') :
    Sound n calls s' := by
  have hagrees := h.agrees
  have hlocked := h.locked
  cases hmain : s.main with
  | locking =>
    have hnot : ended s.main = false := by rw [hmain]; rfl
    rw [hmain] at hagrees
    simp only [stepMain, hmain] at hs
    obtain ⟨-, hs⟩ := Option.ite_none_left_eq_some.mp hs
    cases hs
    refine @Sound.goOn k n calls s h (.creating 0 0) true hnot
      ⟨Nat.zero_le k, ?_, fun g' _ => hagrees g', ?_⟩ (iff_of_true rfl trivial)
    · rw [hagrees 0]
      exact ⟨rfl, rfl, rfl⟩
    · exact fun g' hg' => absurd hg' (Nat.not_lt_zero g')
  | creating g i =>
    have hnot : ended s.main = false := by rw [hmain]; rfl
    rw [hmain] at hagrees hlocked
    obtain ⟨hle, hbegun, hlater, hearlier⟩ := hagrees
    simp only [stepMain, hmain] at hs
    split at hs
    · next hg =>
      split at hs
      · next hi =>
        split at hs
        · cases hs
          exact h.create hmain hg hi
        · next hresult =>
          cases hs
          exact h.goOn hnot ⟨hg, hi, Nat.zero_le i, hresult, hbegun,
            fun t ht => absurd ht (Nat.not_lt_zero _)⟩ hlocked
      · next hi =>
        split at hs
        · cases hs
          exact h.createMonitor hmain hg hi
        · next hresult =>
          cases hs
          exact h.goOn hnot (fun hzero => absurd (neg_eq_zero.mp hzero) hresult) hlocked
    · next hg =>
      cases hs
      refine @Sound.goOn k n calls s h (.unlocking 0) s.locked hnot ?_ hlocked
      exact fun _ g' hg' => hearlier g' (Nat.lt_of_lt_of_le hg' (Nat.not_lt.mp hg))
  | joining g i j ret =>
    have hnot : ended s.main = false := by rw [hmain]; rfl
    rw [hmain] at hagrees hlocked
    obtain ⟨hg, hi, hj, hret, hbegun, hjoined⟩ := hagrees
    simp only [stepMain, hmain] at hs
    split at hs
    · next hlt =>
      obtain ⟨hjoins, hs⟩ := Option.ite_none_right_eq_some.mp hs
      cases hs
      exact h.goOn hnot ⟨hg, hi, hlt, hret, hbegun, StartedGroup.Joins.extend hjoins hjoined⟩
        hlocked
    · next hall =>
      cases hs
      exact h.cleanUp hmain hall
  | unlocking ret =>
    have hnot : ended s.main = false := by rw [hmain]; rfl
    rw [hmain] at hagrees
    simp only [stepMain, hmain] at hs
    cases hs
    exact h.goOn hnot hagrees (iff_of_false Bool.false_ne_true id)
  | returned ret =>
    simp only [stepMain, hmain] at hs
    cases hs

theorem sound_step (h : Sound n calls s) {a : StartAction k} (hs : s.step n a = some s') :
    Sound n calls s' := by
  cases a with
  | main result => exact sound_stepMain h hs
  | thread g i => exact sound_stepThread h hs
  | monitor g => exact sound_stepMonitor h hs

theorem sound_reachable (hs : Reachable (step n) (start calls) s) : Sound n calls s :=
  hs.invariant (fun _ _ _ h hstep => sound_step h hstep) (sound_start n calls)

/-! ### What the functions promise -/

theorem Sound.completedCount_eq_zero (h : Sound n calls s) (hmain : ended s.main = false) :
    s.completedCount = 0 := by
  rw [h.count_eq, Finset.card_eq_zero, counted, Finset.filter_eq_empty_iff]
  exact fun g _ => h.waits hmain g

/-- **In every order of the steps a group is cleaned up only when its threads have
    returned, and counted only when it is cleaned up; nothing is counted before all groups
    are started; and all of them have their threads if that succeeds.** -/
theorem startAll_order (n : ℕ) (calls : ℕ → Fin k → List Bool) {s : StartAll k}
    (hs : Reachable (step n) (start calls) s) :
    (∀ g, (s.groups g).cleaned = true →
        ∀ i : Fin k, i.val < (s.groups g).created → (s.groups g).Returned i) ∧
      (∀ g, (s.groups g).monitor = .counted → (s.groups g).cleaned = true) ∧
      s.completedCount = (counted n s.groups).card ∧
      (ended s.main = false → s.completedCount = 0) ∧
      (s.main = .returned 0 → ∀ g < n, (s.groups g).Whole) := by
  have h := sound_reachable hs
  refine ⟨fun g => (h.group g).cleaned, fun g hcounted => (h.group g).past (Or.inr hcounted),
    h.count_eq, h.completedCount_eq_zero, ?_⟩
  intro hmain
  have hagrees := h.agrees
  rw [hmain] at hagrees
  exact hagrees rfl

/-- A group of two threads that fail; its monitor cleans up behind them. -/
def twoFail : List (StartAction 2) :=
  [.main 0, .main 0, .main 0, .main 0, .thread 0 0, .thread 0 1, .thread 0 1, .monitor 0,
    .monitor 0, .monitor 0, .main 0, .main 0, .monitor 0]

theorem startAll_order_twoFail :
    ∃ s, run (step 1) (start fun _ => ![[false], [true, false]]) twoFail = some s ∧
      s.completedCount = 1 ∧ (s.groups 0).Whole ∧ (s.groups 0).Returned 0 ∧
      (s.groups 0).Returned 1 := by
  have hrun : ((run (step 1) (start fun _ => ![[false], [true, false]]) twoFail).map fun s =>
      decide (s.main = .returned 0 ∧ s.completedCount = 1 ∧
        (s.groups 0).monitor = .counted)) = some true := by decide
  obtain ⟨s, hs, hends⟩ := Option.map_eq_some_iff.mp hrun
  obtain ⟨hmain, hone, hcounted⟩ := of_decide_eq_true hends
  obtain ⟨hcleaned, hpast, -, -, hwhole⟩ :=
    startAll_order 1 (fun _ => ![[false], [true, false]]) ⟨twoFail, hs⟩
  have hall := hwhole hmain 0 Nat.zero_lt_one
  have hboth := hcleaned 0 (hpast 0 hcounted)
  rw [hall.1] at hboth
  exact ⟨s, hs, hone, hall, hboth 0 (by decide), hboth 1 (by decide)⟩

end StartAll

end Lmalloc.Tasks
