/-
  Lmalloc/Tasks/FailedStart.lean
  ==============================
  **When `TgManagerStartAll` never returns.**

  `TgStartGroup` joins the threads it has created as soon as it cannot create the
  next one.  A thread whose calls before the barrier succeed waits there for the
  one that is missing, and the main thread for it, with the mutex of the manager.
-/
import Lmalloc.Tasks.StartAll

namespace Lmalloc.Tasks

open Lmalloc.Library

namespace StartAll

variable {k n : ℕ} {calls : ℕ → Fin k → List Bool} {s s' : StartAll k}

/-! ### Joins that never come back -/

/-- Some thread that exists makes no call that fails; thread `i` is missing at the barrier. -/
def Hangs (calls : ℕ → Fin k → List Bool) (s : StartAll k) : Prop :=
  ∃ g i j ret, s.main = .joining g i j ret ∧ ∃ t : Fin k, t.val < i ∧ false ∉ calls g t

/-- The thread that is missing keeps the others from going on behind the barrier. -/
theorem Sound.fails (h : Sound n calls s) {g i j : ℕ} {ret : ℤ}
    (hmain : s.main = .joining g i j ret) {t : Fin k} (ht : (s.groups g).Returned t) :
    false ∈ calls g t := by
  have hagrees := h.agrees
  rw [hmain] at hagrees
  obtain ⟨-, hi, -, -, ⟨hcreated, -, -⟩, -⟩ := hagrees
  exact ((h.group g).absent ⟨i, hi⟩ hcreated.le).fails ht

theorem hangs_stepMain (h : Sound n calls s) (hangs : Hangs calls s) {result : ℤ}
    (hs : s.stepMain n result = some s') : Hangs calls s' := by
  obtain ⟨g, i, j, ret, hmain, t, hti, hsucceeds⟩ := hangs
  have hagrees := h.agrees
  rw [hmain] at hagrees
  obtain ⟨-, -, -, -, -, hjoined⟩ := hagrees
  have hjt : j ≤ t.val := by
    by_contra hlt
    exact hsucceeds (h.fails hmain (hjoined t (Nat.not_le.mp hlt)))
  simp only [stepMain, hmain, if_pos (Nat.lt_of_le_of_lt hjt hti)] at hs
  obtain ⟨-, hs⟩ := Option.ite_none_right_eq_some.mp hs
  cases hs
  exact ⟨g, i, j + 1, ret, rfl, t, hti, hsucceeds⟩

theorem hangs_step (h : Sound n calls s) (hangs : Hangs calls s) {a : StartAction k}
    (hs : s.step n a = some s') : Hangs calls s' := by
  cases a with
  | main result => exact hangs_stepMain h hangs hs
  | thread g i =>
    obtain ⟨-, hs⟩ := Option.ite_none_right_eq_some.mp hs
    obtain ⟨threads, -, rfl⟩ := Option.map_eq_some_iff.mp hs
    exact hangs
  | monitor g =>
    have hmain : s'.main = s.main := by
      simp only [step, stepMonitor] at hs
      split at hs
      · cases hs
      · split at hs
        · obtain ⟨-, hs⟩ := Option.ite_none_right_eq_some.mp hs
          cases hs
          rfl
        · cases hs
          rfl
      · obtain ⟨-, hs⟩ := Option.ite_none_left_eq_some.mp hs
        cases hs
        rfl
      · cases hs
    obtain ⟨g, i, j, ret, hjoining, hrest⟩ := hangs
    exact ⟨g, i, j, ret, hmain.trans hjoining, hrest⟩

theorem hangs_reachable (h : Sound n calls s) (hangs : Hangs calls s)
    (hs : Reachable (step n) s s') : Hangs calls s' := by
  have hboth := hs.invariant (I := fun s => Sound n calls s ∧ Hangs calls s)
    (fun s a s' h hstep => ⟨sound_step h.1 hstep, hangs_step h.1 h.2 hstep⟩) ⟨h, hangs⟩
  exact hboth.2

/-! ### Otherwise `TgManagerStartAll` returns -/

/-- The main thread can still come to its end. -/
def CanReturn (n : ℕ) (s : StartAll k) : Prop :=
  ∃ s' ret, Reachable (step n) s s' ∧ s'.main = .returned ret

theorem CanReturn.of_step {a : StartAction k} (hs : s.step n a = some s') (h : CanReturn n s') :
    CanReturn n s := by
  obtain ⟨s'', ret, hreach, hmain⟩ := h
  exact ⟨s'', ret, Reachable.trans ⟨[a], run_cons_of_step hs []⟩ hreach, hmain⟩

theorem canReturn_unlocking {ret : ℤ} (hmain : s.main = .unlocking ret) : CanReturn n s := by
  have hstep : s.step n (.main 0) = some { s with main := .returned ret, locked := false } := by
    simp only [step, stepMain, hmain]
  exact .of_step hstep ⟨_, ret, Reachable.refl _, rfl⟩

/-- From a group on, if the system has enough threads for the others. -/
theorem canReturn_creating (groups threads : ℕ) :
    ∀ (s : StartAll k) (g i : ℕ), s.main = .creating g i → n - g = groups → k - i = threads →
      CanReturn n s := by
  induction groups generalizing threads with
  | zero =>
    intro s g i hmain hgroups _
    have hstep : s.step n (.main 0) = some { s with main := .unlocking 0 } := by
      simp only [step, stepMain, hmain, if_neg (Nat.not_lt.mpr (Nat.sub_eq_zero_iff_le.mp hgroups))]
    exact .of_step hstep (canReturn_unlocking rfl)
  | succ groups ihGroups =>
    induction threads with
    | zero =>
      intro s g i hmain hgroups hthreads
      have hstep : s.step n (.main 0) =
          some { s.setGroup g { s.groups g with monitor := .joining 0 } with
            main := .creating (g + 1) 0 } := by
        simp only [step, stepMain, hmain, if_pos (show g < n by omega),
          if_neg (show ¬ i < k by omega), if_true]
      exact .of_step hstep (ihGroups k _ (g + 1) 0 rfl (by omega) rfl)
    | succ threads ihThreads =>
      intro s g i hmain hgroups hthreads
      have hstep : s.step n (.main 0) =
          some { s.setGroup g { s.groups g with created := i + 1 } with
            main := .creating g (i + 1) } := by
        simp only [step, stepMain, hmain, if_pos (show g < n by omega),
          if_pos (show i < k by omega), if_true]
      exact .of_step hstep (ihThreads _ g (i + 1) rfl hgroups (by omega))

/-- A thread by itself makes the steps it makes in its group. -/
theorem run_thread {g : ℕ} {i : Fin k} (hi : i.val < (s.groups g).created) {m : ℕ}
    {threads : Meeting (Fin k)}
    (h : run (Meeting.step k) (s.groups g).threads (List.replicate m i) = some threads) :
    run (step n) s (List.replicate m (.thread g i)) =
      some (s.setGroup g { s.groups g with threads := threads }) := by
  induction m generalizing s with
  | zero =>
    simp only [List.replicate_zero, run_nil, Option.some.injEq] at h
    subst h
    simp only [List.replicate_zero, run_nil, setGroup, Function.update_eq_self]
  | succ m ih =>
    rw [List.replicate_succ] at h ⊢
    obtain ⟨threads', hstep, hrest⟩ := run_cons_eq_some.mp h
    have hstep' : s.step n (.thread g i) =
        some (s.setGroup g { s.groups g with threads := threads' }) := by
      simp only [step, stepThread, if_pos hi, hstep, Option.map_some]
    have hsame : (s.setGroup g { s.groups g with threads := threads' }).groups g =
        { s.groups g with threads := threads' } := groups_setGroup_same ..
    rw [run_cons_of_step hstep', ih (by rwa [hsame]) (by rwa [hsame]), hsame]
    simp only [setGroup, Function.update_idem]

/-- The threads that exist fail one after the other, and are joined. -/
theorem canReturn_joining (left : ℕ) :
    ∀ (s : StartAll k) (g i j : ℕ) (ret : ℤ), Sound n calls s → s.main = .joining g i j ret →
      (∀ t : Fin k, t.val < i → false ∈ calls g t) → i - j = left → CanReturn n s := by
  induction left with
  | zero =>
    intro s g i j ret _ hmain _ hleft
    have hstep : s.step n (.main 0) =
        some { s.setGroup g { s.groups g with cleaned := true } with main := .unlocking (-ret) } := by
      simp only [step, stepMain, hmain, if_neg (Nat.not_lt.mpr (Nat.sub_eq_zero_iff_le.mp hleft))]
    exact .of_step hstep (canReturn_unlocking rfl)
  | succ left ih =>
    intro s g i j ret h hmain hfail hleft
    have hagrees := h.agrees
    rw [hmain] at hagrees
    obtain ⟨-, hi, -, -, ⟨hcreated, -, -⟩, -⟩ := hagrees
    have hji : j < i := by omega
    have habsent := (h.group g).absent ⟨i, hi⟩ hcreated.le
    obtain ⟨m, threads, hrun, hreturned⟩ :=
      habsent.exists_returned (hfail ⟨j, hji.trans hi⟩ hji)
    rw [Fintype.card_fin] at hrun
    have hrun' := @run_thread k n s g ⟨j, hji.trans hi⟩ (hcreated.symm ▸ hji) m threads hrun
    have hsound := run_invariant (fun _ _ _ h hstep => sound_step h hstep) h hrun'
    have hjoins : StartedGroup.Joins { s.groups g with threads := threads } j := by
      intro t ht
      obtain rfl : t = ⟨j, hji.trans hi⟩ := Fin.ext ht
      exact hreturned
    have hstep : (s.setGroup g { s.groups g with threads := threads }).step n (.main 0) =
        some { s.setGroup g { s.groups g with threads := threads } with
          main := .joining g i (j + 1) ret } := by
      have hmain' : (s.setGroup g { s.groups g with threads := threads }).main =
        .joining g i j ret := hmain
      simp only [step, stepMain, hmain', if_pos hji, groups_setGroup_same, if_pos hjoins]
    obtain ⟨s', ret', hreach, hreturns⟩ := ih _ g i (j + 1) ret (sound_step hsound hstep) rfl hfail
      (by omega)
    exact ⟨s', ret', Reachable.trans ⟨_, hrun'⟩
      (Reachable.trans ⟨[.main 0], run_cons_of_step hstep []⟩ hreach), hreturns⟩

/-- **`TgManagerStartAll` can no longer return exactly when it joins a thread that makes no
    call that fails.** -/
theorem not_canReturn_iff (h : Sound n calls s) : ¬ CanReturn n s ↔ Hangs calls s := by
  constructor
  · intro hnever
    cases hmain : s.main with
    | locking =>
      have hfree : ¬ s.locked = true := by
        rw [h.locked, hmain]
        exact id
      have hstep : s.step n (.main 0) = some { s with main := .creating 0 0, locked := true } := by
        simp only [step, stepMain, hmain, if_neg hfree]
      exact absurd (.of_step hstep (canReturn_creating _ _ _ 0 0 rfl rfl rfl)) hnever
    | creating g i => exact absurd (canReturn_creating _ _ s g i hmain rfl rfl) hnever
    | joining g i j ret =>
      refine ⟨g, i, j, ret, hmain, ?_⟩
      by_contra hall
      simp only [not_exists, not_and, not_not] at hall
      exact hnever (canReturn_joining _ s g i j ret h hmain hall rfl)
    | unlocking ret => exact absurd (canReturn_unlocking hmain) hnever
    | returned ret => exact absurd ⟨s, ret, Reachable.refl s, hmain⟩ hnever
  · rintro hangs ⟨s', ret, hreach, hmain⟩
    obtain ⟨g, i, j, ret', hjoining, -⟩ := hangs_reachable h hangs hreach
    rw [hmain] at hjoining
    cases hjoining

/-! ### The three tasks -/

/-- The order in which they are created. -/
def mbPgTestTasks : Fin 3 → Task := ![.pgThread, .mbPgTestServer, .mbThread]

def mbPgThreads (pg : PgCalls) (server : ServerCalls) (i : Fin 3) : List Bool :=
  taskCalls pg server (mbPgTestTasks i)

theorem false_notMem_iff {calls : List Bool} :
    false ∉ calls ↔ ∀ call ∈ calls, call = true := by
  constructor
  · intro h call hcall
    cases call with
    | false => exact absurd hcall h
    | true => rfl
  · intro h hfalse
    cases h false hfalse

theorem mbPgThreads_succeed_iff (pg : PgCalls) (server : ServerCalls) {i : ℕ} (hi : i < 3) :
    (∃ t : Fin 3, t.val < i ∧ false ∉ mbPgThreads pg server t) ↔
      1 ≤ i ∧ pg.Succeed ∨ 2 ≤ i ∧ server.Succeed := by
  rw [← pgRunCalls_iff, ← runModbusTestServerCalls_iff, ← false_notMem_iff, ← false_notMem_iff]
  constructor
  · rintro ⟨t, ht, hsucceeds⟩
    match t with
    | 0 => exact Or.inl ⟨ht, hsucceeds⟩
    | 1 => exact Or.inr ⟨ht, hsucceeds⟩
    | 2 => exact absurd (Nat.lt_of_lt_of_le hi (Nat.succ_le_of_lt ht)) (Nat.lt_irrefl _)
  · rintro (⟨hle, hpg⟩ | ⟨hle, hserver⟩)
    · exact ⟨0, hle, hpg⟩
    · exact ⟨1, hle, hserver⟩

/-- **Once a thread cannot be created, `TgManagerStartAll` never returns and no group is
    ever counted exactly when the set-up of `PgRun` succeeds, or that of the test server
    if it has been created too.** -/
theorem startAll_hangs_iff (pg : ℕ → PgCalls) (server : ℕ → ServerCalls) (n : ℕ)
    {s : StartAll 3}
    (hs : Reachable (step n) (start fun g => mbPgThreads (pg g) (server g)) s) :
    (∀ s', Reachable (step n) s s' → ended s'.main = false ∧ s'.completedCount = 0) ↔
      ∃ g i j ret, s.main = .joining g i j ret ∧
        (1 ≤ i ∧ (pg g).Succeed ∨ 2 ≤ i ∧ (server g).Succeed) := by
  have h := sound_reachable hs
  have hcalls : Hangs (fun g => mbPgThreads (pg g) (server g)) s ↔
      ∃ g i j ret, s.main = .joining g i j ret ∧
        (1 ≤ i ∧ (pg g).Succeed ∨ 2 ≤ i ∧ (server g).Succeed) := by
    refine exists_congr fun g => exists_congr fun i => exists_congr fun j =>
      exists_congr fun ret => and_congr_right fun hmain => ?_
    have hagrees := h.agrees
    rw [hmain] at hagrees
    exact mbPgThreads_succeed_iff (pg g) (server g) hagrees.2.1
  rw [← hcalls]
  constructor
  · intro hnever
    rw [← not_canReturn_iff h]
    rintro ⟨s', ret, hreach, hmain⟩
    have hended := (hnever s' hreach).1
    rw [hmain] at hended
    cases hended
  · intro hangs s' hreach
    obtain ⟨g, i, j, ret, hmain, -⟩ := hangs_reachable h hangs hreach
    have hended : ended s'.main = false := by rw [hmain]; rfl
    exact ⟨hended, (sound_reachable (hs.trans hreach)).completedCount_eq_zero hended⟩

/-- The database answers, and the thread of the test server cannot be created. -/
theorem startAll_hangs_serverRefused :
    ∃ s, run (step 1) (start fun _ => mbPgThreads goodPg portInUse)
        [.main 0, .main 0, .main 11] = some s ∧
      ∀ s', Reachable (step 1) s s' → ended s'.main = false ∧ s'.completedCount = 0 :=
  ⟨_, rfl, (startAll_hangs_iff (fun _ => goodPg) (fun _ => portInUse) 1
    ⟨[.main 0, .main 0, .main 11], rfl⟩).mpr
      ⟨0, 1, 0, 11, rfl, Or.inl ⟨Nat.le_refl 1, by decide⟩⟩⟩

end StartAll

end Lmalloc.Tasks
