/-
  Lmalloc/Tasks/ThreadControl.lean
  ================================
  **The thread-control object: two flags, one mutex, one condition variable.**

  `SdbTCtlSignalStop` and `SdbTCtlMarkStopped` raise a flag and broadcast only if a
  second flag says that somebody waits; `SdbTCtlWaitForSignal` and
  `SdbTCtlWaitForStop` set that second flag and sleep.  Both pairs use the same
  condition variable, so the functions are the two instances of one definition,
  with the flag as its parameter.

  Any set of threads takes steps in any order; a thread asleep may wake up without
  a broadcast.  What keeps a wake-up from being lost is that a thread asleep has set
  the second flag, and that only the thread that raised the flag and still holds the
  mutex can stand between the two (`Orderly`).
-/
import Mathlib.Logic.Function.Basic
import Lmalloc.Library.Run

namespace Lmalloc.Tasks.ThreadControl

open Lmalloc.Library

/-! ### The object -/

/-- The flags that threads wait for. -/
inductive Flag where
  | shouldStop
  | hasStopped
deriving DecidableEq, Repr

/-- The fields of `sdb_thread_control` next to the mutex and the condition variable. -/
structure Control where
  hasStopped : Bool
  shouldStop : Bool
  waitingForSignalStop : Bool
  waitingForMarkStopped : Bool
deriving DecidableEq, Repr

def Control.flag (c : Control) : Flag → Bool
  | .shouldStop => c.shouldStop
  | .hasStopped => c.hasStopped

def Control.raise (c : Control) : Flag → Control
  | .shouldStop => { c with shouldStop := true }
  | .hasStopped => { c with hasStopped := true }

def Control.somebodyWaits (c : Control) : Flag → Bool
  | .shouldStop => c.waitingForSignalStop
  | .hasStopped => c.waitingForMarkStopped

def Control.announceWait (c : Control) : Flag → Control
  | .shouldStop => { c with waitingForSignalStop := true }
  | .hasStopped => { c with waitingForMarkStopped := true }

/-- `SdbTCtlInit`, with the results of `SdbMutexInit` and `SdbCondInit`; it leaves
    `WaitingForMarkStopped` as it found it. -/
def sdbTCtlInit (mutRet condRet : Int32) (c : Control) : Int32 × Control :=
  let c := { c with hasStopped := false, shouldStop := false, waitingForSignalStop := false }
  if mutRet ≠ 0 then (mutRet, c)
  else if condRet ≠ 0 then (condRet, c)
  else (0, c)

/-! ### The threads -/

/-- What a thread that raises a flag does next. -/
inductive RaisePc where
  | locking
  | setting
  | testing        -- the `if` around the broadcast
  | broadcasting
  | unlocking
deriving DecidableEq, Repr

/-- What a thread that waits for a flag does next. -/
inductive WaitPc where
  | locking
  | testing        -- the condition of the `while`
  | announcing
  | sleeping       -- calls `SdbCondWait`, which lets go of the mutex
  | asleep
  | relocking      -- woken up, still in `SdbCondWait`
  | unlocking
deriving DecidableEq, Repr

inductive Pc where
  | outside
  | raising (f : Flag) (pc : RaisePc)
  | waiting (f : Flag) (pc : WaitPc)
deriving DecidableEq, Repr

def sdbTCtlSignalStop : Pc := .raising .shouldStop .locking
def sdbTCtlWaitForSignal : Pc := .waiting .shouldStop .locking
def sdbTCtlMarkStopped : Pc := .raising .hasStopped .locking
def sdbTCtlWaitForStop : Pc := .waiting .hasStopped .locking

inductive Call where
  | signalStop
  | waitForSignal
  | markStopped
  | waitForStop
deriving DecidableEq, Repr

def Call.entry : Call → Pc
  | .signalStop => sdbTCtlSignalStop
  | .waitForSignal => sdbTCtlWaitForSignal
  | .markStopped => sdbTCtlMarkStopped
  | .waitForStop => sdbTCtlWaitForStop

structure World (ι : Type*) where
  control : Control
  mutex : Option ι
  pc : ι → Pc

inductive Action (ι : Type*) where
  | call (t : ι) (c : Call)
  | advance (t : ι)
  | wakeUp (t : ι)

namespace World

variable {ι : Type*}

/-- After `SdbTCtlInit` on a control with any contents. -/
def initial (garbage : Control) : World ι :=
  ⟨(sdbTCtlInit 0 0 garbage).2, none, fun _ => .outside⟩

variable [DecidableEq ι]

def goto (s : World ι) (t : ι) (pc : Pc) : World ι := { s with pc := Function.update s.pc t pc }

theorem goto_pc_self (s : World ι) (t : ι) (pc : Pc) : (s.goto t pc).pc t = pc := by
  simp [goto]

theorem goto_pc_of_ne {s : World ι} {t u : ι} {pc : Pc} (hu : u ≠ t) :
    (s.goto t pc).pc u = s.pc u := by
  simp [goto, hu]

def lock (s : World ι) (t : ι) (pc : Pc) : Option (World ι) :=
  if s.mutex = none then some { s.goto t pc with mutex := some t } else none

def unlock (s : World ι) (t : ι) (pc : Pc) : World ι := { s.goto t pc with mutex := none }

end World

/-- A broadcast wakes every thread asleep, whichever flag it waits for. -/
def Pc.wake : Pc → Pc
  | .waiting f .asleep => .waiting f .relocking
  | pc => pc

namespace World

variable {ι : Type*} [DecidableEq ι]

def raiseStep (s : World ι) (t : ι) (f : Flag) : RaisePc → Option (World ι)
  | .locking => s.lock t (.raising f .setting)
  | .setting => some { s.goto t (.raising f .testing) with control := s.control.raise f }
  | .testing =>
      if s.control.somebodyWaits f = true then some (s.goto t (.raising f .broadcasting))
      else some (s.goto t (.raising f .unlocking))
  | .broadcasting =>
      some { s with pc := Function.update (fun u => (s.pc u).wake) t (.raising f .unlocking) }
  | .unlocking => some (s.unlock t .outside)

def waitStep (s : World ι) (t : ι) (f : Flag) : WaitPc → Option (World ι)
  | .locking => s.lock t (.waiting f .testing)
  | .testing =>
      if s.control.flag f = true then some (s.goto t (.waiting f .unlocking))
      else some (s.goto t (.waiting f .announcing))
  | .announcing =>
      some { s.goto t (.waiting f .sleeping) with control := s.control.announceWait f }
  | .sleeping => some (s.unlock t (.waiting f .asleep))
  | .asleep => none
  | .relocking => s.lock t (.waiting f .testing)
  | .unlocking => some (s.unlock t .outside)

def step (s : World ι) : Action ι → Option (World ι)
  | .call t c => if s.pc t = .outside then some (s.goto t c.entry) else none
  | .advance t =>
      match s.pc t with
      | .outside => none
      | .raising f pc => s.raiseStep t f pc
      | .waiting f pc => s.waitStep t f pc
  | .wakeUp t =>
      match s.pc t with
      | .waiting f .asleep => some (s.goto t (.waiting f .relocking))
      | _ => none

end World

/-! ### What is claimed -/

/-- Between raising the flag and the broadcast. -/
def Pc.announces (pc : Pc) (f : Flag) : Prop :=
  pc = .raising f .testing ∨ pc = .raising f .broadcasting

/-- While a thread is asleep for a flag that is raised, whoever raised it is about to
    broadcast. -/
def NoLostWakeUp {ι : Type*} (s : World ι) : Prop :=
  ∀ t f, s.pc t = .waiting f .asleep → s.control.flag f = true → ∃ u, (s.pc u).announces f

/-! ### The invariant -/

/-- Between lock and unlock. -/
def Pc.inside : Pc → Bool
  | .raising _ .locking | .waiting _ .locking | .waiting _ .asleep | .waiting _ .relocking => false
  | .outside => false
  | _ => true

/-- What a thread's position says about the flags. -/
def Pc.Agrees (c : Control) : Pc → Prop
  | .waiting f .announcing => c.flag f = false
  | .waiting f .sleeping => c.flag f = false ∧ c.somebodyWaits f = true
  | .waiting f .asleep => c.somebodyWaits f = true
  | .waiting f .unlocking => c.flag f = true
  | _ => True

structure Orderly {ι : Type*} (s : World ι) : Prop where
  holder : ∀ t, (s.pc t).inside = true ↔ s.mutex = some t
  agrees : ∀ t, (s.pc t).Agrees s.control
  noLostWakeUp : NoLostWakeUp s

section Control

variable {c : Control} {f f' : Flag} {pc : Pc}

theorem Control.flag_raise_of_ne (hne : f' ≠ f) : (c.raise f).flag f' = c.flag f' := by
  cases f <;> cases f' <;> first | rfl | exact absurd rfl hne

@[simp] theorem Control.somebodyWaits_raise (c : Control) (f f' : Flag) :
    (c.raise f).somebodyWaits f' = c.somebodyWaits f' := by
  cases f <;> cases f' <;> rfl

@[simp] theorem Control.flag_announceWait (c : Control) (f f' : Flag) :
    (c.announceWait f).flag f' = c.flag f' := by
  cases f <;> cases f' <;> rfl

theorem Control.somebodyWaits_announceWait_self (c : Control) (f : Flag) :
    (c.announceWait f).somebodyWaits f = true := by
  cases f <;> rfl

theorem Control.somebodyWaits_announceWait (h : c.somebodyWaits f' = true) :
    (c.announceWait f).somebodyWaits f' = true := by
  cases f <;> cases f' <;> first | rfl | exact h

/-- Outside the mutex a position says nothing that a raised flag could change. -/
theorem Pc.Agrees.raise (h : pc.Agrees c) (hout : pc.inside = false) (f : Flag) :
    pc.Agrees (c.raise f) := by
  cases pc with
  | outside => exact trivial
  | raising g r => exact trivial
  | waiting g w =>
    cases w with
    | asleep => simpa [Pc.Agrees] using h
    | locking | testing | relocking => exact trivial
    | announcing | sleeping | unlocking => exact absurd hout (by simp [Pc.inside])

theorem Pc.Agrees.announceWait (h : pc.Agrees c) (f : Flag) : pc.Agrees (c.announceWait f) := by
  cases pc with
  | outside => exact trivial
  | raising g r => exact trivial
  | waiting g w =>
    cases w with
    | asleep => exact Control.somebodyWaits_announceWait h
    | sleeping => exact ⟨(Control.flag_announceWait c f g).trans h.1,
        Control.somebodyWaits_announceWait h.2⟩
    | announcing | unlocking => exact (Control.flag_announceWait c f g).trans h
    | locking | testing | relocking => exact trivial

theorem Pc.wake_inside (pc : Pc) : pc.wake.inside = pc.inside := by
  cases pc with
  | waiting g w => cases w <;> rfl
  | _ => rfl

theorem Pc.wake_agrees (h : pc.Agrees c) : pc.wake.Agrees c := by
  cases pc with
  | waiting g w =>
    cases w with
    | asleep => exact trivial
    | _ => exact h
  | _ => exact h

theorem Pc.wake_ne_asleep (pc : Pc) (f : Flag) : pc.wake ≠ .waiting f .asleep := by
  cases pc with
  | waiting g w => cases w <;> simp [Pc.wake]
  | _ => simp [Pc.wake]

end Control

section Steps

variable {ι : Type*} {s s' : World ι} {t : ι}

theorem orderly_initial (garbage : Control) : Orderly (World.initial garbage : World ι) := by
  refine ⟨?_, fun t => trivial, ?_⟩
  · intro t
    simp [World.initial, Pc.inside]
  · intro t f hasleep
    simp [World.initial] at hasleep

theorem Orderly.not_inside (h : Orderly s) (ht : (s.pc t).inside = true) {u : ι} (hu : u ≠ t) :
    (s.pc u).inside = false := by
  by_contra hin
  have hu' := (h.holder u).mp (by simpa using hin)
  have ht' := (h.holder t).mp ht
  rw [ht'] at hu'
  exact hu (Option.some.inj hu').symm

variable [DecidableEq ι]

/-- One operation of thread `t`, seen from outside: its position, the fields and the
    mutex go together. -/
theorem Orderly.advance (h : Orderly s) {pc : Pc} {control : Control} {mutex : Option ι}
    (hmutex : mutex = if pc.inside = true then some t else
      if (s.pc t).inside = true then none else s.mutex)
    (henter : pc.inside = true → s.mutex = none ∨ s.mutex = some t)
    (hself : pc.Agrees control) (hother : ∀ u, u ≠ t → (s.pc u).Agrees control)
    (hasleep : ∀ f, pc = .waiting f .asleep → control.flag f = false)
    (hannounced : ∀ u f, s.pc u = .waiting f .asleep → control.flag f = true →
      pc.announces f ∨ ∃ v, v ≠ t ∧ (s.pc v).announces f) :
    Orderly { s.goto t pc with control := control, mutex := mutex } := by
  have hat : (s.goto t pc).pc t = pc := World.goto_pc_self s t pc
  have hne : ∀ u, u ≠ t → (s.goto t pc).pc u = s.pc u := fun u hu => World.goto_pc_of_ne hu
  refine ⟨?_, ?_, ?_⟩
  · intro u
    simp only
    by_cases hu : u = t
    · rw [hu, hat, hmutex]
      by_cases hin : pc.inside = true
      · simp [hin]
      · by_cases hwas : (s.pc t).inside = true
        · simp [hin, hwas]
        · simp only [hin, hwas, Bool.false_eq_true, if_false, false_iff]
          exact fun hmine => hwas ((h.holder t).mpr hmine)
    · rw [hne u hu, hmutex]
      by_cases hin : pc.inside = true
      · rw [if_pos hin, Option.some.injEq]
        refine iff_of_false ?_ (fun heq => hu heq.symm)
        intro huin
        have hheld := (h.holder u).mp huin
        rcases henter hin with hfree | hmine
        · rw [hfree] at hheld
          cases hheld
        · rw [hmine] at hheld
          exact hu (Option.some.inj hheld).symm
      · rw [if_neg hin]
        by_cases hwas : (s.pc t).inside = true
        · rw [if_pos hwas, h.not_inside hwas hu]
          simp
        · rw [if_neg hwas]
          exact h.holder u
  · intro u
    simp only
    by_cases hu : u = t
    · rw [hu, hat]
      exact hself
    · rw [hne u hu]
      exact hother u hu
  · intro u f hpc hflag
    simp only at hpc hflag ⊢
    by_cases hu : u = t
    · rw [hu, hat] at hpc
      rw [hasleep f hpc] at hflag
      cases hflag
    · rw [hne u hu] at hpc
      rcases hannounced u f hpc hflag with hann | ⟨v, hv, hann⟩
      · exact ⟨t, by rwa [hat]⟩
      · exact ⟨v, by rwa [hne v hv]⟩

/-- If `t` announces after its step whatever it announced before, every sleeper of a
    raised flag still has its announcer. -/
theorem Orderly.announced (h : Orderly s) (pc : Pc)
    (hkeep : ∀ f, (s.pc t).announces f → pc.announces f) (u : ι) (f : Flag)
    (hasleep : s.pc u = .waiting f .asleep) (hflag : s.control.flag f = true) :
    pc.announces f ∨ ∃ v, v ≠ t ∧ (s.pc v).announces f := by
  obtain ⟨v, hv⟩ := h.noLostWakeUp u f hasleep hflag
  by_cases hvt : v = t
  · exact .inl (hkeep f (hvt ▸ hv))
  · exact .inr ⟨v, hvt, hv⟩

/-- A step of `t` that leaves the fields alone. -/
theorem Orderly.move (h : Orderly s) {pc : Pc} {mutex : Option ι}
    (hmutex : mutex = if pc.inside = true then some t else
      if (s.pc t).inside = true then none else s.mutex)
    (henter : pc.inside = true → s.mutex = none ∨ s.mutex = some t)
    (hself : pc.Agrees s.control) (hasleep : ∀ f, pc = .waiting f .asleep → s.control.flag f = false)
    (hkeep : ∀ f, (s.pc t).announces f → pc.announces f) :
    Orderly { s.goto t pc with mutex := mutex } :=
  h.advance hmutex henter hself (fun u _ => h.agrees u) hasleep (h.announced pc hkeep)

theorem Orderly.lock (h : Orderly s) {pc : Pc} (hin : pc.inside = true)
    (hself : pc.Agrees s.control) (hkeep : ∀ f, ¬ (s.pc t).announces f)
    (hstep : s.lock t pc = some s') : Orderly s' := by
  simp only [World.lock] at hstep
  split at hstep
  · rename_i hfree
    obtain rfl := Option.some.inj hstep
    refine h.move (by simp [hin]) (fun _ => .inl hfree) hself ?_ (fun f hf => absurd hf (hkeep f))
    rintro f rfl
    simp [Pc.inside] at hin
  · cases hstep

/-- Between lock and unlock the mutex stays where it is. -/
theorem Orderly.stay (h : Orderly s) {pc : Pc} (hwas : (s.pc t).inside = true)
    (hin : pc.inside = true) (hself : pc.Agrees s.control)
    (hkeep : ∀ f, (s.pc t).announces f → pc.announces f) : Orderly (s.goto t pc) := by
  have hmine := (h.holder t).mp hwas
  refine h.move (by rw [if_pos hin, hmine]) (fun _ => .inr hmine) hself ?_ hkeep
  rintro f rfl
  simp [Pc.inside] at hin

theorem Orderly.unlock (h : Orderly s) {pc : Pc} (hwas : (s.pc t).inside = true)
    (hout : pc.inside = false) (hself : pc.Agrees s.control)
    (hasleep : ∀ f, pc = .waiting f .asleep → s.control.flag f = false)
    (hkeep : ∀ f, ¬ (s.pc t).announces f) : Orderly (s.unlock t pc) :=
  h.move (by simp [hwas, hout]) (fun hin => absurd hin (by simp [hout])) hself hasleep
    (fun f hf => absurd hf (hkeep f))

/-- The flag goes up while the thread that raises it holds the mutex, so nobody is
    between the test of the flag and its sleep. -/
theorem Orderly.set (h : Orderly s) {f : Flag} (hpc : s.pc t = .raising f .setting) :
    Orderly { s.goto t (.raising f .testing) with control := s.control.raise f } := by
  have hwas : (s.pc t).inside = true := by rw [hpc]; rfl
  have hmine := (h.holder t).mp hwas
  refine h.advance (hmine.trans (if_pos rfl).symm) (fun _ => .inr hmine) trivial ?_ (by simp) ?_
  · intro u hu
    exact (h.agrees u).raise (h.not_inside hwas hu) f
  · intro u f' hasleep hflag
    by_cases hf : f' = f
    · exact .inl (.inl (by rw [hf]))
    · rw [Control.flag_raise_of_ne hf] at hflag
      refine h.announced (.raising f .testing) ?_ u f' hasleep hflag
      intro g hg
      rw [hpc] at hg
      simp [Pc.announces] at hg

/-- A broadcast that is left out has nobody to wake. -/
theorem Orderly.skip (h : Orderly s) {f : Flag} (hpc : s.pc t = .raising f .testing)
    (hnobody : s.control.somebodyWaits f ≠ true) : Orderly (s.goto t (.raising f .unlocking)) := by
  have hwas : (s.pc t).inside = true := by rw [hpc]; rfl
  have hmine := (h.holder t).mp hwas
  refine h.advance (hmine.trans (if_pos rfl).symm) (fun _ => .inr hmine) trivial
    (fun u _ => h.agrees u) (by simp) ?_
  intro u f' hasleep hflag
  obtain ⟨v, hv⟩ := h.noLostWakeUp u f' hasleep hflag
  refine .inr ⟨v, ?_, hv⟩
  rintro rfl
  have hf : f = f' := by
    rw [hpc] at hv
    simpa [Pc.announces] using hv
  have hwaits := h.agrees u
  rw [hasleep, ← hf] at hwaits
  exact hnobody hwaits

theorem Orderly.broadcast (h : Orderly s) {f : Flag} (hpc : s.pc t = .raising f .broadcasting) :
    Orderly { s with
      pc := Function.update (fun u => (s.pc u).wake) t (.raising f .unlocking) } := by
  have hself : ∀ pc : ι → Pc, Function.update pc t (.raising f .unlocking) t
      = .raising f .unlocking := fun pc => by simp
  refine ⟨?_, ?_, ?_⟩
  · intro u
    simp only
    by_cases hu : u = t
    · rw [hu, hself, ← h.holder t, hpc]
      rfl
    · rw [Function.update_of_ne hu, Pc.wake_inside]
      exact h.holder u
  · intro u
    simp only
    by_cases hu : u = t
    · rw [hu, hself]
      exact trivial
    · rw [Function.update_of_ne hu]
      exact Pc.wake_agrees (h.agrees u)
  · intro u f' hasleep
    simp only at hasleep
    by_cases hu : u = t
    · rw [hu, hself] at hasleep
      cases hasleep
    · rw [Function.update_of_ne hu] at hasleep
      exact absurd hasleep (Pc.wake_ne_asleep _ f')

theorem Orderly.raiseStep (h : Orderly s) {f : Flag} {pc : RaisePc} (hpc : s.pc t = .raising f pc)
    (hstep : s.raiseStep t f pc = some s') : Orderly s' := by
  cases pc with
  | locking =>
    refine h.lock (t := t) ?_ ?_ ?_ hstep
    · rfl
    · exact trivial
    · simp [hpc, Pc.announces]
  | setting =>
    obtain rfl := Option.some.inj hstep
    exact h.set hpc
  | testing =>
    simp only [World.raiseStep] at hstep
    split at hstep
    · obtain rfl := Option.some.inj hstep
      refine h.stay (by rw [hpc]; rfl) rfl trivial ?_
      intro g hg
      rw [hpc] at hg
      exact .inr (by simpa [Pc.announces] using hg)
    · rename_i hnobody
      obtain rfl := Option.some.inj hstep
      exact h.skip hpc hnobody
  | broadcasting =>
    obtain rfl := Option.some.inj hstep
    exact h.broadcast hpc
  | unlocking =>
    obtain rfl := Option.some.inj hstep
    exact h.unlock (by rw [hpc]; rfl) rfl trivial (by simp) (by simp [hpc, Pc.announces])

theorem Orderly.announceWait (h : Orderly s) {f : Flag} (hpc : s.pc t = .waiting f .announcing) :
    Orderly { s.goto t (.waiting f .sleeping) with control := s.control.announceWait f } := by
  have hwas : (s.pc t).inside = true := by rw [hpc]; rfl
  have hmine := (h.holder t).mp hwas
  have hdown := h.agrees t
  rw [hpc] at hdown
  refine h.advance (hmine.trans (if_pos rfl).symm) (fun _ => .inr hmine) ?_ ?_ (by simp) ?_
  · exact ⟨(Control.flag_announceWait _ _ _).trans hdown,
      Control.somebodyWaits_announceWait_self s.control f⟩
  · intro u _
    exact (h.agrees u).announceWait f
  · intro u f' hasleep hflag
    rw [Control.flag_announceWait] at hflag
    refine h.announced (.waiting f .sleeping) ?_ u f' hasleep hflag
    simp [hpc, Pc.announces]

theorem Orderly.waitStep (h : Orderly s) {f : Flag} {pc : WaitPc} (hpc : s.pc t = .waiting f pc)
    (hstep : s.waitStep t f pc = some s') : Orderly s' := by
  have hnot : ∀ g, ¬ (s.pc t).announces g := by simp [hpc, Pc.announces]
  have hagrees := h.agrees t
  rw [hpc] at hagrees
  cases pc with
  | locking | relocking => exact h.lock (t := t) (by rfl) (by exact trivial) hnot hstep
  | testing =>
    simp only [World.waitStep] at hstep
    split at hstep
    · rename_i hflag
      obtain rfl := Option.some.inj hstep
      exact h.stay (by rw [hpc]; rfl) rfl hflag (fun g hg => absurd hg (hnot g))
    · rename_i hflag
      obtain rfl := Option.some.inj hstep
      exact h.stay (by rw [hpc]; rfl) rfl (by simpa [Pc.Agrees] using hflag)
        (fun g hg => absurd hg (hnot g))
  | announcing =>
    obtain rfl := Option.some.inj hstep
    exact h.announceWait hpc
  | sleeping =>
    obtain rfl := Option.some.inj hstep
    refine h.unlock (by rw [hpc]; rfl) rfl hagrees.2 ?_ hnot
    intro g hg
    have hfg : f = g := by simpa using hg
    exact hfg ▸ hagrees.1
  | asleep => cases hstep
  | unlocking =>
    obtain rfl := Option.some.inj hstep
    exact h.unlock (by rw [hpc]; rfl) rfl trivial (by simp) hnot

/-- A step outside the mutex that announces nothing: a call, a wake-up. -/
theorem Orderly.outside (h : Orderly s) {pc : Pc} (hwas : (s.pc t).inside = false)
    (hout : pc.inside = false) (hself : pc.Agrees s.control)
    (hasleep : ∀ f, pc ≠ .waiting f .asleep) (hkeep : ∀ f, ¬ (s.pc t).announces f) :
    Orderly (s.goto t pc) :=
  h.move (by simp [hwas, hout]) (fun hin => absurd hin (by simp [hout])) hself
    (fun f hf => absurd hf (hasleep f)) (fun f hf => absurd hf (hkeep f))

theorem Orderly.step (h : Orderly s) {a : Action ι} (hstep : s.step a = some s') : Orderly s' := by
  cases a with
  | call t c =>
    simp only [World.step] at hstep
    split at hstep
    · rename_i hpc
      obtain rfl := Option.some.inj hstep
      refine h.outside (by rw [hpc]; rfl) ?_ ?_ ?_ (by simp [hpc, Pc.announces])
      · cases c <;> rfl
      · cases c <;> exact trivial
      · intro f
        cases c <;> simp [Call.entry, sdbTCtlSignalStop, sdbTCtlWaitForSignal, sdbTCtlMarkStopped,
          sdbTCtlWaitForStop]
    · cases hstep
  | advance t =>
    simp only [World.step] at hstep
    split at hstep
    · cases hstep
    · rename_i f pc hpc
      exact h.raiseStep hpc hstep
    · rename_i f pc hpc
      exact h.waitStep hpc hstep
  | wakeUp t =>
    simp only [World.step] at hstep
    split at hstep
    · rename_i f hpc
      obtain rfl := Option.some.inj hstep
      exact h.outside (by rw [hpc]; rfl) rfl trivial (by simp) (by simp [hpc, Pc.announces])
    · cases hstep

end Steps

/-! ### Runs -/

/-- A thread comes out of a wait. -/
def Returns {ι : Type*} (s s' : World ι) (t : ι) (f : Flag) : Prop :=
  (∃ pc, s.pc t = .waiting f pc) ∧ s'.pc t = .outside

section Returns

variable {ι : Type*} [DecidableEq ι] {s s' : World ι} {t u : ι} {f : Flag} {pc : Pc}

theorem not_returns_of_ne (hpc : s'.pc = Function.update s.pc u pc) (hu : t ≠ u) :
    ¬ Returns s s' t f := by
  rintro ⟨⟨w, hw⟩, hout⟩
  rw [hpc, Function.update_of_ne hu, hw] at hout
  cases hout

theorem not_returns_of_inside (hpc : s'.pc = Function.update s.pc u pc) (hin : pc ≠ .outside) :
    ¬ Returns s s' t f := by
  intro hreturn
  by_cases hu : t = u
  · obtain ⟨-, hout⟩ := hreturn
    rw [hpc, hu, Function.update_self] at hout
    exact hin hout
  · exact not_returns_of_ne hpc hu hreturn

theorem lock_pc (h : s.lock u pc = some s') : s'.pc = Function.update s.pc u pc := by
  simp only [World.lock] at h
  split at h
  · obtain rfl := Option.some.inj h
    rfl
  · cases h

/-- A thread that raises a flag ends no wait, its own broadcast included. -/
theorem raiseStep_not_returns {r : RaisePc} {g : Flag} (hpc : s.pc u = .raising g r)
    (hstep : s.raiseStep u g r = some s') : ¬ Returns s s' t f := by
  cases r with
  | locking => exact not_returns_of_inside (lock_pc hstep) (by simp)
  | setting =>
    obtain rfl := Option.some.inj hstep
    exact not_returns_of_inside rfl (by simp)
  | testing =>
    simp only [World.raiseStep] at hstep
    split at hstep
    · obtain rfl := Option.some.inj hstep
      exact not_returns_of_inside rfl (by simp)
    · obtain rfl := Option.some.inj hstep
      exact not_returns_of_inside rfl (by simp)
  | broadcasting =>
    obtain rfl := Option.some.inj hstep
    rintro ⟨⟨w, hw⟩, hout⟩
    by_cases hu : t = u
    · simp [hu] at hout
    · simp only [Function.update_of_ne hu, hw] at hout
      cases w <;> cases hout
  | unlocking =>
    obtain rfl := Option.some.inj hstep
    intro hreturn
    have hu : t ≠ u := by
      rintro rfl
      obtain ⟨⟨w, hw⟩, -⟩ := hreturn
      rw [hpc] at hw
      cases hw
    exact not_returns_of_ne rfl hu hreturn

/-- A wait is left behind the test of its flag. -/
theorem waitStep_returns {w : WaitPc} {g : Flag} (hpc : s.pc u = .waiting g w)
    (hstep : s.waitStep u g w = some s') (hreturn : Returns s s' t f) :
    u = t ∧ g = f ∧ w = .unlocking ∧ s'.control = s.control := by
  cases w with
  | locking | relocking => exact absurd hreturn (not_returns_of_inside (lock_pc hstep) (by simp))
  | testing =>
    simp only [World.waitStep] at hstep
    split at hstep
    · obtain rfl := Option.some.inj hstep
      exact absurd hreturn (not_returns_of_inside rfl (by simp))
    · obtain rfl := Option.some.inj hstep
      exact absurd hreturn (not_returns_of_inside rfl (by simp))
  | announcing | sleeping =>
    obtain rfl := Option.some.inj hstep
    exact absurd hreturn (not_returns_of_inside rfl (by simp))
  | asleep => cases hstep
  | unlocking =>
    obtain rfl := Option.some.inj hstep
    have hu : t = u := by
      by_contra hne
      exact not_returns_of_ne rfl hne hreturn
    obtain ⟨⟨w, hw⟩, -⟩ := hreturn
    rw [hu, hpc] at hw
    obtain ⟨rfl, -⟩ := Pc.waiting.inj hw
    exact ⟨hu.symm, rfl, rfl, rfl⟩

theorem Orderly.returns (h : Orderly s) {a : Action ι} (hstep : s.step a = some s')
    (hreturn : Returns s s' t f) : s'.control.flag f = true := by
  cases a with
  | call u c =>
    simp only [World.step] at hstep
    split at hstep
    · obtain rfl := Option.some.inj hstep
      refine absurd hreturn (not_returns_of_inside rfl ?_)
      cases c <;> exact Pc.noConfusion
    · cases hstep
  | advance u =>
    simp only [World.step] at hstep
    split at hstep
    · cases hstep
    · rename_i g r hpc
      exact absurd hreturn (raiseStep_not_returns hpc hstep)
    · rename_i g w hpc
      obtain ⟨rfl, rfl, rfl, hcontrol⟩ := waitStep_returns hpc hstep hreturn
      have hflag := h.agrees u
      rw [hpc] at hflag
      rw [hcontrol]
      exact hflag
  | wakeUp u =>
    simp only [World.step] at hstep
    split at hstep
    · obtain rfl := Option.some.inj hstep
      exact absurd hreturn (not_returns_of_inside rfl (by simp))
    · cases hstep

end Returns

/-- In no reachable state is a wake-up lost, and a wait ends only with its flag
    raised. -/
theorem noLostWakeUp_of_reachable {ι : Type*} [DecidableEq ι] (garbage : Control) (s : World ι)
    (h : Reachable World.step (World.initial garbage) s) :
    NoLostWakeUp s ∧
      ∀ a s' t f, s.step a = some s' → Returns s s' t f → s'.control.flag f = true := by
  have horderly : Orderly s :=
    h.invariant (fun _ _ _ hs hstep => Orderly.step hs hstep) (orderly_initial garbage)
  exact ⟨horderly.noLostWakeUp, fun a s' t f hstep hreturn => horderly.returns hstep hreturn⟩

/-- One thread sleeps in `SdbTCtlWaitForStop` while the other has raised the flag. -/
def sleeperAndMarker : List (Action Bool) :=
  [.call false .waitForStop, .advance false, .advance false, .advance false, .advance false,
    .call true .markStopped, .advance true, .advance true]

def fieldsClear : Control := ⟨false, false, false, false⟩

def markedWhileAsleep : World Bool :=
  (run World.step (World.initial fieldsClear) sleeperAndMarker).getD (World.initial fieldsClear)

theorem noLostWakeUp_markedWhileAsleep :
    markedWhileAsleep.pc false = .waiting .hasStopped .asleep ∧
      markedWhileAsleep.control.flag .hasStopped = true ∧ NoLostWakeUp markedWhileAsleep :=
  ⟨rfl, rfl, (noLostWakeUp_of_reachable fieldsClear markedWhileAsleep ⟨sleeperAndMarker, rfl⟩).1⟩

end Lmalloc.Tasks.ThreadControl
