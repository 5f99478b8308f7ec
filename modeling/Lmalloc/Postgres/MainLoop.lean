/-
  Lmalloc/Postgres/MainLoop.lean
  ==============================
  **The main loop of `PgRun`: its two counters of failure and its count of rows.**

  One step is one decision of the source: the loop condition, an `epoll_wait`,
  the look at `Events[0]`, or one round of the loop over the pipe's buffers.
  What the environment answers (the shutdown flag, the result of `epoll_wait`,
  the buffers, the results of `PgInsertData`) is the input of the step, so a list
  of inputs is an arbitrary run, and every prefix of a run is a run.

  `++TimeoutCounter` and `++PgFailCounter` stand among the arguments of a logging
  macro, which evaluates them only where its level is compiled in.
-/
import Lmalloc.Library.Run
import Lmalloc.Library.Word

namespace Lmalloc.Postgres.MainLoop

open Lmalloc.Library Lmalloc.Library.Word

/-! ### The loop -/

/-- `SDB_LOG_LEVEL`, whether `SdbAssert` aborts, and the packet size of the pipe. -/
structure Config where
  logLevel : ℕ
  asserts : Bool
  packetSize : UInt64
  packetSize_pos : 0 < packetSize

def logLevelErr : ℕ := 1
def logLevelInf : ℕ := 3

/-- `1e4`. -/
def breakOnCount : UInt64 := 10000

def EINTR : Int32 := 4
def EIO : Int32 := 5
def ETIMEDOUT : Int32 := 110

def EPOLLIN : UInt32 := 0x001
def EPOLLERR : UInt32 := 0x008
def EPOLLHUP : UInt32 := 0x010

/-- `++counter` as an argument of a logging macro of the given level. -/
def logCount (c : Config) (level : ℕ) (counter : UInt64) : UInt64 :=
  if level ≤ c.logLevel then counter + 1 else counter

/-- Where control is: at the condition of the main loop, before `epoll_wait`,
    before the tests of `Events[0]`, at the condition of the loop over the pipe. -/
inductive Point where
  | loopTest
  | wait
  | inspect
  | read
  | left
  | aborted
deriving DecidableEq, Repr

/-- A buffer taken from the pipe, and what `PgInsertData` returned for it. -/
structure Batch where
  itemCount : UInt64
  insertRet : Int32
deriving DecidableEq, Repr

/-- The variables of `PgRun` and two histories: whether the last `epoll_wait`
    delivered an event, and the buffers taken from the pipe. -/
structure LoopState where
  point : Point
  ret : Int32
  pgFailCounter : UInt64
  timeoutCounter : UInt64
  totalInsertedItems : UInt64
  events : UInt32
  delivered : Bool
  taken : List Batch
deriving DecidableEq, Repr

def start : LoopState :=
  { point := .loopTest
    ret := 0
    pgFailCounter := 0
    timeoutCounter := 0
    totalInsertedItems := 0
    events := 0
    delivered := false
    taken := [] }

inductive EpollResult where
  | error (errno : Int32)
  | timeout
  | event (events : UInt32)
deriving DecidableEq, Repr

/-- `stale` is what the uninitialised `Events[0].events` holds where `epoll_wait`
    does not write it. -/
inductive Input where
  | shouldShutdown (answer : Bool)
  | epollWait (result : EpollResult) (stale : UInt32)
  | inspect
  | pipeEmpty
  | buffer (pos : UInt64) (insertRet : Int32)
deriving DecidableEq, Repr

/-- The chain of tests on `EpollRet`. -/
def afterWait (c : Config) (s : LoopState) (stale : UInt32) : EpollResult → LoopState
  | .error errno =>
      if errno = EINTR then { s with point := .loopTest }
      else { s with ret := -errno, point := .left }
  | .timeout =>
      let counter := logCount c logLevelInf s.timeoutCounter
      if 5 ≤ counter then
        -- no `break` here: control falls through to the tests of `Events[0]`
        { s with
          timeoutCounter := counter
          ret := -ETIMEDOUT
          events := stale
          delivered := false
          point := .inspect }
      else { s with timeoutCounter := counter, point := .loopTest }
  | .event events => { s with events := events, delivered := true, point := .inspect }

def inspectEvents (s : LoopState) : LoopState :=
  if s.events &&& (EPOLLERR ||| EPOLLHUP) ≠ 0 then { s with ret := - EIO, point := .left }
  else if s.events &&& EPOLLIN ≠ 0 then { s with point := .read }
  else { s with point := .loopTest }

/-- The body of the loop over the pipe, for a buffer whose arena position is `pos`. -/
def insertBuffer (c : Config) (s : LoopState) (pos : UInt64) (insertRet : Int32) : LoopState :=
  if c.asserts = true ∧ pos % c.packetSize ≠ 0 then { s with point := .aborted }
  else
    let itemCount := pos / c.packetSize
    let total := s.totalInsertedItems + itemCount
    let s := { s with
      totalInsertedItems := total
      taken := s.taken ++ [⟨itemCount, insertRet⟩] }
    if breakOnCount ≤ total then { s with point := .loopTest }
    else if insertRet ≠ 0 then
      let counter := logCount c logLevelErr s.pgFailCounter
      if 5 ≤ counter then { s with pgFailCounter := counter, ret := -1, point := .loopTest }
      else { s with pgFailCounter := counter }
    else s

def step (c : Config) (s : LoopState) : Input → Option LoopState
  | .shouldShutdown answer =>
      if s.point = .loopTest then
        if answer = false ∧ s.totalInsertedItems < breakOnCount then
          some { s with point := .wait }
        else some { s with point := .left }
      else none
  | .epollWait result stale =>
      if s.point = .wait then some (afterWait c s stale result) else none
  | .inspect => if s.point = .inspect then some (inspectEvents s) else none
  | .pipeEmpty => if s.point = .read then some { s with point := .loopTest } else none
  | .buffer pos insertRet =>
      if s.point = .read then some (insertBuffer c s pos insertRet) else none

/-- Everything a step can do. -/
theorem step_cases {c : Config} {s s' : LoopState} {i : Input} (h : step c s i = some s') :
    (∃ answer, i = .shouldShutdown answer ∧ s.point = .loopTest ∧
      (s.totalInsertedItems < breakOnCount ∧ s' = { s with point := .wait } ∨
        s' = { s with point := .left })) ∨
    (∃ result stale, i = .epollWait result stale ∧ s.point = .wait ∧
      s' = afterWait c s stale result) ∨
    (i = .inspect ∧ s.point = .inspect ∧ s' = inspectEvents s) ∨
    (i = .pipeEmpty ∧ s.point = .read ∧ s' = { s with point := .loopTest }) ∨
    (∃ pos insertRet, i = .buffer pos insertRet ∧ s.point = .read ∧
      s' = insertBuffer c s pos insertRet) := by
  cases i with
  | shouldShutdown answer =>
    obtain ⟨hp, hnext⟩ := Option.ite_none_right_eq_some.mp h
    refine .inl ⟨answer, rfl, hp, ?_⟩
    split at hnext
    · rename_i hgo
      exact .inl ⟨hgo.2, (Option.some.inj hnext).symm⟩
    · exact .inr (Option.some.inj hnext).symm
  | epollWait result stale =>
    obtain ⟨hp, hnext⟩ := Option.ite_none_right_eq_some.mp h
    exact .inr (.inl ⟨result, stale, rfl, hp, (Option.some.inj hnext).symm⟩)
  | inspect =>
    obtain ⟨hp, hnext⟩ := Option.ite_none_right_eq_some.mp h
    exact .inr (.inr (.inl ⟨rfl, hp, (Option.some.inj hnext).symm⟩))
  | pipeEmpty =>
    obtain ⟨hp, hnext⟩ := Option.ite_none_right_eq_some.mp h
    exact .inr (.inr (.inr (.inl ⟨rfl, hp, (Option.some.inj hnext).symm⟩)))
  | buffer pos insertRet =>
    obtain ⟨hp, hnext⟩ := Option.ite_none_right_eq_some.mp h
    exact .inr (.inr (.inr (.inr ⟨pos, insertRet, rfl, hp, (Option.some.inj hnext).symm⟩)))

/-! ### Events and timeouts -/

/-- `Events[0]` is looked at only after an `epoll_wait` that delivered an event,
    and a counter of five means that the loop was left with `-ETIMEDOUT`. -/
def ReactsToEvents (s : LoopState) : Prop :=
  (s.point = .inspect → s.delivered = true) ∧
    (5 ≤ s.timeoutCounter → s.point = .left ∧ s.ret = -ETIMEDOUT)

instance (s : LoopState) : Decidable (ReactsToEvents s) := inferInstanceAs (Decidable (_ ∧ _))

/-- A timeout at `epoll_wait` does not bring the counter to five. -/
def BelowThreshold (c : Config) (s : LoopState) : Input → Prop
  | .epollWait .timeout _ => s.point = .wait → logCount c logLevelInf s.timeoutCounter < 5
  | _ => True

theorem ReactsToEvents.counter_lt {s : LoopState} (h : ReactsToEvents s) (hp : s.point ≠ .left) :
    s.timeoutCounter < 5 := by
  by_contra hlt
  exact hp (h.2 (UInt64.not_lt.mp hlt)).1

theorem reactsToEvents_of_counter_lt {s : LoopState} (hcount : s.timeoutCounter < 5)
    (hinspect : s.point = .inspect → s.delivered = true) : ReactsToEvents s := by
  refine ⟨hinspect, ?_⟩
  intro hge
  exact absurd hcount (UInt64.not_lt.mpr hge)

theorem afterWait_reacts {c : Config} {s : LoopState} {stale : UInt32} {result : EpollResult}
    (hcount : s.timeoutCounter < 5)
    (hbelow : result = .timeout → logCount c logLevelInf s.timeoutCounter < 5) :
    ReactsToEvents (afterWait c s stale result) := by
  cases result with
  | error errno =>
    simp only [afterWait]
    split
    · exact reactsToEvents_of_counter_lt hcount (by simp)
    · exact reactsToEvents_of_counter_lt hcount (by simp)
  | timeout =>
    have hlt := hbelow rfl
    simp only [afterWait, if_neg (UInt64.not_le.mpr hlt)]
    exact reactsToEvents_of_counter_lt hlt (by simp)
  | event events => exact reactsToEvents_of_counter_lt hcount (by simp [afterWait])

/-- The fifth timeout falls through to the tests of `Events[0]`. -/
theorem afterWait_timeout_not_reacts {c : Config} {s : LoopState} {stale : UInt32}
    (hge : ¬ logCount c logLevelInf s.timeoutCounter < 5) :
    ¬ ReactsToEvents (afterWait c s stale .timeout) := by
  simp only [afterWait, if_pos (UInt64.not_lt.mp hge)]
  intro h
  exact absurd (h.1 rfl) (by simp)

theorem inspectEvents_frame (s : LoopState) :
    (inspectEvents s).timeoutCounter = s.timeoutCounter ∧ (inspectEvents s).point ≠ .inspect := by
  unfold inspectEvents
  split
  · exact ⟨rfl, by simp⟩
  · split
    · exact ⟨rfl, by simp⟩
    · exact ⟨rfl, by simp⟩

theorem insertBuffer_frame (c : Config) {s : LoopState} (pos : UInt64) (insertRet : Int32)
    (hread : s.point = .read) :
    (insertBuffer c s pos insertRet).timeoutCounter = s.timeoutCounter ∧
      (insertBuffer c s pos insertRet).point ≠ .inspect := by
  unfold insertBuffer
  dsimp only
  split_ifs <;> simp [hread]

theorem step_reacts {c : Config} {s s' : LoopState} {i : Input} (hs : ReactsToEvents s)
    (hbelow : BelowThreshold c s i) (h : step c s i = some s') : ReactsToEvents s' := by
  rcases step_cases h with
    ⟨answer, rfl, hp, ⟨-, rfl⟩ | rfl⟩ | ⟨result, stale, rfl, hp, rfl⟩ | ⟨rfl, hp, rfl⟩ |
      ⟨rfl, hp, rfl⟩ | ⟨pos, insertRet, rfl, hp, rfl⟩
  · exact reactsToEvents_of_counter_lt (hs.counter_lt (by simp [hp])) (by simp)
  · exact reactsToEvents_of_counter_lt (hs.counter_lt (by simp [hp])) (by simp)
  · refine afterWait_reacts (hs.counter_lt (by simp [hp])) ?_
    rintro rfl
    exact hbelow hp
  · obtain ⟨hcount, hpoint⟩ := inspectEvents_frame s
    refine reactsToEvents_of_counter_lt ?_ (fun hin => absurd hin hpoint)
    rw [hcount]
    exact hs.counter_lt (by simp [hp])
  · exact reactsToEvents_of_counter_lt (hs.counter_lt (by simp [hp])) (by simp)
  · obtain ⟨hcount, hpoint⟩ := insertBuffer_frame c pos insertRet hp
    refine reactsToEvents_of_counter_lt ?_ (fun hin => absurd hin hpoint)
    rw [hcount]
    exact hs.counter_lt (by simp [hp])

theorem start_reacts : ReactsToEvents start := by decide

/-- The main loop reacts only to delivered events, and stops at the threshold, in
    exactly the runs in which no timeout reaches it. -/
theorem reactsToEvents_iff_belowThreshold (c : Config) (inputs : List Input) :
    Throughout (step c) ReactsToEvents start inputs ↔
      Along (step c) (BelowThreshold c) start inputs := by
  constructor
  · intro h
    refine along_of_throughout (I := fun _ => True) (fun _ _ _ _ _ => trivial) ?_ trivial h
    intro s i _ hover
    rcases i with _ | ⟨_ | _ | _, stale⟩ | _ | _ | _
    case epollWait.timeout =>
      obtain ⟨hp, hge⟩ := Classical.not_imp.mp hover
      exact ⟨afterWait c s stale .timeout, by simp only [step, if_pos hp],
        afterWait_timeout_not_reacts hge⟩
    all_goals exact absurd trivial hover
  · intro h
    exact throughout_of_along (I := ReactsToEvents) (fun s i s' hs hi hstep => step_reacts hs hi hstep)
      (fun _ hs => hs) start_reacts h

/-- Five timeouts: the last one makes the loop look at an event that was not delivered. -/
def fiveTimeouts : List Input :=
  (List.replicate 5 [.shouldShutdown false, .epollWait .timeout 0]).flatten

def defaultConfig : Config :=
  { logLevel := 3, asserts := true, packetSize := 16, packetSize_pos := by decide }

theorem fiveTimeouts_not_reacts :
    ¬ ∀ (c : Config) (inputs : List Input), Throughout (step c) ReactsToEvents start inputs := by
  intro h
  have hend := (h defaultConfig fiveTimeouts).last (t := { start with
    point := .inspect, ret := -ETIMEDOUT, timeoutCounter := 5 }) (by decide +kernel)
  exact absurd hend (by decide)

/-! ### Rows and failures -/

/-- `PgInsertData` returns 0 exactly when it committed the rows. -/
def committedRows (taken : List Batch) : ℕ :=
  ((taken.filter (·.insertRet = 0)).map (·.itemCount.toNat)).sum

def failures (taken : List Batch) : ℕ := taken.countP (·.insertRet ≠ 0)

/-- The stop condition counts committed rows, and the other buffers are counted
    as failures. -/
def Accounted (s : LoopState) : Prop :=
  s.totalInsertedItems.toNat = committedRows s.taken ∧
    s.pgFailCounter = UInt64.ofNat (failures s.taken)

instance (s : LoopState) : Decidable (Accounted s) := inferInstanceAs (Decidable (_ ∧ _))

/-- The rows were committed and the count of them fits, or there were none and the
    failure is logged. -/
def BatchCountable (c : Config) (s : LoopState) (b : Batch) : Prop :=
  (b.insertRet = 0 → s.totalInsertedItems.toNat + b.itemCount.toNat < 2 ^ 64) ∧
    (b.insertRet ≠ 0 → b.itemCount = 0 ∧ logLevelErr ≤ c.logLevel)

def AssertHolds (c : Config) (pos : UInt64) : Prop :=
  ¬ (c.asserts = true ∧ pos % c.packetSize ≠ 0)

def Countable (c : Config) (s : LoopState) : Input → Prop
  | .buffer pos insertRet =>
      s.point = .read → AssertHolds c pos → BatchCountable c s ⟨pos / c.packetSize, insertRet⟩
  | _ => True

/-- Inside the main loop the threshold is not reached yet. -/
def BelowBreak (s : LoopState) : Prop :=
  s.point = .wait ∨ s.point = .inspect ∨ s.point = .read →
    s.totalInsertedItems < breakOnCount

theorem committedRows_append (taken : List Batch) (b : Batch) :
    committedRows (taken ++ [b]) =
      committedRows taken + if b.insertRet = 0 then b.itemCount.toNat else 0 := by
  by_cases hret : b.insertRet = 0
  · simp [committedRows, hret]
  · simp [committedRows, hret]

theorem failures_append (taken : List Batch) (b : Batch) :
    failures (taken ++ [b]) = failures taken + if b.insertRet = 0 then 0 else 1 := by
  by_cases hret : b.insertRet = 0
  · simp [failures, hret]
  · simp [failures, hret]

/-- What a round of the inner loop does to the counters. -/
theorem insertBuffer_counters {c : Config} (s : LoopState) {pos : UInt64} (insertRet : Int32)
    (hassert : AssertHolds c pos) :
    let s' := insertBuffer c s pos insertRet
    s'.totalInsertedItems = s.totalInsertedItems + pos / c.packetSize ∧
      s'.taken = s.taken ++ [⟨pos / c.packetSize, insertRet⟩] ∧
      s'.pgFailCounter =
        if breakOnCount ≤ s'.totalInsertedItems ∨ insertRet = 0 then s.pgFailCounter
        else logCount c logLevelErr s.pgFailCounter := by
  simp only [insertBuffer, if_neg hassert]
  by_cases hbreak : breakOnCount ≤ s.totalInsertedItems + pos / c.packetSize
  · simp [hbreak]
  · by_cases hret : insertRet = 0
    · simp [hbreak, hret]
    · by_cases hfive : 5 ≤ logCount c logLevelErr s.pgFailCounter
      · simp [hbreak, hret, hfive]
      · simp [hbreak, hret, hfive]

/-- A failure is counted where errors are logged. -/
theorem logCount_eq_succ_iff {c : Config} {level n : ℕ} :
    logCount c level (UInt64.ofNat n) = UInt64.ofNat (n + 1) ↔ level ≤ c.logLevel := by
  by_cases hlevel : level ≤ c.logLevel
  · simp [logCount, hlevel, UInt64.ofNat_add]
  · simp [logCount, hlevel]

/-- A round keeps the account exactly where its batch can be counted. -/
theorem insertBuffer_accounted_iff {c : Config} {s : LoopState} {pos : UInt64}
    {insertRet : Int32} (hs : Accounted s) (hbelow : s.totalInsertedItems < breakOnCount)
    (hassert : AssertHolds c pos) :
    Accounted (insertBuffer c s pos insertRet) ↔
      BatchCountable c s ⟨pos / c.packetSize, insertRet⟩ := by
  obtain ⟨htotal, htaken, hfail⟩ :=
    insertBuffer_counters s insertRet hassert
  obtain ⟨hrows, hcount⟩ := hs
  unfold Accounted BatchCountable
  rw [hfail, htotal, htaken, committedRows_append, failures_append, ← hrows, hcount]
  by_cases hret : insertRet = 0
  · simp only [hret, or_true, if_true, add_zero, and_true, ne_eq, not_true_eq_false,
      forall_true_left, false_implies]
    exact toNat_add_eq_iff _ _
  · simp only [hret, or_false, if_false, add_zero, ne_eq, not_false_eq_true, forall_true_left,
      false_implies, true_and]
    rw [toNat_add_eq_left_iff]
    apply and_congr_right
    intro hzero
    rw [hzero, add_zero, if_neg (UInt64.not_le.mpr hbelow), logCount_eq_succ_iff]

theorem afterWait_counters (c : Config) (s : LoopState) (stale : UInt32) (result : EpollResult) :
    let s' := afterWait c s stale result
    s'.totalInsertedItems = s.totalInsertedItems ∧ s'.taken = s.taken ∧
      s'.pgFailCounter = s.pgFailCounter := by
  cases result with
  | error errno =>
    simp only [afterWait]
    split <;> exact ⟨rfl, rfl, rfl⟩
  | timeout =>
    simp only [afterWait]
    split <;> exact ⟨rfl, rfl, rfl⟩
  | event events => exact ⟨rfl, rfl, rfl⟩

theorem inspectEvents_counters (s : LoopState) :
    let s' := inspectEvents s
    s'.totalInsertedItems = s.totalInsertedItems ∧ s'.taken = s.taken ∧
      s'.pgFailCounter = s.pgFailCounter := by
  unfold inspectEvents
  split_ifs <;> exact ⟨rfl, rfl, rfl⟩

theorem insertBuffer_belowBreak (c : Config) (s : LoopState) (pos : UInt64) (insertRet : Int32) :
    BelowBreak (insertBuffer c s pos insertRet) := by
  unfold insertBuffer BelowBreak
  split
  · simp
  · by_cases hbreak : breakOnCount ≤ s.totalInsertedItems + pos / c.packetSize
    · simp [hbreak]
    · have hlt := UInt64.not_le.mp hbreak
      simp only [if_neg hbreak]
      split_ifs <;> exact fun _ => hlt

/-- Only the round over a buffer touches the counters, and where the loop goes on
    after a step the threshold is not reached. -/
theorem step_counters {c : Config} {s s' : LoopState} {i : Input} (hs : BelowBreak s)
    (h : step c s i = some s') :
    BelowBreak s' ∧
      ((∃ pos insertRet, i = .buffer pos insertRet ∧ s.point = .read ∧
          s' = insertBuffer c s pos insertRet) ∨
        s'.totalInsertedItems = s.totalInsertedItems ∧ s'.taken = s.taken ∧
          s'.pgFailCounter = s.pgFailCounter) := by
  rcases step_cases h with
    ⟨answer, rfl, hp, ⟨hgo, rfl⟩ | rfl⟩ | ⟨result, stale, rfl, hp, rfl⟩ | ⟨rfl, hp, rfl⟩ |
      ⟨rfl, hp, rfl⟩ | ⟨pos, insertRet, rfl, hp, rfl⟩
  · exact ⟨fun _ => hgo, .inr ⟨rfl, rfl, rfl⟩⟩
  · exact ⟨by simp [BelowBreak], .inr ⟨rfl, rfl, rfl⟩⟩
  · have hkeep := afterWait_counters c s stale result
    refine ⟨?_, .inr hkeep⟩
    intro _
    rw [hkeep.1]
    exact hs (.inl hp)
  · have hkeep := inspectEvents_counters s
    refine ⟨?_, .inr hkeep⟩
    intro _
    rw [hkeep.1]
    exact hs (.inr (.inl hp))
  · exact ⟨by simp [BelowBreak], .inr ⟨rfl, rfl, rfl⟩⟩
  · exact ⟨insertBuffer_belowBreak c s pos insertRet, .inl ⟨pos, insertRet, rfl, hp, rfl⟩⟩

theorem step_accounted {c : Config} {s s' : LoopState} {i : Input}
    (hs : BelowBreak s ∧ Accounted s) (hcount : Countable c s i) (h : step c s i = some s') :
    BelowBreak s' ∧ Accounted s' := by
  obtain ⟨hbelow, hround⟩ := step_counters hs.1 h
  refine ⟨hbelow, ?_⟩
  obtain ⟨pos, insertRet, rfl, hp, rfl⟩ | ⟨htotal, htaken, hfail⟩ := hround
  · by_cases hassert : AssertHolds c pos
    · exact (insertBuffer_accounted_iff hs.2 (hs.1 (.inr (.inr hp))) hassert).mpr
        (hcount hp hassert)
    · have habort : c.asserts = true ∧ pos % c.packetSize ≠ 0 := not_not.mp hassert
      rw [insertBuffer, if_pos habort]
      exact hs.2
  · unfold Accounted
    rw [htotal, htaken, hfail]
    exact hs.2

/-- The counters are right after every round in exactly the runs in which every
    buffer can be counted. -/
theorem accounted_iff_countable (c : Config) (inputs : List Input) :
    Throughout (step c) Accounted start inputs ↔ Along (step c) (Countable c) start inputs := by
  have hstart : BelowBreak start := by simp [BelowBreak, start]
  constructor
  · intro h
    refine along_of_stays (fun s a s' hs hstep => (step_counters hs hstep).1) ?_ hstart h
    intro s i hbelow hs hbad
    cases i with
    | buffer pos insertRet =>
      simp only [Countable, Classical.not_imp] at hbad
      obtain ⟨hp, hassert, hbad⟩ := hbad
      refine ⟨insertBuffer c s pos insertRet, by simp only [step, if_pos hp], ?_⟩
      rwa [insertBuffer_accounted_iff hs (hbelow (.inr (.inr hp))) hassert]
    | _ => exact absurd trivial hbad
  · intro h
    exact throughout_of_along (fun s i s' hs hi hstep => step_accounted hs hi hstep)
      (fun _ hs => hs.2) ⟨hstart, by decide⟩ h

/-- A failed insert of three rows is counted as three rows. -/
theorem failedInsert_not_accounted :
    ¬ ∀ (c : Config) (inputs : List Input), Throughout (step c) Accounted start inputs := by
  intro h
  have hend := (h defaultConfig
    [.shouldShutdown false, .epollWait (.event EPOLLIN) 0, .inspect, .buffer 48 (-6)]).last
    (t := { start with
      point := .read, pgFailCounter := 1, totalInsertedItems := 3, events := EPOLLIN,
      delivered := true, taken := [⟨3, -6⟩] }) (by decide +kernel)
  exact absurd hend (by decide)

end Lmalloc.Postgres.MainLoop
