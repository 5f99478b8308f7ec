/-
  Lmalloc/Logging/Lock.lean
  =========================
  **Who lets go of the lock of a log module.**

  `lm__write_log__` leaves through one label, behind which the lock is released.
  `Sdb__WriteLog__` is the same function with a `return` at each of the places from
  which the other goes to that label, and releases the lock at its end only.
  `lm__disable_log_to_term__` locks twice, where its three neighbours lock and
  unlock.

  The lock is a plain `pthread_mutex_t`: the thread that holds it blocks for good when
  it locks again.  The outcomes of the library calls are inputs.
-/
import Lmalloc.Library.Run
import Lmalloc.Library.Word

namespace Lmalloc.Logging

open Lmalloc.Library

/-! ### The lock -/

inductive LockOp where
  | lock
  | unlock
deriving DecidableEq, Repr

/-- A mutex, as the only thread that uses it sees it, with what was done to it. -/
structure Mutex where
  held : Bool
  history : List LockOp
deriving DecidableEq, Repr

/-- `pthread_mutex_lock`; no result where the thread blocks. -/
def Mutex.lock (x : Mutex) : Option Mutex :=
  if x.held then none else some ⟨true, x.history ++ [.lock]⟩

def Mutex.unlock (x : Mutex) : Mutex := ⟨false, x.history ++ [.unlock]⟩

/-! ### Filling the buffer -/

def ENOMEM : Int32 := 12

/-- What the library calls of one message return; `errno` and `ferror` belong to the one
    that fails. -/
structure Outcomes where
  time : Bool
  localtime : Bool
  strftime : UInt64
  nameRet : Int32        -- `snprintf` of the module's name and the level
  messageRet : Int32     -- `vsnprintf`
  droppedRet : Int32     -- `snprintf` of the notice that takes the message's place
  write : Bool
  fwrite : Bool
  errno : Int32
  ferror : Int32
deriving DecidableEq, Repr

/-- How far a function has come: an `assert` has failed, an error was met, or so many
    characters are in the buffer and so many more fit. -/
inductive Progress where
  | aborted
  | failed (retval : Int32)
  | reached (charsWritten bufRemaining : UInt64)
deriving DecidableEq, Repr

def Progress.andThen (p : Progress) (next : UInt64 → UInt64 → Progress) : Progress :=
  match p with
  | .reached charsWritten bufRemaining => next charsWritten bufRemaining
  | p => p

/-- `assert(condition)` and the error behind it. -/
def assertOr (ndebug condition : Bool) (retval : Int32) : Progress :=
  if condition = false ∧ ndebug = false then .aborted else .failed retval

/-- The two tests after an `snprintf`, the second with `tooLong` under it. -/
def appended (fmtRet errno : Int32) (tooLong : Progress) (charsWritten bufRemaining : UInt64) :
    Progress :=
  if fmtRet < 0 then .failed (-errno)
  else if bufRemaining ≤ fmtRet.toInt64.toUInt64 then tooLong
  else .reached (charsWritten + fmtRet.toInt64.toUInt64) (bufRemaining - fmtRet.toInt64.toUInt64)

/-- The time, the name of the module and the level. -/
def stamp (ndebug : Bool) (o : Outcomes) (bufSize : UInt64) : Progress :=
  if o.time = false then .failed (-o.errno)
  else if o.localtime = false then .failed (-o.errno)
  else if o.strftime = 0 then assertOr ndebug false (-ENOMEM)
  else
    appended o.nameRet o.errno (assertOr ndebug (o.nameRet ≠ 0) (-ENOMEM)) o.strftime
      (bufSize - o.strftime)

/-- The message, or the notice that it was dropped. -/
def message (ndebug : Bool) (o : Outcomes) (charsWritten bufRemaining : UInt64) : Progress :=
  appended o.messageRet o.errno
    (appended o.droppedRet o.errno (assertOr ndebug (o.droppedRet ≠ 0) (-ENOMEM)) charsWritten
      bufRemaining)
    charsWritten bufRemaining

/-! ### The functions -/

structure LmLogModule where
  lock : Mutex
  writeToTerm : Bool
  writeToFile : Bool
  file : Option ℕ
  bufSize : UInt64
deriving DecidableEq, Repr

structure SdbLogModule where
  lock : Mutex
  bufferSize : UInt64
deriving DecidableEq, Repr

inductive Ended (α : Type) where
  | blocked
  | aborted
  | returned (retval : Int32) (module : α)
deriving DecidableEq, Repr

/-- `write` to the terminal and `fwrite` to the file, where the module has them. -/
def lmOutput (m : LmLogModule) (o : Outcomes) (charsWritten bufRemaining : UInt64) : Progress :=
  if m.writeToTerm = true ∧ o.write = false then .failed (-o.errno)
  else if m.writeToFile = true ∧ o.fwrite = false then .failed (-o.ferror)
  else .reached charsWritten bufRemaining

/-- From the lock to the label `out`. -/
def lmBody (ndebug : Bool) (m : LmLogModule) (logRaw : Bool) (o : Outcomes) : Progress :=
  let stamped := if logRaw then .reached 0 m.bufSize else stamp ndebug o m.bufSize
  (stamped.andThen (message ndebug o)).andThen (lmOutput m o)

def lmWriteLog (ndebug : Bool) (module : Option LmLogModule) (logRaw : Bool) (o : Outcomes) :
    Ended (Option LmLogModule) :=
  match module with
  | none => .returned 0 none
  | some m =>
      match m.lock.lock with
      | none => .blocked
      | some lock =>
          match lmBody ndebug m logRaw o with
          | .aborted => .aborted
          | .failed retval => .returned retval (some { m with lock := lock.unlock })
          | .reached _ _ => .returned 0 (some { m with lock := lock.unlock })

/-- The functions that change one field between lock and unlock. -/
def withLock (m : LmLogModule) (change : LmLogModule → LmLogModule) : Ended LmLogModule :=
  match m.lock.lock with
  | none => .blocked
  | some lock => .returned 0 { change m with lock := lock.unlock }

def lmSetLogFile (file : ℕ) (m : LmLogModule) : Ended LmLogModule :=
  withLock m fun m => { m with writeToFile := true, file := some file }

def lmRemoveLogFile (m : LmLogModule) : Ended LmLogModule :=
  withLock m fun m => { m with writeToFile := false, file := none }

def lmEnableLogToTerm (m : LmLogModule) : Ended LmLogModule :=
  withLock m fun m => { m with writeToTerm := true }

/-- The second operation is a lock as well. -/
def lmDisableLogToTerm (m : LmLogModule) : Ended LmLogModule :=
  match m.lock.lock with
  | none => .blocked
  | some lock =>
      match lock.lock with
      | none => .blocked
      | some lock => .returned 0 { m with writeToTerm := false, lock := lock }

def sdbOutput (o : Outcomes) (charsWritten bufRemaining : UInt64) : Progress :=
  if o.write = false then .failed (-o.errno) else .reached charsWritten bufRemaining

/-- From the lock to the unlock. -/
def sdbBody (ndebug : Bool) (m : SdbLogModule) (o : Outcomes) : Progress :=
  ((stamp ndebug o m.bufferSize).andThen (message ndebug o)).andThen (sdbOutput o)

def sdbWriteLog (ndebug : Bool) (module : Option SdbLogModule) (o : Outcomes) :
    Ended (Option SdbLogModule) :=
  match module with
  | none => .returned 0 none
  | some m =>
      match m.lock.lock with
      | none => .blocked
      | some lock =>
          match sdbBody ndebug m o with
          | .aborted => .aborted
          -- every error returns from where it is met
          | .failed retval => .returned retval (some { m with lock := lock })
          | .reached _ _ => .returned 0 (some { m with lock := lock.unlock })

/-! ### Sequences of calls -/

/-- A module of each kind. -/
structure Modules where
  lm : LmLogModule
  sdb : SdbLogModule
deriving DecidableEq, Repr

/-- A call; the two that write may be given `NULL` for the module. -/
inductive Call where
  | lmWriteLog (toNull logRaw : Bool) (o : Outcomes)
  | lmSetLogFile (file : ℕ)
  | lmRemoveLogFile
  | lmEnableLogToTerm
  | lmDisableLogToTerm
  | sdbWriteLog (toNull : Bool) (o : Outcomes)
deriving DecidableEq, Repr

def Ended.map {α β : Type} (f : α → β) : Ended α → Ended β
  | .blocked => .blocked
  | .aborted => .aborted
  | .returned retval module => .returned retval (f module)

def call (ndebug : Bool) (s : Modules) : Call → Ended Modules
  | .lmWriteLog toNull logRaw o =>
      (lmWriteLog ndebug (if toNull then none else some s.lm) logRaw o).map fun m =>
        { s with lm := m.getD s.lm }
  | .lmSetLogFile file => (lmSetLogFile file s.lm).map fun m => { s with lm := m }
  | .lmRemoveLogFile => (lmRemoveLogFile s.lm).map fun m => { s with lm := m }
  | .lmEnableLogToTerm => (lmEnableLogToTerm s.lm).map fun m => { s with lm := m }
  | .lmDisableLogToTerm => (lmDisableLogToTerm s.lm).map fun m => { s with lm := m }
  | .sdbWriteLog toNull o =>
      (sdbWriteLog ndebug (if toNull then none else some s.sdb) o).map fun m =>
        { s with sdb := m.getD s.sdb }

def step (ndebug : Bool) (s : Modules) (c : Call) : Option Modules :=
  match call ndebug s c with
  | .returned _ s' => some s'
  | _ => none

/-! ### What is claimed -/

/-- The lock is as it was, and was locked and unlocked once if at all. -/
def Mutex.Kept (before after : Mutex) : Prop :=
  after.held = before.held ∧
    (after.history = before.history ∨ after.history = before.history ++ [.lock, .unlock])

/-- The call does not block, and both locks are as it found them when it returns. -/
def KeepsLocks (ndebug : Bool) (s : Modules) (c : Call) : Prop :=
  call ndebug s c ≠ .blocked ∧ ∀ retval s', call ndebug s c = .returned retval s' →
    s.lm.lock.Kept s'.lm.lock ∧ s.sdb.lock.Kept s'.sdb.lock

/-- An `snprintf` whose output fits, and one whose output does not. -/
def Fits (fmtRet : Int32) (bufRemaining : UInt64) : Prop :=
  ¬ fmtRet < 0 ∧ ¬ bufRemaining ≤ fmtRet.toInt64.toUInt64

def TooLong (fmtRet : Int32) (bufRemaining : UInt64) : Prop :=
  ¬ fmtRet < 0 ∧ bufRemaining ≤ fmtRet.toInt64.toUInt64

/-- The time, the name and the level are in the buffer. -/
structure Stamped (o : Outcomes) (bufSize : UInt64) : Prop where
  time : o.time = true
  localtime : o.localtime = true
  strftime : o.strftime ≠ 0
  name : Fits o.nameRet (bufSize - o.strftime)

/-- So is the message, or the notice. -/
def MessageFits (o : Outcomes) (bufRemaining : UInt64) : Prop :=
  Fits o.messageRet bufRemaining ∨
    TooLong o.messageRet bufRemaining ∧ Fits o.droppedRet bufRemaining

/-- No library call of `Sdb__WriteLog__` fails. -/
structure Succeeds (o : Outcomes) (bufSize : UInt64) : Prop where
  stamped : Stamped o bufSize
  message : MessageFits o (bufSize - o.strftime - o.nameRet.toInt64.toUInt64)
  write : o.write = true

/-- An `assert` ends the process. -/
structure Aborts (ndebug : Bool) (o : Outcomes) (bufSize : UInt64) : Prop where
  asserts : ndebug = false
  time : o.time = true
  localtime : o.localtime = true
  zero : o.strftime = 0 ∨ o.strftime ≠ 0 ∧ bufSize - o.strftime = 0 ∧ o.nameRet = 0

/-- Not the function that locks twice, and no error in the one that returns from it. -/
def Releases (ndebug : Bool) (s : Modules) : Call → Prop
  | .lmDisableLogToTerm => False
  | .sdbWriteLog toNull o =>
      toNull = true ∨ Succeeds o s.sdb.bufferSize ∨ Aborts ndebug o s.sdb.bufferSize
  | _ => True

/-! ### The ways through the buffer -/

section Buffer

variable {o : Outcomes} {fmtRet errno : Int32} {tooLong : Progress} {w r : UInt64} {ndebug : Bool}

theorem appended_of_fits (h : Fits fmtRet r) : appended fmtRet errno tooLong w r =
    .reached (w + fmtRet.toInt64.toUInt64) (r - fmtRet.toInt64.toUInt64) := by
  rw [appended, if_neg h.1, if_neg h.2]

theorem appended_of_tooLong (h : TooLong fmtRet r) :
    appended fmtRet errno tooLong w r = tooLong := by
  rw [appended, if_neg h.1, if_pos h.2]

theorem appended_of_neg (h : fmtRet < 0) :
    appended fmtRet errno tooLong w r = .failed (-errno) := by
  rw [appended, if_pos h]

theorem fits_cases (fmtRet : Int32) (r : UInt64) : fmtRet < 0 ∨ Fits fmtRet r ∨ TooLong fmtRet r := by
  by_cases hneg : fmtRet < 0
  · exact .inl hneg
  · by_cases hlong : r ≤ fmtRet.toInt64.toUInt64
    · exact .inr (.inr ⟨hneg, hlong⟩)
    · exact .inr (.inl ⟨hneg, hlong⟩)

/-- What is left of a buffer into which something fitted. -/
theorem Fits.sub_ne_zero (h : Fits fmtRet r) : r - fmtRet.toInt64.toUInt64 ≠ 0 := by
  intro hzero
  have hlt := UInt64.not_le.mp h.2
  rw [UInt64.lt_iff_toNat_lt] at hlt
  have hnat := congrArg UInt64.toNat hzero
  rw [Word.toNat_sub_of_le hlt.le, UInt64.toNat_zero] at hnat
  omega

theorem tooLong_zero (h : TooLong 0 r) : r = 0 := by
  apply UInt64.toNat_inj.mp
  exact Nat.le_zero.mp (UInt64.le_iff_toNat_le.mp h.2)

theorem assertOr_failed {condition : Bool} {retval : Int32}
    (h : condition = true ∨ ndebug = true) : assertOr ndebug condition retval = .failed retval := by
  rcases h with h | h <;> simp [assertOr, h]

theorem stamp_of_stamped {bufSize : UInt64} (h : Stamped o bufSize) : stamp ndebug o bufSize =
    .reached (o.strftime + o.nameRet.toInt64.toUInt64)
      (bufSize - o.strftime - o.nameRet.toInt64.toUInt64) := by
  simp only [stamp, h.time, h.localtime, Bool.true_eq_false, if_false, if_neg h.strftime]
  exact appended_of_fits h.name

theorem stamp_of_aborts {bufSize : UInt64} (h : Aborts ndebug o bufSize) :
    stamp ndebug o bufSize = .aborted := by
  simp only [stamp, h.time, h.localtime, Bool.true_eq_false, if_false]
  rcases h.zero with hzero | ⟨hne, hroom, hname⟩
  · rw [if_pos hzero, h.asserts]
    rfl
  · rw [if_neg hne, hroom, hname, h.asserts]
    rfl

/-- Every other way through the first part meets an error. -/
theorem stamp_failed {bufSize : UInt64} (hstamped : ¬ Stamped o bufSize)
    (haborts : ¬ Aborts ndebug o bufSize) : ∃ retval, stamp ndebug o bufSize = .failed retval := by
  unfold stamp
  cases htime : o.time with
  | false => exact ⟨_, rfl⟩
  | true =>
    cases hlocaltime : o.localtime with
    | false => exact ⟨_, rfl⟩
    | true =>
      simp only [Bool.true_eq_false, if_false]
      by_cases hzero : o.strftime = 0
      · refine ⟨_, (if_pos hzero).trans (assertOr_failed (.inr ?_))⟩
        by_contra hndebug
        exact haborts ⟨by simpa using hndebug, htime, hlocaltime, .inl hzero⟩
      · rw [if_neg hzero]
        rcases fits_cases o.nameRet (bufSize - o.strftime) with hneg | hfits | hlong
        · exact ⟨_, appended_of_neg hneg⟩
        · exact absurd ⟨htime, hlocaltime, hzero, hfits⟩ hstamped
        · refine ⟨_, (appended_of_tooLong hlong).trans (assertOr_failed ?_)⟩
          by_cases hname : o.nameRet = 0
          · right
            by_contra hndebug
            rw [hname] at hlong
            exact haborts ⟨by simpa using hndebug, htime, hlocaltime,
              .inr ⟨hzero, tooLong_zero hlong, hname⟩⟩
          · exact .inl (by simpa using hname)

theorem message_of_fits (ndebug : Bool) (w : UInt64) (h : MessageFits o r) : ∃ w' r', message ndebug o w r = .reached w' r' := by
  rcases h with hfits | ⟨hlong, hfits⟩
  · exact ⟨_, _, appended_of_fits hfits⟩
  · exact ⟨_, _, (appended_of_tooLong hlong).trans (appended_of_fits hfits)⟩

theorem message_failed (ndebug : Bool) (w : UInt64) (hroom : r ≠ 0) (h : ¬ MessageFits o r) :
    ∃ retval, message ndebug o w r = .failed retval := by
  rcases fits_cases o.messageRet r with hneg | hfits | hlong
  · exact ⟨_, appended_of_neg hneg⟩
  · exact absurd (.inl hfits) h
  · rw [message, appended_of_tooLong hlong]
    rcases fits_cases o.droppedRet r with hneg | hfits | hdropped
    · exact ⟨_, appended_of_neg hneg⟩
    · exact absurd (.inr ⟨hlong, hfits⟩) h
    · refine ⟨_, (appended_of_tooLong hdropped).trans (assertOr_failed (.inl ?_))⟩
      have hne : o.droppedRet ≠ 0 := by
        intro hzero
        rw [hzero] at hdropped
        exact hroom (tooLong_zero hdropped)
      simpa using hne

end Buffer

section Body

variable {o : Outcomes} {m : SdbLogModule} {ndebug : Bool}

theorem sdbBody_of_succeeds (ndebug : Bool) (h : Succeeds o m.bufferSize) :
    ∃ w r, sdbBody ndebug m o = .reached w r := by
  obtain ⟨w, r, hmessage⟩ := message_of_fits ndebug
    (o.strftime + o.nameRet.toInt64.toUInt64) h.message
  refine ⟨w, r, ?_⟩
  simp only [sdbBody, stamp_of_stamped h.stamped, Progress.andThen, hmessage, sdbOutput, h.write,
    Bool.true_eq_false, if_false]

theorem sdbBody_of_aborts (h : Aborts ndebug o m.bufferSize) : sdbBody ndebug m o = .aborted := by
  simp only [sdbBody, stamp_of_aborts h, Progress.andThen]

theorem sdbBody_failed (hsucceeds : ¬ Succeeds o m.bufferSize) (haborts : ¬ Aborts ndebug o m.bufferSize) :
    ∃ retval, sdbBody ndebug m o = .failed retval := by
  by_cases hstamped : Stamped o m.bufferSize
  · simp only [sdbBody, stamp_of_stamped hstamped, Progress.andThen]
    by_cases hmessage : MessageFits o
        (m.bufferSize - o.strftime - o.nameRet.toInt64.toUInt64)
    · obtain ⟨w, r, heq⟩ := message_of_fits ndebug
        (o.strftime + o.nameRet.toInt64.toUInt64) hmessage
      have hwrite : o.write = false := by
        by_contra hwrite
        exact hsucceeds ⟨hstamped, hmessage, by simpa using hwrite⟩
      exact ⟨-o.errno, by simp only [heq, sdbOutput, hwrite, if_true]⟩
    · obtain ⟨retval, heq⟩ := message_failed ndebug
        (o.strftime + o.nameRet.toInt64.toUInt64) hstamped.name.sub_ne_zero hmessage
      exact ⟨retval, by simp only [heq]⟩
  · obtain ⟨retval, heq⟩ := stamp_failed hstamped haborts
    exact ⟨retval, by simp only [sdbBody, heq, Progress.andThen]⟩

end Body

/-! ### One call -/

/-- No lock is held. -/
def Modules.Free (s : Modules) : Prop := s.lm.lock.held = false ∧ s.sdb.lock.held = false

theorem Mutex.Kept.refl (x : Mutex) : x.Kept x := ⟨rfl, .inl rfl⟩

/-- Lock and unlock. -/
def Mutex.cycle (x : Mutex) : Mutex := ⟨false, x.history ++ [.lock, .unlock]⟩

theorem Mutex.kept_cycle {x : Mutex} (h : x.held = false) : x.Kept x.cycle := ⟨h.symm, .inr rfl⟩

theorem Mutex.lock_of_free {x : Mutex} (h : x.held = false) :
    x.lock = some ⟨true, x.history ++ [.lock]⟩ := by
  simp [Mutex.lock, h]

theorem Mutex.unlock_lock (x : Mutex) :
    (Mutex.mk true (x.history ++ [.lock])).unlock = x.cycle := by
  simp [Mutex.unlock, Mutex.cycle]

section Call

variable {ndebug : Bool} {s : Modules}

/-- `lm__write_log__` with a module: it ends the process, or goes through `out`. -/
theorem lmWriteLog_cases (ndebug : Bool) (h : s.lm.lock.held = false) (logRaw : Bool) (o : Outcomes) :
    lmWriteLog ndebug (some s.lm) logRaw o = .aborted ∨
      ∃ retval, lmWriteLog ndebug (some s.lm) logRaw o =
        .returned retval (some { s.lm with lock := s.lm.lock.cycle }) := by
  simp only [lmWriteLog, Mutex.lock_of_free h, Mutex.unlock_lock]
  cases lmBody ndebug s.lm logRaw o with
  | aborted => exact .inl rfl
  | failed retval => exact .inr ⟨retval, rfl⟩
  | reached w r => exact .inr ⟨0, rfl⟩

theorem withLock_of_free (h : s.lm.lock.held = false) (change : LmLogModule → LmLogModule) :
    withLock s.lm change = .returned 0 { change s.lm with lock := s.lm.lock.cycle } := by
  simp only [withLock, Mutex.lock_of_free h, Mutex.unlock_lock]

theorem lmDisableLogToTerm_blocks (h : s.lm.lock.held = false) :
    lmDisableLogToTerm s.lm = .blocked := by
  simp only [lmDisableLogToTerm, Mutex.lock_of_free h]
  rfl

/-- A call that returns with the lock of its `lm` module let go. -/
theorem keepsLocks_of_lm {c : Call} {m : LmLogModule} {retval : Int32} (h : s.Free)
    (hm : m.lock = s.lm.lock.cycle) (hcall : call ndebug s c = .returned retval { s with lm := m }) :
    KeepsLocks ndebug s c := by
  rw [KeepsLocks, hcall]
  refine ⟨by simp, ?_⟩
  rintro _ _ ⟨⟩
  refine ⟨?_, Mutex.Kept.refl _⟩
  rw [hm]
  exact Mutex.kept_cycle h.1

theorem keepsLocks_of_aborted {c : Call} (hcall : call ndebug s c = .aborted) :
    KeepsLocks ndebug s c := by
  rw [KeepsLocks, hcall]
  exact ⟨by simp, by simp⟩

theorem keepsLocks_of_null {c : Call} {retval : Int32} (hcall : call ndebug s c = .returned retval s) :
    KeepsLocks ndebug s c := by
  rw [KeepsLocks, hcall]
  refine ⟨by simp, ?_⟩
  rintro _ _ ⟨⟩
  exact ⟨Mutex.Kept.refl _, Mutex.Kept.refl _⟩

theorem keepsLocks_lmWriteLog (h : s.Free) (toNull logRaw : Bool) (o : Outcomes) :
    KeepsLocks ndebug s (.lmWriteLog toNull logRaw o) := by
  cases toNull with
  | true => exact keepsLocks_of_null rfl
  | false =>
    rcases lmWriteLog_cases ndebug h.1 logRaw o with habort | ⟨retval, hreturn⟩
    · exact keepsLocks_of_aborted (by simp [call, habort, Ended.map])
    · have hcall : call ndebug s (.lmWriteLog false logRaw o) = .returned retval
          { s with lm := { s.lm with lock := s.lm.lock.cycle } } := by
        simp [call, hreturn, Ended.map]
      exact keepsLocks_of_lm h rfl hcall

/-- `Sdb__WriteLog__` lets go of its lock unless it returns from an error. -/
theorem keepsLocks_sdbWriteLog_iff (h : s.Free) (toNull : Bool) (o : Outcomes) :
    KeepsLocks ndebug s (.sdbWriteLog toNull o) ↔
      toNull = true ∨ Succeeds o s.sdb.bufferSize ∨ Aborts ndebug o s.sdb.bufferSize := by
  cases toNull with
  | true => exact iff_of_true (keepsLocks_of_null rfl) (.inl rfl)
  | false =>
    by_cases hsucceeds : Succeeds o s.sdb.bufferSize
    · refine iff_of_true ?_ (.inr (.inl hsucceeds))
      obtain ⟨w, r, hbody⟩ := sdbBody_of_succeeds ndebug hsucceeds
      have hcall : call ndebug s (.sdbWriteLog false o) = .returned 0
          { s with sdb := { s.sdb with lock := s.sdb.lock.cycle } } := by
        simp [call, sdbWriteLog, Mutex.lock_of_free h.2, hbody, Mutex.unlock_lock, Ended.map]
      rw [KeepsLocks, hcall]
      refine ⟨by simp, ?_⟩
      rintro _ _ ⟨⟩
      exact ⟨Mutex.Kept.refl _, Mutex.kept_cycle h.2⟩
    · by_cases haborts : Aborts ndebug o s.sdb.bufferSize
      · refine iff_of_true (keepsLocks_of_aborted ?_) (.inr (.inr haborts))
        simp [call, sdbWriteLog, Mutex.lock_of_free h.2, sdbBody_of_aborts haborts, Ended.map]
      · refine iff_of_false ?_ (by simp [hsucceeds, haborts])
        obtain ⟨retval, hbody⟩ := sdbBody_failed hsucceeds haborts
        have hcall : call ndebug s (.sdbWriteLog false o) = .returned retval
            { s with sdb := { s.sdb with lock := ⟨true, s.sdb.lock.history ++ [.lock]⟩ } } := by
          simp [call, sdbWriteLog, Mutex.lock_of_free h.2, hbody, Ended.map]
        intro hkeeps
        have hheld := (hkeeps.2 _ _ hcall).2.1
        rw [h.2] at hheld
        cases hheld

theorem keepsLocks_iff_releases (h : s.Free) (c : Call) :
    KeepsLocks ndebug s c ↔ Releases ndebug s c := by
  cases c with
  | lmWriteLog toNull logRaw o => exact iff_of_true (keepsLocks_lmWriteLog h toNull logRaw o) trivial
  | lmSetLogFile file =>
    refine iff_of_true (keepsLocks_of_lm h ?_ (congrArg (Ended.map _) (withLock_of_free h.1 _))) trivial
    rfl
  | lmRemoveLogFile =>
    refine iff_of_true (keepsLocks_of_lm h ?_ (congrArg (Ended.map _) (withLock_of_free h.1 _))) trivial
    rfl
  | lmEnableLogToTerm =>
    refine iff_of_true (keepsLocks_of_lm h ?_ (congrArg (Ended.map _) (withLock_of_free h.1 _))) trivial
    rfl
  | lmDisableLogToTerm =>
    refine iff_of_false ?_ id
    intro hkeeps
    exact hkeeps.1 (congrArg (Ended.map _) (lmDisableLogToTerm_blocks h.1))
  | sdbWriteLog toNull o => exact keepsLocks_sdbWriteLog_iff h toNull o

theorem free_of_keepsLocks (h : s.Free) {c : Call} (hkeeps : KeepsLocks ndebug s c) {s' : Modules}
    (hstep : step ndebug s c = some s') : s'.Free := by
  simp only [step] at hstep
  split at hstep
  · rename_i retval t hcall
    obtain rfl := Option.some.inj hstep
    obtain ⟨hlm, hsdb⟩ := hkeeps.2 retval _ hcall
    exact ⟨hlm.1.trans h.1, hsdb.1.trans h.2⟩
  · cases hstep

end Call

/-! ### Sequences -/

/-- Every call leaves the locks as it found them, and none blocks, exactly in the
    sequences without `lm__disable_log_to_term__` and without an error in
    `Sdb__WriteLog__`. -/
theorem keepsLocks_along_iff (ndebug : Bool) (s : Modules) (h : s.Free) (calls : List Call) :
    Along (step ndebug) (KeepsLocks ndebug) s calls ↔ Along (step ndebug) (Releases ndebug) s calls :=
  along_congr_while (fun _ _ _ hfree hkeeps hstep => free_of_keepsLocks hfree hkeeps hstep)
    (fun _ c hfree => keepsLocks_iff_releases hfree c) h

/-- The modules as `LM_LOG_REGISTER` and `SDB_LOG_REGISTER` make them. -/
def registered : Modules :=
  { lm :=
      { lock := ⟨false, []⟩, writeToTerm := true, writeToFile := false, file := none, bufSize := 128 }
    sdb := { lock := ⟨false, []⟩, bufferSize := 128 } }

/-- A message of five characters behind a stamp of ten and a name of eleven, written or not. -/
def fiveCharacters (write : Bool) : Outcomes :=
  { time := true, localtime := true, strftime := 10, nameRet := 11, messageRet := 5, droppedRet := 0,
    write := write, fwrite := true, errno := 9, ferror := 0 }

theorem keepsLocks_along_iff_two :
    Along (step false) (KeepsLocks false) registered
        [.sdbWriteLog false (fiveCharacters true), .lmEnableLogToTerm] ↔
      Along (step false) (Releases false) registered
        [.sdbWriteLog false (fiveCharacters true), .lmEnableLogToTerm] :=
  keepsLocks_along_iff false registered ⟨rfl, rfl⟩ _

/-- A `write` that fails keeps the lock, and the next message blocks. -/
theorem failedWrite_keeps_lock :
    ¬ ∀ (ndebug : Bool) (s : Modules), s.Free → ∀ calls : List Call,
      Along (step ndebug) (KeepsLocks ndebug) s calls := by
  intro h
  have hsecond := (h false registered ⟨rfl, rfl⟩
    [.sdbWriteLog false (fiveCharacters false), .sdbWriteLog false (fiveCharacters true)]).2
    { registered with sdb := { registered.sdb with lock := ⟨true, [.lock]⟩ } } (by decide +kernel)
  exact hsecond.1.1 (by decide +kernel)

end Lmalloc.Logging
