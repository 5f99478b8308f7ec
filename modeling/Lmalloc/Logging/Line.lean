/-
  Lmalloc/Logging/Line.lean
  =========================
  **The bytes of a log line.**

  The two functions that write a log message fill the buffer of their module front to
  back: the time, the name and the level, the message or a notice that it was dropped,
  and a newline where the `NUL` of the last text was.  What a text may have at most is
  what remains of the buffer, so the newline still fits when the message fills the
  buffer exactly.

  The functions of `Logging/Lock` look at the values returned only.  Here the calls
  also write; `lmLine` and `sdbLine` return what those do (`retval_lmLine`,
  `retval_sdbLine`).  `CharsWritten` of `Sdb__WriteLog__` is an `ssize_t` and is kept
  as its bits.  A message fits if its terminating `NUL` does.
-/
import Lmalloc.Library.Printf
import Lmalloc.Logging.Lock

namespace Lmalloc.Logging

open Lmalloc.Library Lmalloc.Library.Word

/-! ### The library calls -/

def ascii (s : String) : List UInt8 := s.toList.map fun c => UInt8.ofNat c.toNat

/-- The library calls of one message.  One that fails sets `errno`; `clock` is what `%T`
    stands for. -/
structure Calls where
  time : Bool
  localtime : Bool
  clock : List UInt8
  strftimeJunk : List UInt8
  name : Fault
  message : Fault
  notice : Fault
  write : Bool
  fwrite : Bool
  errno : Int32
  errno_ne : errno ≠ 0
  ferror : Int32

def droppedNotice : List UInt8 := ascii "Message dropped; too big"

/-- The texts that stand before a message. -/
structure Stamp where
  time : List UInt8
  name : List UInt8

def lmStamp (c : Calls) (name logLevel : List UInt8) : Stamp where
  time := c.clock ++ ascii "::"
  name := name ++ ascii "::" ++ logLevel ++ ascii ": "

def sdbStamp (c : Calls) (name logLevel : List UInt8) : Stamp where
  time := c.clock ++ ascii ": "
  name := name ++ ascii ": " ++ logLevel ++ ascii ": "

def Stamp.text (s : Stamp) : List UInt8 := s.time ++ s.name

/-- What the calls return. -/
def Calls.outcomes (c : Calls) (s : Stamp) (text : List UInt8) (bufSize : UInt64) : Outcomes where
  time := c.time
  localtime := c.localtime
  strftime := strftimeRet s.time bufSize
  nameRet := c.name.snprintfRet s.name
  messageRet := c.message.snprintfRet text
  droppedRet := c.notice.snprintfRet droppedNotice
  write := c.write
  fwrite := c.fwrite
  errno := c.errno
  ferror := c.ferror

/-! ### The functions -/

/-- How far a function has come, and the memory. -/
abbrev Printed := Progress × Memory

def Printed.andThen (p : Printed) (next : UInt64 → UInt64 → Memory → Printed) : Printed :=
  match p with
  | (.reached charsWritten bufRemaining, m) => next charsWritten bufRemaining m
  | p => p

/-- `strftime` and the `snprintf` of the name and the level. -/
def printStamp (ndebug : Bool) (c : Calls) (s : Stamp) (buf : ℕ) (bufSize : UInt64) (m : Memory) :
    Printed :=
  if c.time = false then (.failed (-c.errno), m)
  else if c.localtime = false then (.failed (-c.errno), m)
  else
    let charsWritten := strftimeRet s.time bufSize
    let m := strftime s.time c.strftimeJunk m buf bufSize
    if charsWritten = 0 then (assertOr ndebug false (-ENOMEM), m)
    else
      let bufRemaining := bufSize - charsWritten
      let fmtRet := c.name.snprintfRet s.name
      (appended fmtRet c.errno (assertOr ndebug (fmtRet ≠ 0) (-ENOMEM)) charsWritten bufRemaining,
        c.name.snprintf s.name m (buf + charsWritten.toNat) bufRemaining)

/-- `memset` and the `snprintf` of the notice. -/
def printNotice (ndebug : Bool) (c : Calls) (buf : ℕ) (charsWritten bufRemaining : UInt64)
    (m : Memory) : Printed :=
  let m := m.fill ⟨buf + charsWritten.toNat, bufRemaining.toNat⟩ 0
  let fmtRet := c.notice.snprintfRet droppedNotice
  (appended fmtRet c.errno (assertOr ndebug (fmtRet ≠ 0) (-ENOMEM)) charsWritten bufRemaining,
    c.notice.snprintf droppedNotice m (buf + charsWritten.toNat) bufRemaining)

/-- `vsnprintf` of the message, and the notice in its place if it is too long. -/
def printMessage (ndebug : Bool) (c : Calls) (text : List UInt8) (buf : ℕ)
    (charsWritten bufRemaining : UInt64) (m : Memory) : Printed :=
  let m := c.message.snprintf text m (buf + charsWritten.toNat) bufRemaining
  let fmtRet := c.message.snprintfRet text
  if fmtRet < 0 then (.failed (-c.errno), m)
  else if bufRemaining ≤ fmtRet.toInt64.toUInt64 then
    printNotice ndebug c buf charsWritten bufRemaining m
  else
    (.reached (charsWritten + fmtRet.toInt64.toUInt64) (bufRemaining - fmtRet.toInt64.toUInt64), m)

def newline : UInt8 := 10

/-- The `NUL` behind the last text gives way to a newline, which is counted. -/
def printNewline (buf : ℕ) (charsWritten bufRemaining : UInt64) (m : Memory) : Printed :=
  (.reached (charsWritten + 1) bufRemaining, m.write (buf + charsWritten.toNat) [newline])

/-- What a function returns, `none` where an `assert` has ended the process, the memory, and
    the bytes it has passed to `write` and to `fwrite`. -/
structure Logged where
  retval : Option Int32
  memory : Memory
  toTerm : Option (List UInt8)
  toFile : Option (List UInt8)

def lmEmit (m : LmLogModule) (c : Calls) (buf : ℕ) (p : Printed) : Logged :=
  match p with
  | (.aborted, mem) => ⟨none, mem, none, none⟩
  | (.failed retval, mem) => ⟨some retval, mem, none, none⟩
  | (.reached charsWritten _, mem) =>
      let bytes := mem.read buf charsWritten.toNat
      let toTerm := if m.writeToTerm then some bytes else none
      if m.writeToTerm = true ∧ c.write = false then ⟨some (-c.errno), mem, toTerm, none⟩
      else
        let toFile := if m.writeToFile then some bytes else none
        if m.writeToFile = true ∧ c.fwrite = false then ⟨some (-c.ferror), mem, toTerm, toFile⟩
        else ⟨some 0, mem, toTerm, toFile⟩

/-- `lm__write_log__` from the lock to the unlock; `text` is the message. -/
def lmLine (ndebug : Bool) (m : LmLogModule) (buf : ℕ) (name : List UInt8) (logRaw : Bool)
    (logLevel text : List UInt8) (c : Calls) (mem : Memory) : Logged :=
  let stamped : Printed :=
    if logRaw then (.reached 0 m.bufSize, mem)
    else printStamp ndebug c (lmStamp c name logLevel) buf m.bufSize mem
  let printed := stamped.andThen (printMessage ndebug c text buf)
  let line := if logRaw then printed else printed.andThen (printNewline buf)
  lmEmit m c buf line

def sdbEmit (c : Calls) (buf : ℕ) (p : Printed) : Logged :=
  match p with
  | (.aborted, mem) => ⟨none, mem, none, none⟩
  | (.failed retval, mem) => ⟨some retval, mem, none, none⟩
  | (.reached charsWritten _, mem) =>
      let bytes := mem.read buf charsWritten.toNat
      ⟨some (if c.write = false then -c.errno else 0), mem, some bytes, none⟩

def sdbLine (ndebug : Bool) (m : SdbLogModule) (buf : ℕ) (name logLevel text : List UInt8)
    (c : Calls) (mem : Memory) : Logged :=
  let stamped := printStamp ndebug c (sdbStamp c name logLevel) buf m.bufferSize mem
  let line := (stamped.andThen (printMessage ndebug c text buf)).andThen (printNewline buf)
  sdbEmit c buf line

/-! ### The values returned -/

/-- What a function returns whose body ends so. -/
def Progress.retval : Progress → Option Int32
  | .aborted => none
  | .failed retval => some retval
  | .reached _ _ => some 0

section Returns

variable {ndebug : Bool} {c : Calls} {buf : ℕ} {mem : Memory}

theorem fst_andThen {p : Printed} {next : UInt64 → UInt64 → Memory → Printed}
    {next' : UInt64 → UInt64 → Progress} (h : ∀ w r m, (next w r m).1 = next' w r) :
    (p.andThen next).1 = p.1.andThen next' := by
  obtain ⟨progress, m⟩ := p
  cases progress with
  | reached w r => exact h w r m
  | aborted => rfl
  | failed retval => rfl

variable (s : Stamp) (text : List UInt8) (bufSize : UInt64)

theorem fst_printStamp : (printStamp ndebug c s buf bufSize mem).1 =
    stamp ndebug (c.outcomes s text bufSize) bufSize := by
  simp only [printStamp, apply_ite Prod.fst]
  rfl

theorem fst_printMessage (w r : UInt64) : (printMessage ndebug c text buf w r mem).1 =
    message ndebug (c.outcomes s text bufSize) w r := by
  simp only [printMessage, apply_ite Prod.fst]
  rfl

theorem fst_andThen_printMessage (p : Printed) :
    (p.andThen (printMessage ndebug c text buf)).1 =
      p.1.andThen (message ndebug (c.outcomes s text bufSize)) :=
  fst_andThen fun w r _ => fst_printMessage s text bufSize w r

theorem retval_lmEmit {m : LmLogModule} {p : Printed} : (lmEmit m c buf p).retval =
    (p.1.andThen (lmOutput m (c.outcomes s text bufSize))).retval := by
  obtain ⟨progress, mem⟩ := p
  cases progress with
  | aborted => rfl
  | failed retval => rfl
  | reached w r =>
    simp only [lmEmit, Progress.andThen, lmOutput, apply_ite Logged.retval,
      apply_ite Progress.retval]
    rfl

theorem retval_sdbEmit {p : Printed} : (sdbEmit c buf p).retval =
    (p.1.andThen (sdbOutput (c.outcomes s text bufSize))).retval := by
  obtain ⟨progress, mem⟩ := p
  cases progress with
  | aborted => rfl
  | failed retval => rfl
  | reached w r =>
    simp only [sdbEmit, Progress.andThen, sdbOutput, apply_ite Progress.retval, apply_ite some]
    rfl

/-- The newline changes no value that is returned. -/
theorem retval_andThen_newline {p : Printed} {next : UInt64 → UInt64 → Progress}
    (h : ∀ w r, (next (w + 1) r).retval = (next w r).retval) :
    ((p.andThen (printNewline buf)).1.andThen next).retval = (p.1.andThen next).retval := by
  obtain ⟨progress, mem⟩ := p
  cases progress with
  | aborted => rfl
  | failed retval => rfl
  | reached w r => exact h w r

/-- `lmLine` returns what `lmBody` returns for the values that its calls return. -/
theorem retval_lmLine {m : LmLogModule} {name logLevel : List UInt8} {logRaw : Bool} :
    (lmLine ndebug m buf name logRaw logLevel text c mem).retval =
      (lmBody ndebug m logRaw (c.outcomes (lmStamp c name logLevel) text m.bufSize)).retval := by
  rw [lmLine, retval_lmEmit (lmStamp c name logLevel) text m.bufSize]
  cases logRaw with
  | true =>
    simp only [if_true, fst_andThen_printMessage (lmStamp c name logLevel) text m.bufSize]
    rfl
  | false =>
    simp only [Bool.false_eq_true, if_false]
    rw [retval_andThen_newline,
      fst_andThen_printMessage (lmStamp c name logLevel) text m.bufSize,
      fst_printStamp (lmStamp c name logLevel) text m.bufSize]
    · rfl
    · intro w r
      simp only [lmOutput, apply_ite Progress.retval]
      rfl

theorem retval_sdbLine {m : SdbLogModule} {name logLevel : List UInt8} :
    (sdbLine ndebug m buf name logLevel text c mem).retval =
      (sdbBody ndebug m (c.outcomes (sdbStamp c name logLevel) text m.bufferSize)).retval := by
  rw [sdbLine, retval_sdbEmit (sdbStamp c name logLevel) text m.bufferSize,
    retval_andThen_newline,
    fst_andThen_printMessage (sdbStamp c name logLevel) text m.bufferSize,
    fst_printStamp (sdbStamp c name logLevel) text m.bufferSize]
  · rfl
  · intro w r
    simp only [sdbOutput, apply_ite Progress.retval]
    rfl

end Returns

/-! ### What is claimed -/

/-- The message, or the notice where it does not fit in what remains, between what stands
    before it and the newline. -/
def logLine (stamp text : List UInt8) (bufSize : UInt64) (logRaw : Bool) : List UInt8 :=
  stamp ++ (if text.length < bufSize.toNat - stamp.length then text else droppedNotice) ++
    (if logRaw then [] else [newline])

/-- Nothing outside the buffer is written, no more than the buffer is passed on, and a call
    that succeeds passes the line to the terminal and the file, where the module has them. -/
structure WritesLine (buf : ℕ) (bufSize : UInt64) (mem : Memory) (line : List UInt8)
    (toTerm toFile : Bool) (r : Logged) : Prop where
  inside : SameOutside buf bufSize.toNat mem r.memory
  bounded : ∀ bytes, r.toTerm = some bytes ∨ r.toFile = some bytes → bytes.length ≤ bufSize.toNat
  complete : r.retval = some 0 →
    r.toTerm = (if toTerm then some line else none) ∧
      r.toFile = (if toFile then some line else none)

/-! ### The stages -/

/-- A stage writes inside the buffer only, makes `P` true of what it has reached, and has no
    error that reads as success. -/
structure Stage (buf : ℕ) (size : UInt64) (m₀ : Memory) (P : UInt64 → UInt64 → Memory → Prop)
    (p : Printed) : Prop where
  same : SameOutside buf size.toNat m₀ p.2
  reached : ∀ w r, p.1 = .reached w r → P w r p.2
  failed : ∀ retval, p.1 = .failed retval → retval ≠ 0

section Stages

variable {buf : ℕ} {size : UInt64} {m₀ m : Memory} {P Q : UInt64 → UInt64 → Memory → Prop}
  {bytes text : List UInt8} {w r : UInt64} {ndebug : Bool} {c : Calls}

theorem Stage.andThen {p : Printed} {next : UInt64 → UInt64 → Memory → Printed}
    (hp : Stage buf size m₀ P p)
    (hnext : ∀ w r m, P w r m → Stage buf size m₀ Q (next w r m)) :
    Stage buf size m₀ Q (p.andThen next) := by
  obtain ⟨progress, m⟩ := p
  cases progress with
  | reached w r => exact hnext w r m (hp.reached w r rfl)
  | aborted =>
    refine ⟨hp.same, ?_, ?_⟩
    · intro w r h
      cases h
    · intro retval h
      cases h
  | failed retval =>
    refine ⟨hp.same, ?_, hp.failed⟩
    intro w r h
    cases h

theorem stage_failed {retval : Int32} (hsame : SameOutside buf size.toNat m₀ m)
    (hne : retval ≠ 0) : Stage buf size m₀ P (.failed retval, m) := by
  refine ⟨hsame, ?_, ?_⟩
  · intro w r h
    cases h
  · intro retval' h
    cases h
    exact hne

theorem stage_reached (hsame : SameOutside buf size.toNat m₀ m) (hP : P w r m) :
    Stage buf size m₀ P (.reached w r, m) := by
  refine ⟨hsame, ?_, ?_⟩
  · intro w' r' h
    cases h
    exact hP
  · intro retval h
    cases h

theorem neg_errno_ne (c : Calls) : -c.errno ≠ 0 := Int32.neg_ne_zero.mpr c.errno_ne

/-- An `assert` and the error behind it. -/
theorem stage_assertOr {condition : Bool} (hsame : SameOutside buf size.toNat m₀ m) :
    Stage buf size m₀ P (assertOr ndebug condition (-ENOMEM), m) := by
  have hne : -ENOMEM ≠ 0 := by decide
  rw [assertOr]
  split
  · refine ⟨hsame, ?_, ?_⟩
    · intro w r h
      cases h
    · intro retval h
      cases h
  · exact stage_failed hsame hne

/-- The three ways in which an `snprintf` behind the bytes that are there can end. -/
theorem snprintf_cases (f : Fault) (text : List UInt8) (h : Filled buf size m₀ m bytes w r) :
    f.snprintfRet text < 0 ∨
      (Fits (f.snprintfRet text) r ∧ text.length < r.toNat ∧
        Filled buf size m₀ (f.snprintf text m (buf + w.toNat) r) (bytes ++ text)
          (w + (f.snprintfRet text).toInt64.toUInt64)
          (r - (f.snprintfRet text).toInt64.toUInt64)) ∨
      TooLong (f.snprintfRet text) r ∧ r.toNat ≤ text.length := by
  by_cases hfails : f.Fails text
  · exact .inl (snprintfRet_of_fails hfails)
  · right
    have hnonneg := snprintfRet_nonneg hfails
    have hlen := toNat_snprintfRet hfails
    have hle : r ≤ (f.snprintfRet text).toInt64.toUInt64 ↔ r.toNat ≤ text.length := by
      rw [UInt64.le_iff_toNat_le, hlen]
    rcases Nat.lt_or_ge text.length r.toNat with hfits | hlong
    · left
      have hnul : text.length + [(0 : UInt8)].length ≤ r.toNat := hfits
      have hword : (f.snprintfRet text).toInt64.toUInt64 = UInt64.ofNat text.length := by
        rw [← hlen, UInt64.ofNat_toNat]
      refine ⟨⟨hnonneg, fun hr => Nat.not_le.mpr hfits (hle.mp hr)⟩, hfits, ?_⟩
      rw [snprintf_of_fits hfails hfits, hword]
      exact h.append hnul hfits
    · exact .inr ⟨⟨hnonneg, hle.mpr hlong⟩, hlong⟩

/-- A text whose length is an error if it does not fit. -/
theorem stage_snprintf (f : Fault) (h : Filled buf size m₀ m bytes w r) {condition : Bool} :
    Stage buf size m₀ (fun w r m => Filled buf size m₀ m (bytes ++ text) w r)
      (appended (f.snprintfRet text) c.errno (assertOr ndebug condition (-ENOMEM)) w r,
        f.snprintf text m (buf + w.toNat) r) := by
  have hsame := h.same_snprintf f text
  rcases snprintf_cases f text h with hneg | ⟨hfits, -, hfilled⟩ | ⟨hlong, -⟩
  · rw [appended_of_neg hneg]
    exact stage_failed hsame (neg_errno_ne c)
  · rw [appended_of_fits hfits]
    exact stage_reached hsame hfilled
  · rw [appended_of_tooLong hlong]
    exact stage_assertOr hsame

theorem stage_printStamp (ndebug : Bool) (c : Calls) (s : Stamp) :
    Stage buf size m (fun w r m' => Filled buf size m m' s.text w r)
      (printStamp ndebug c s buf size m) := by
  rw [printStamp]
  split
  · exact stage_failed (.refl _ _ m) (neg_errno_ne c)
  · split
    · exact stage_failed (.refl _ _ m) (neg_errno_ne c)
    · simp only
      split
      case isTrue =>
        apply stage_assertOr
        exact (SameOutside.refl _ _ m).strftime _ _ (Nat.le_refl _) (Nat.le_refl _)
      case isFalse hret => exact stage_snprintf c.name (filled_strftime hret)

theorem stage_printNotice (h : Filled buf size m₀ m bytes w r) :
    Stage buf size m₀ (fun w r m => Filled buf size m₀ m (bytes ++ droppedNotice) w r)
      (printNotice ndebug c buf w r m) := by
  apply stage_snprintf
  apply h.behind
  exact (SameOutside.refl _ _ m).fill (Nat.le_refl _) (Nat.le_refl _)

/-- The message, or the notice in its place. -/
theorem stage_printMessage (ndebug : Bool) (c : Calls) (text : List UInt8) (h : Filled buf size m₀ m bytes w r) :
    Stage buf size m₀ (fun w r m => Filled buf size m₀ m
        (bytes ++ if text.length < size.toNat - bytes.length then text else droppedNotice) w r)
      (printMessage ndebug c text buf w r m) := by
  have hremaining := h.remaining_eq
  have hroom : size.toNat - bytes.length = r.toNat := by omega
  have hsame := h.same_snprintf c.message text
  rw [hroom]
  rcases snprintf_cases c.message text h with hneg | ⟨hfits, hlt, hfilled⟩ | ⟨hlong, hge⟩
  · simp only [printMessage, if_pos hneg]
    exact stage_failed hsame (neg_errno_ne c)
  · simp only [printMessage, if_neg hfits.1, if_neg hfits.2, if_pos hlt]
    exact stage_reached hsame hfilled
  · simp only [printMessage, if_neg hlong.1, if_pos hlong.2, if_neg (Nat.not_lt.mpr hge)]
    apply stage_printNotice
    apply h.behind
    exact (SameOutside.refl _ _ m).snprintf _ _ (Nat.le_refl _) (Nat.le_refl _)

/-- The line is in the buffer, and is counted. -/
structure Complete (buf : ℕ) (size : UInt64) (line : List UInt8) (w : UInt64) (m : Memory) :
    Prop where
  counted : w.toNat = line.length
  length_le : line.length ≤ size.toNat
  contents : m.read buf line.length = line

theorem complete_of_filled (h : Filled buf size m₀ m bytes w r) : Complete buf size bytes w m where
  counted := h.written_eq
  length_le := by
    rw [← h.remaining_eq]
    exact Nat.le_add_right _ _
  contents := h.contents

/-- There is room for one more byte, also when the message has filled the buffer. -/
theorem stage_printNewline (h : Filled buf size m₀ m bytes w r) :
    Stage buf size m₀ (fun w _ m => Complete buf size (bytes ++ [newline]) w m)
      (printNewline buf w r m) := by
  have hwritten := h.written_eq
  have hremaining := h.remaining_eq
  have hroom := h.room
  have hsize := size.toNat_lt
  have hlen : (bytes ++ [newline]).length = bytes.length + 1 := List.length_append
  have hone : (1 : UInt64).toNat = 1 := rfl
  apply stage_reached
  · apply h.same.write (Nat.le_add_right _ _)
    rw [List.length_singleton]
    omega
  · refine ⟨?_, ?_, ?_⟩
    · rw [toNat_add_of_lt (by omega), hlen, hwritten, hone]
    · rw [hlen]
      omega
    · rw [hlen, Memory.read_add, hwritten, Memory.read_write_of_disjoint (.inl (by omega)),
        h.contents, Memory.read_one, Memory.write_single]

end Stages

/-! ### What is passed on -/

section Emitted

variable {buf : ℕ} {bufSize : UInt64} {mem : Memory} {line : List UInt8} {p : Printed} {c : Calls}

/-- A function that stops before its line is complete passes nothing on. -/
theorem writesLine_of_stopped {retval : Option Int32} {m : Memory} {toTerm toFile : Bool}
    (hsame : SameOutside buf bufSize.toNat mem m) (hne : retval ≠ some 0) :
    WritesLine buf bufSize mem line toTerm toFile ⟨retval, m, none, none⟩ := by
  refine ⟨hsame, ?_, fun hzero => absurd hzero hne⟩
  rintro bytes (h | h)
  · cases h
  · cases h

theorem some_ne_zero {retval : Int32} (h : retval ≠ 0) : some retval ≠ some 0 :=
  fun hzero => h (Option.some.inj hzero)

/-- What is read from the buffer for `write` and `fwrite` is the line. -/
theorem Complete.read_eq {w : UInt64} {m : Memory} (h : Complete buf bufSize line w m) :
    m.read buf w.toNat = line := by
  rw [h.counted, h.contents]

theorem writesLine_lmEmit {m : LmLogModule}
    (h : Stage buf bufSize mem (fun w _ m => Complete buf bufSize line w m) p) :
    WritesLine buf bufSize mem line m.writeToTerm m.writeToFile (lmEmit m c buf p) := by
  obtain ⟨progress, mem'⟩ := p
  cases progress with
  | aborted => exact writesLine_of_stopped h.same (Option.some_ne_none 0).symm
  | failed retval => exact writesLine_of_stopped h.same (some_ne_zero (h.failed retval rfl))
  | reached w r =>
    have hcomplete := h.reached w r rfl
    have hbounded : ∀ (b : Bool) bytes, (if b then some line else none) = some bytes →
        bytes.length ≤ bufSize.toNat := by
      intro b bytes hbytes
      cases b with
      | false => cases hbytes
      | true =>
        cases hbytes
        exact hcomplete.length_le
    simp only [lmEmit, hcomplete.read_eq]
    split
    · refine ⟨h.same, ?_, fun hzero => absurd hzero (some_ne_zero (neg_errno_ne c))⟩
      rintro bytes (hterm | hfile)
      · exact hbounded _ bytes hterm
      · cases hfile
    · split
      all_goals
        refine ⟨h.same, ?_, fun _ => ⟨rfl, rfl⟩⟩
        rintro bytes (hterm | hfile)
        · exact hbounded _ bytes hterm
        · exact hbounded _ bytes hfile

theorem writesLine_sdbEmit
    (h : Stage buf bufSize mem (fun w _ m => Complete buf bufSize line w m) p) :
    WritesLine buf bufSize mem line true false (sdbEmit c buf p) := by
  obtain ⟨progress, mem'⟩ := p
  cases progress with
  | aborted => exact writesLine_of_stopped h.same (Option.some_ne_none 0).symm
  | failed retval => exact writesLine_of_stopped h.same (some_ne_zero (h.failed retval rfl))
  | reached w r =>
    have hcomplete := h.reached w r rfl
    simp only [sdbEmit, hcomplete.read_eq]
    refine ⟨h.same, ?_, fun _ => ⟨rfl, rfl⟩⟩
    rintro bytes (hterm | hfile)
    · cases hterm
      exact hcomplete.length_le
    · cases hfile

end Emitted

/-! ### The lines -/

section Lines

variable {buf : ℕ} {logLevel name text : List UInt8} {logRaw ndebug : Bool} {c : Calls}
  {mem : Memory}

/-- A message behind what stands before it, with its newline. -/
theorem stage_line {stamp : List UInt8} {bufSize : UInt64} {stamped : Printed}
    (h : Stage buf bufSize mem (fun w r m => Filled buf bufSize mem m stamp w r) stamped) :
    Stage buf bufSize mem (fun w _ m => Complete buf bufSize (logLine stamp text bufSize false) w m)
      ((stamped.andThen (printMessage ndebug c text buf)).andThen (printNewline buf)) := by
  have hmessage := h.andThen fun _ _ _ hfilled => stage_printMessage ndebug c text hfilled
  exact hmessage.andThen fun _ _ _ hfilled => stage_printNewline hfilled

/-- A raw message is the line. -/
theorem stage_rawLine {bufSize : UInt64} (hsize : 0 < bufSize.toNat) :
    Stage buf bufSize mem (fun w _ m => Complete buf bufSize (logLine [] text bufSize true) w m)
      (printMessage ndebug c text buf 0 bufSize mem) := by
  have hempty : Filled buf bufSize mem mem [] 0 bufSize := Filled.empty mem hsize
  have hmessage := stage_printMessage ndebug c text hempty
  refine ⟨hmessage.same, ?_, hmessage.failed⟩
  intro w r hreached
  have hcomplete := complete_of_filled (hmessage.reached w r hreached)
  rw [logLine, if_pos rfl, List.append_nil]
  exact hcomplete

theorem writesLine_lmLine {m : LmLogModule} (hsize : 128 ≤ m.bufSize.toNat) :
    WritesLine buf m.bufSize mem
      (logLine (if logRaw then [] else (lmStamp c name logLevel).text) text m.bufSize logRaw)
      m.writeToTerm m.writeToFile (lmLine ndebug m buf name logRaw logLevel text c mem) := by
  apply writesLine_lmEmit
  cases logRaw with
  | true => exact stage_rawLine (by omega)
  | false => exact stage_line (stage_printStamp ndebug c _)

theorem writesLine_sdbLine {m : SdbLogModule} :
    WritesLine buf m.bufferSize mem
      (logLine (sdbStamp c name logLevel).text text m.bufferSize false) true false
      (sdbLine ndebug m buf name logLevel text c mem) :=
  writesLine_sdbEmit (stage_line (stage_printStamp ndebug c _))

/-- **A log line stays in its buffer**, and is what it should be when the call succeeds. -/
theorem log_line_in_buffer (ndebug : Bool) (lm : LmLogModule) (sdb : SdbLogModule)
    (hlm : 128 ≤ lm.bufSize.toNat) (buf : ℕ) (name logLevel text : List UInt8) (logRaw : Bool)
    (c : Calls) (mem : Memory) :
    WritesLine buf lm.bufSize mem
        (logLine (if logRaw then [] else (lmStamp c name logLevel).text) text lm.bufSize logRaw)
        lm.writeToTerm lm.writeToFile (lmLine ndebug lm buf name logRaw logLevel text c mem) ∧
      WritesLine buf sdb.bufferSize mem
        (logLine (sdbStamp c name logLevel).text text sdb.bufferSize false) true false
        (sdbLine ndebug sdb buf name logLevel text c mem) :=
  ⟨writesLine_lmLine hlm, writesLine_sdbLine⟩

end Lines

/-- No call fails, at half past twelve. -/
def quietCalls : Calls where
  time := true
  localtime := true
  clock := ascii "12:30:00"
  strftimeJunk := []
  name := ⟨false, -1, by decide, []⟩
  message := ⟨false, -1, by decide, []⟩
  notice := ⟨false, -1, by decide, []⟩
  write := true
  fwrite := true
  errno := 5
  errno_ne := by decide
  ferror := 1

def smallModule : LmLogModule where
  lock := ⟨false, []⟩
  writeToTerm := true
  writeToFile := false
  file := none
  bufSize := 128

/-- A message of 109 bytes fills a buffer of 128 exactly, with its newline. -/
theorem log_line_full :
    (lmLine false smallModule 4096 (ascii "m") false (ascii "ERR") (List.replicate 109 65)
      quietCalls (fun _ => 0)).toTerm =
    some (ascii "12:30:00::m::ERR: " ++ List.replicate 109 65 ++ [newline]) := by
  have hwrites := (log_line_in_buffer false smallModule ⟨⟨false, []⟩, 128⟩ (by decide) 4096
    (ascii "m") (ascii "ERR") (List.replicate 109 65) false quietCalls (fun _ => 0)).1
  have hsuccess : (lmLine false smallModule 4096 (ascii "m") false (ascii "ERR")
      (List.replicate 109 65) quietCalls (fun _ => 0)).retval = some 0 := by decide +kernel
  have hline : logLine (lmStamp quietCalls (ascii "m") (ascii "ERR")).text
      (List.replicate 109 65) smallModule.bufSize false =
      ascii "12:30:00::m::ERR: " ++ List.replicate 109 65 ++ [newline] := by decide +kernel
  rw [← hline]
  exact (hwrites.complete hsuccess).1

end Lmalloc.Logging
