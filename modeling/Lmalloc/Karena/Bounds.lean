/-
  Lmalloc/Karena/Bounds.lean
  ==========================
  **The bounds of the kernel arenas.**

  Seven commands work on the cursor of a live arena.  An `ArenaLog` is the module
  state together with everything it has promised so far: the blocks of ALLOC,
  the answers of RESERVE and the children of BOOTSTRAP.  All promises are kept,
  and no cursor passes the size of its arena, as long as no SEEK goes past the
  size and no sum that is handed to the user wraps.
-/
import Lmalloc.Karena.System
import Lmalloc.Library.Word

namespace Lmalloc.Karena

open Lmalloc.Library Lmalloc.Library.Word

/-! ### The log -/

inductive ArenaOp where
  | alloc | seek | pop | reserve | bootstrap | pos | size
deriving DecidableEq, Repr

def ArenaOp.cmd : ArenaOp → Cmd
  | .alloc => .alloc
  | .seek => .seek
  | .pop => .pop
  | .reserve => .reserve
  | .bootstrap => .bootstrap
  | .pos => .pos
  | .size => .size

/-- One ioctl of a process on the arena in `slot`. -/
structure ArenaCall where
  op : ArenaOp
  pid : Pid
  slot : Slot
  size : UInt64
  env : Env

def ArenaCall.data (c : ArenaCall) : KaData := ⟨c.size, slotIndex c.slot⟩

/-- An address returned by a successful ALLOC of `size` bytes. -/
structure Grant where
  slot : Slot
  addr : UInt64
  size : UInt64

structure Reservation where
  asked : UInt64
  got : UInt64

structure Child where
  parent : Slot
  child : Slot

structure ArenaLog where
  kernel : Kernel
  granted : List Grant
  reserved : List Reservation
  children : List Child

def ArenaLog.start (k : Kernel) : ArenaLog := ⟨k, [], [], []⟩

/-- The slot a BOOTSTRAP fills.  The handler writes its index into `ka_data`;
    the child exists even when the copy back to the user fails. -/
def newChild (k : Kernel) (c : ArenaCall) : Option Slot :=
  let r := handleArenaBootstrap k c.slot c.data
  if c.env.copyFromUser = true ∧ r.1 = 0 then slot? r.2.2.arena else none

def ArenaLog.record (s : ArenaLog) (c : ArenaCall) (k : Kernel) (out : Option KaData) : ArenaLog where
  kernel := k
  granted := s.granted ++
    if c.op = .alloc then out.toList.map fun d => ⟨c.slot, d.arena, c.size⟩ else []
  reserved := s.reserved ++
    if c.op = .reserve then out.toList.map fun d => ⟨c.size, d.size⟩ else []
  children := s.children ++
    if c.op = .bootstrap then (newChild s.kernel c).toList.map fun j => ⟨c.slot, j⟩ else []

/-- One ioctl on a live arena. -/
def ArenaLog.step (s : ArenaLog) (c : ArenaCall) : Option ArenaLog :=
  if (s.kernel.karenas c.slot).uaddr = 0 then none
  else
    (karenaIoctl s.kernel c.pid c.op.cmd c.data c.env).map fun r => s.record c r.2.1 r.2.2

/-- The bytes `[addr, addr + size)` lie inside the arena. -/
def KArena.Holds (a : KArena) (addr size : UInt64) : Prop :=
  a.uaddr.toNat ≤ addr.toNat ∧ addr.toNat + size.toNat ≤ a.uaddr.toNat + a.size.toNat

/-- The cursor of every live arena is within its size. -/
def CursorsIn (k : Kernel) : Prop :=
  ∀ i, (k.karenas i).uaddr ≠ 0 → (k.karenas i).cur ≤ (k.karenas i).size

structure ArenaLog.Sound (s : ArenaLog) : Prop where
  cursors : CursorsIn s.kernel
  granted : ∀ g ∈ s.granted, (s.kernel.karenas g.slot).Holds g.addr g.size
  reserved : ∀ r ∈ s.reserved, r.got ≤ r.asked
  children : ∀ c ∈ s.children, (s.kernel.karenas c.parent).Holds
    (s.kernel.karenas c.child).uaddr (s.kernel.karenas c.child).size

/-- A SEEK stays within the size.  An ALLOC that passes its test and reaches the
    user computes neither `cur + size` nor `uaddr + cur` with a wrap, and a
    BOOTSTRAP that finds a slot computes `uaddr + cur` without one. -/
def ArenaLog.InBounds (s : ArenaLog) (c : ArenaCall) : Prop :=
  let a := s.kernel.karenas c.slot
  a.uaddr ≠ 0 → c.env.copyFromUser = true →
    match c.op with
    | .seek => c.size ≤ a.size
    | .alloc => c.env.copyToUser = true → a.cur + c.size ≤ a.size →
        a.cur.toNat + c.size.toNat < 2 ^ 64 ∧ a.uaddr.toNat + a.cur.toNat < 2 ^ 64
    | .bootstrap => c.size ≤ a.size - a.cur → openSlot s.kernel.karenas ≠ none →
        a.uaddr.toNat + a.cur.toNat < 2 ^ 64
    | .pop | .reserve | .pos | .size => True

/-! ### The handlers on one arena -/

/-- The arena is still where it was and as large as it was. -/
structure KArena.SameRange (a a' : KArena) : Prop where
  uaddr_eq : a'.uaddr = a.uaddr
  size_eq : a'.size = a.size

theorem KArena.SameRange.refl (a : KArena) : a.SameRange a := ⟨rfl, rfl⟩

theorem KArena.SameRange.holds {a a' : KArena} (h : a.SameRange a') {addr size : UInt64} :
    a'.Holds addr size ↔ a.Holds addr size := by
  simp only [KArena.Holds, h.uaddr_eq, h.size_eq]

/-- No command on the cursor moves or resizes the arena. -/
theorem sameRange_slotHandler {cmd : Cmd} {handler : KArena → KaData → Int × KArena × KaData}
    (h : slotHandler cmd = some handler) (a : KArena) (d : KaData) :
    a.SameRange (handler a d).2.1 := by
  obtain ⟨c, hc⟩ := slotHandler_cur h a d
  rw [hc]
  exact ⟨rfl, rfl⟩

/-- ALLOC succeeds exactly when its test passes, and then answers with the byte
    at the cursor. -/
theorem handleArenaAlloc_fits {a : KArena} {d : KaData} (h : (handleArenaAlloc a d).1 = 0) :
    a.cur + d.size ≤ a.size ∧ (handleArenaAlloc a d).2.2.arena = a.uaddr + a.cur := by
  by_cases hfit : a.cur + d.size ≤ a.size
  · exact ⟨hfit, by simp only [handleArenaAlloc, if_pos hfit]⟩
  · simp only [handleArenaAlloc, if_neg hfit] at h
    exact absurd h (by decide)

section Cursor

variable {a : KArena}

/-- The test passes only when the cursor it leaves is within the size, also when
    the sum wraps. -/
theorem cur_handleArenaAlloc (hcur : a.cur ≤ a.size) (d : KaData) :
    (handleArenaAlloc a d).2.1.cur ≤ a.size := by
  simp only [handleArenaAlloc]
  split
  · assumption
  · exact hcur

theorem cur_handleArenaReserve (hcur : a.cur ≤ a.size) (d : KaData) :
    (handleArenaReserve a d).2.1.cur ≤ a.size := by
  simp only [handleArenaReserve]
  split
  · exact hcur
  · exact UInt64.not_lt.mp ‹_›

theorem cur_handleArenaPop (hcur : a.cur ≤ a.size) (d : KaData) :
    (handleArenaPop a d).2.1.cur ≤ a.size := by
  simp only [handleArenaPop]
  split
  · exact hcur
  · have hle : d.size ≤ a.cur := UInt64.not_lt.mp ‹_›
    exact UInt64.le_trans (UInt64.sub_le hle) hcur

/-- A reserve that does not fit returns the rest, which is less than was asked
    for; the sum in the test cannot have wrapped there. -/
theorem handleArenaReserve_le (hcur : a.cur ≤ a.size) (d : KaData) :
    (handleArenaReserve a d).2.2.size ≤ d.size := by
  simp only [handleArenaReserve]
  split
  · have hlt : a.size < a.cur + d.size := ‹_›
    have hsub : (a.size - a.cur).toNat = a.size.toNat - a.cur.toNat :=
      toNat_sub_of_le (UInt64.le_iff_toNat_le.mp hcur)
    have hnowrap : a.cur.toNat + d.size.toNat < 2 ^ 64 := by
      by_contra hwrap
      exact UInt64.not_le.mpr hlt (add_le_of_wraps hcur (Nat.le_of_not_lt hwrap))
    rw [UInt64.lt_iff_toNat_lt, toNat_add_of_lt hnowrap] at hlt
    rw [UInt64.le_iff_toNat_le, hsub]
    omega
  · exact UInt64.le_refl _

end Cursor

/-! ### The handlers on the table -/

/-- Every live arena is still where it was and as large as it was. -/
def SameRanges (k k' : Kernel) : Prop :=
  ∀ i, (k.karenas i).uaddr ≠ 0 → (k.karenas i).SameRange (k'.karenas i)

theorem SameRanges.refl (k : Kernel) : SameRanges k k := fun _ _ => KArena.SameRange.refl _

theorem sameRanges_setSlot {k : Kernel} {i : Slot} {a : KArena}
    (h : (k.karenas i).uaddr ≠ 0 → (k.karenas i).SameRange a) : SameRanges k (k.setSlot i a) := by
  intro j hj
  by_cases hij : j = i
  · subst hij
    rw [karenas_setSlot_same]
    exact h hj
  · rw [karenas_setSlot_other _ _ hij]
    exact KArena.SameRange.refl _

theorem cursorsIn_setSlot {k : Kernel} (hk : CursorsIn k) {i : Slot} {a : KArena}
    (ha : a.uaddr ≠ 0 → a.cur ≤ a.size) : CursorsIn (k.setSlot i a) := by
  intro j hj
  by_cases hij : j = i
  · subst hij
    rw [karenas_setSlot_same] at hj ⊢
    exact ha hj
  · rw [karenas_setSlot_other _ _ hij] at hj ⊢
    exact hk j hj

/-- What the user reads back comes from a handler that succeeded. -/
theorem answer_copyBack {cmd : Cmd} {env : Env} {r : Int × Kernel × KaData} {d : KaData}
    (h : (copyBack cmd env r).2.2 = some d) : r.1 = 0 ∧ env.copyToUser = true ∧ d = r.2.2 := by
  simp only [copyBack] at h
  split at h
  · cases h
  · rename_i hret
    split at h
    · split at h
      · cases h
        exact ⟨not_not.mp hret, by assumption, rfl⟩
      · cases h
    · cases h

section Bootstrap

variable {k : Kernel} {i j : Slot} {size : UInt64}

theorem cursorsIn_claim (hk : CursorsIn k) (hi : (k.karenas i).uaddr ≠ 0)
    (hroom : size ≤ (k.karenas i).size - (k.karenas i).cur) : CursorsIn (k.claim i size) := by
  apply cursorsIn_setSlot hk
  intro _
  have hcur : (k.karenas i).cur.toNat ≤ (k.karenas i).size.toNat :=
    UInt64.le_iff_toNat_le.mp (hk i hi)
  have hsize : (k.karenas i).size.toNat < 2 ^ 64 := (k.karenas i).size.toNat_lt
  rw [UInt64.le_iff_toNat_le, toNat_sub_of_le hcur] at hroom
  have hsum : (k.karenas i).cur.toNat + size.toNat < 2 ^ 64 := by omega
  show (k.karenas i).cur + size ≤ (k.karenas i).size
  rw [UInt64.le_iff_toNat_le, toNat_add_of_lt hsum]
  omega

theorem sameRanges_claim : SameRanges k (k.claim i size) :=
  sameRanges_setSlot fun _ => ⟨rfl, rfl⟩

theorem sameRanges_bootstrapped (hj : openSlot k.karenas = some j) :
    SameRanges k (k.bootstrapped i size j) := by
  intro m hm
  have hne : m ≠ j := by
    rintro rfl
    exact hm (uaddr_of_openSlot hj)
  simp only [Kernel.bootstrapped]
  rw [karenas_setSlot_other _ _ hne]
  exact sameRanges_claim m hm

theorem cursorsIn_bootstrapped (hk : CursorsIn k) (hi : (k.karenas i).uaddr ≠ 0)
    (hroom : size ≤ (k.karenas i).size - (k.karenas i).cur) :
    CursorsIn (k.bootstrapped i size j) :=
  cursorsIn_setSlot (cursorsIn_claim hk hi hroom) fun _ => UInt64.zero_le

end Bootstrap

/-- **What one command does to the table.**  Live arenas keep their place, and
    with a SEEK within the size their cursors stay within theirs. -/
theorem ranges_and_cursors {s : ArenaLog} {c : ArenaCall} {r : Int × Kernel × Option KaData}
    (hk : CursorsIn s.kernel) (hlive : (s.kernel.karenas c.slot).uaddr ≠ 0)
    (hin : s.InBounds c)
    (hcall : karenaIoctl s.kernel c.pid c.op.cmd c.data c.env = some r) :
    SameRanges s.kernel r.2.1 ∧ CursorsIn r.2.1 := by
  obtain ⟨k, _, _, _⟩ := s
  obtain ⟨op, pid, i, size, env⟩ := c
  replace hlive : (k.karenas i).uaddr ≠ 0 := hlive
  replace hk : CursorsIn k := hk
  have hcur := hk i hlive
  rcases hcopy : env.copyFromUser with _ | _
  · rw [karenaIoctl_noCopy _ hcopy] at hcall
    cases hcall
    exact ⟨SameRanges.refl k, hk⟩
  -- a command on the cursor writes the addressed slot only
  have hslot : ∀ handler, slotHandler op.cmd = some handler →
      (handler (k.karenas i) ⟨size, slotIndex i⟩).2.1.cur ≤ (k.karenas i).size →
      SameRanges k r.2.1 ∧ CursorsIn r.2.1 := by
    intro handler hcmd hle
    have hsame := sameRange_slotHandler hcmd (k.karenas i) ⟨size, slotIndex i⟩
    rw [karenaIoctl_onSlot hcmd hcopy] at hcall
    simp only [ArenaCall.data, slot?_slotIndex, Option.map_some, Option.some.injEq] at hcall
    rw [← hcall, state_copyBack]
    refine ⟨sameRanges_setSlot fun _ => hsame, cursorsIn_setSlot hk fun _ => ?_⟩
    rw [hsame.size_eq]
    exact hle
  cases op with
  | alloc => exact hslot _ rfl (cur_handleArenaAlloc hcur _)
  | reserve => exact hslot _ rfl (cur_handleArenaReserve hcur _)
  | pop => exact hslot _ rfl (cur_handleArenaPop hcur _)
  | seek => exact hslot _ rfl (hin hlive hcopy)
  | pos => exact hslot _ rfl hcur
  | size => exact hslot _ rfl hcur
  | bootstrap =>
    replace hcall := (karenaIoctl_bootstrap hcopy).symm.trans hcall
    simp only [ArenaCall.data, slot?_slotIndex, Option.map_some, Option.some.injEq] at hcall
    rw [← hcall, state_copyBack]
    rcases handleArenaBootstrap_cases k i ⟨size, slotIndex i⟩ with
      ⟨_, heq⟩ | ⟨hroom, _, heq⟩ | ⟨j, hroom, hopen, heq⟩
    · rw [heq]
      exact ⟨SameRanges.refl k, hk⟩
    · rw [heq]
      exact ⟨sameRanges_claim, cursorsIn_claim hk hlive hroom⟩
    · rw [heq]
      exact ⟨sameRanges_bootstrapped hopen, cursorsIn_bootstrapped hk hlive hroom⟩

/-! ### What one command promises -/

section Promises

variable {s : ArenaLog} {c : ArenaCall} {r : Int × Kernel × Option KaData}

/-- A call that answers has read the user's data and written its answer back. -/
theorem copies_of_answer {d : KaData}
    (hcall : karenaIoctl s.kernel c.pid c.op.cmd c.data c.env = some r) (hd : r.2.2 = some d) :
    c.env.copyFromUser = true := by
  by_contra hcopy
  rw [karenaIoctl_noCopy _ (Bool.eq_false_of_not_eq_true hcopy), Option.some.injEq] at hcall
  rw [← hcall] at hd
  cases hd

/-- The answer of a command on the cursor is what its handler wrote. -/
theorem answer_slotHandler {handler : KArena → KaData → Int × KArena × KaData} {d : KaData}
    (hcmd : slotHandler c.op.cmd = some handler)
    (hcall : karenaIoctl s.kernel c.pid c.op.cmd c.data c.env = some r) (hd : r.2.2 = some d) :
    (handler (s.kernel.karenas c.slot) c.data).1 = 0 ∧ c.env.copyToUser = true ∧
      d = (handler (s.kernel.karenas c.slot) c.data).2.2 := by
  rw [karenaIoctl_onSlot hcmd (copies_of_answer hcall hd)] at hcall
  simp only [ArenaCall.data, slot?_slotIndex, Option.map_some, Option.some.injEq] at hcall
  rw [← hcall] at hd
  exact answer_copyBack hd

/-- **A block ALLOC hands out lies inside the arena.** -/
theorem holds_alloc {d : KaData} (hop : c.op = .alloc)
    (hlive : (s.kernel.karenas c.slot).uaddr ≠ 0) (hin : s.InBounds c)
    (hcall : karenaIoctl s.kernel c.pid c.op.cmd c.data c.env = some r) (hd : r.2.2 = some d) :
    (s.kernel.karenas c.slot).Holds d.arena c.size := by
  have hcmd : slotHandler c.op.cmd = some handleArenaAlloc := by rw [hop]; rfl
  obtain ⟨hret, hto, rfl⟩ := answer_slotHandler hcmd hcall hd
  simp only [ArenaLog.InBounds, hop] at hin
  replace hin := hin hlive (copies_of_answer hcall hd) hto
  obtain ⟨hfit, haddr⟩ := handleArenaAlloc_fits hret
  obtain ⟨hsum, hplace⟩ := hin hfit
  replace hfit := (add_le_iff_of_lt hsum).mp hfit
  rw [haddr, KArena.Holds, toNat_add_of_lt hplace]
  constructor
  · exact Nat.le_add_right _ _
  · omega

/-- RESERVE never returns more than it was asked for. -/
theorem le_reserve {d : KaData} (hop : c.op = .reserve) (hk : CursorsIn s.kernel)
    (hlive : (s.kernel.karenas c.slot).uaddr ≠ 0)
    (hcall : karenaIoctl s.kernel c.pid c.op.cmd c.data c.env = some r) (hd : r.2.2 = some d) :
    d.size ≤ c.size := by
  have hcmd : slotHandler c.op.cmd = some handleArenaReserve := by rw [hop]; rfl
  obtain ⟨_, _, rfl⟩ := answer_slotHandler hcmd hcall hd
  exact handleArenaReserve_le (hk _ hlive) c.data

/-- The child a BOOTSTRAP has put into slot `j`. -/
theorem newChild_eq_some {k : Kernel} {j : Slot} (h : newChild k c = some j) :
    c.env.copyFromUser = true ∧ c.size ≤ (k.karenas c.slot).size - (k.karenas c.slot).cur ∧
      openSlot k.karenas = some j ∧
      (handleArenaBootstrap k c.slot c.data).2.1 = k.bootstrapped c.slot c.size j := by
  simp only [newChild] at h
  split at h
  · rename_i hok
    rcases handleArenaBootstrap_cases k c.slot c.data with
      ⟨_, heq⟩ | ⟨_, _, heq⟩ | ⟨m, hroom, hopen, heq⟩
    · rw [heq] at hok
      exact absurd hok.2 (show -eFAULT ≠ 0 by decide)
    · rw [heq] at hok
      exact absurd hok.2 (show -eFAULT ≠ 0 by decide)
    · rw [heq, slot?_slotIndex, Option.some.injEq] at h
      subst h
      exact ⟨hok.1, hroom, hopen, congrArg (fun r => r.2.1) heq⟩
  · cases h

end Promises

/-! ### One step -/

theorem step_eq_some {s s' : ArenaLog} {c : ArenaCall} (h : s.step c = some s') :
    (s.kernel.karenas c.slot).uaddr ≠ 0 ∧ ∃ r,
      karenaIoctl s.kernel c.pid c.op.cmd c.data c.env = some r ∧ s' = s.record c r.2.1 r.2.2 := by
  simp only [ArenaLog.step] at h
  split at h
  · cases h
  · obtain ⟨r, hcall, rfl⟩ := Option.map_eq_some_iff.mp h
    exact ⟨by assumption, r, hcall, rfl⟩

section Record

variable {s : ArenaLog} {c : ArenaCall} {k : Kernel} {out : Option KaData}

theorem mem_granted {g : Grant} : g ∈ (s.record c k out).granted ↔
    g ∈ s.granted ∨ c.op = .alloc ∧ ∃ d, out = some d ∧ g = ⟨c.slot, d.arena, c.size⟩ := by
  by_cases hop : c.op = .alloc
  · cases out with
    | none => simp [ArenaLog.record]
    | some d => simp [ArenaLog.record, hop]
  · simp [ArenaLog.record, hop]

theorem mem_reserved {p : Reservation} : p ∈ (s.record c k out).reserved ↔
    p ∈ s.reserved ∨ c.op = .reserve ∧ ∃ d, out = some d ∧ p = ⟨c.size, d.size⟩ := by
  by_cases hop : c.op = .reserve
  · cases out with
    | none => simp [ArenaLog.record]
    | some d => simp [ArenaLog.record, hop]
  · simp [ArenaLog.record, hop]

theorem mem_children {p : Child} : p ∈ (s.record c k out).children ↔
    p ∈ s.children ∨ c.op = .bootstrap ∧ ∃ j, newChild s.kernel c = some j ∧ p = ⟨c.slot, j⟩ := by
  by_cases hop : c.op = .bootstrap
  · rcases hj : newChild s.kernel c with _ | j
    · simp [ArenaLog.record, hj]
    · simp [ArenaLog.record, hop, hj]
  · simp [ArenaLog.record, hop]

end Record

/-- The promises are kept, and they are about live arenas: a slot that is live
    is not given away again. -/
structure ArenaLog.Kept (s : ArenaLog) : Prop where
  sound : s.Sound
  granted_live : ∀ g ∈ s.granted, (s.kernel.karenas g.slot).uaddr ≠ 0
  parent_live : ∀ c ∈ s.children, (s.kernel.karenas c.parent).uaddr ≠ 0
  child_live : ∀ c ∈ s.children, (s.kernel.karenas c.child).uaddr ≠ 0

/-- The table after a BOOTSTRAP that has found slot `j`. -/
theorem karenas_newChild {s : ArenaLog} {c : ArenaCall} {r : Int × Kernel × Option KaData}
    {j : Slot} (hop : c.op = .bootstrap)
    (hcall : karenaIoctl s.kernel c.pid c.op.cmd c.data c.env = some r)
    (hj : newChild s.kernel c = some j) :
    r.2.1 = s.kernel.bootstrapped c.slot c.size j := by
  obtain ⟨hcopy, _, _, hstate⟩ := newChild_eq_some hj
  rw [hop] at hcall
  replace hcall := (karenaIoctl_bootstrap hcopy).symm.trans hcall
  simp only [ArenaCall.data, slot?_slotIndex, Option.map_some, Option.some.injEq] at hcall
  rw [← hcall, state_copyBack]
  exact hstate

/-- The child of a BOOTSTRAP in bounds is live, and its range lies in its parent's. -/
theorem holds_newChild {s : ArenaLog} {c : ArenaCall} {r : Int × Kernel × Option KaData} {j : Slot}
    (hop : c.op = .bootstrap) (hlive : (s.kernel.karenas c.slot).uaddr ≠ 0) (hin : s.InBounds c)
    (hcursors : CursorsIn s.kernel)
    (hcall : karenaIoctl s.kernel c.pid c.op.cmd c.data c.env = some r)
    (hj : newChild s.kernel c = some j) :
    (r.2.1.karenas j).uaddr ≠ 0 ∧
      (s.kernel.karenas c.slot).Holds (r.2.1.karenas j).uaddr (r.2.1.karenas j).size := by
  obtain ⟨hcopy, hroom, hopen, _⟩ := newChild_eq_some hj
  have hplace : (s.kernel.karenas c.slot).uaddr.toNat + (s.kernel.karenas c.slot).cur.toNat <
      2 ^ 64 := by
    simp only [ArenaLog.InBounds, hop] at hin
    exact hin hlive hcopy hroom (by simp [hopen])
  have hcur := UInt64.le_iff_toNat_le.mp (hcursors _ hlive)
  rw [UInt64.le_iff_toNat_le, toNat_sub_of_le hcur] at hroom
  have hpos : (s.kernel.karenas c.slot).uaddr.toNat ≠ 0 :=
    fun hzero => hlive (UInt64.toNat_inj.mp hzero)
  rw [karenas_newChild hop hcall hj]
  simp only [Kernel.bootstrapped, karenas_setSlot_same]
  constructor
  · intro hzero
    have hsum := congrArg UInt64.toNat hzero
    rw [toNat_add_of_lt hplace, UInt64.toNat_zero] at hsum
    exact hpos (Nat.eq_zero_of_add_eq_zero_right hsum)
  · rw [KArena.Holds, toNat_add_of_lt hplace]
    constructor
    · exact Nat.le_add_right _ _
    · omega

theorem kept_step (s : ArenaLog) (c : ArenaCall) (s' : ArenaLog) (h : s.Kept) (hin : s.InBounds c)
    (hs : s.step c = some s') : s'.Kept := by
  obtain ⟨hlive, r, hcall, rfl⟩ := step_eq_some hs
  obtain ⟨hsame, hcursors⟩ := ranges_and_cursors h.sound.cursors hlive hin hcall
  have hstill : ∀ i, (s.kernel.karenas i).uaddr ≠ 0 → (r.2.1.karenas i).uaddr ≠ 0 := by
    intro i hi
    rw [(hsame i hi).uaddr_eq]
    exact hi
  refine ⟨⟨hcursors, ?_, ?_, ?_⟩, ?_, ?_, ?_⟩
  · intro g hg
    rcases mem_granted.mp hg with hold | ⟨hop, d, hd, rfl⟩
    · exact (hsame _ (h.granted_live g hold)).holds.mpr (h.sound.granted g hold)
    · exact (hsame _ hlive).holds.mpr (holds_alloc hop hlive hin hcall hd)
  · intro p hp
    rcases mem_reserved.mp hp with hold | ⟨hop, d, hd, rfl⟩
    · exact h.sound.reserved p hold
    · exact le_reserve hop h.sound.cursors hlive hcall hd
  · intro p hp
    rcases mem_children.mp hp with hold | ⟨hop, j, hj, rfl⟩
    · have hc := hsame _ (h.child_live p hold)
      show (r.2.1.karenas p.parent).Holds (r.2.1.karenas p.child).uaddr (r.2.1.karenas p.child).size
      rw [hc.uaddr_eq, hc.size_eq]
      exact (hsame _ (h.parent_live p hold)).holds.mpr (h.sound.children p hold)
    · exact (hsame _ hlive).holds.mpr
        (holds_newChild hop hlive hin h.sound.cursors hcall hj).2
  · intro g hg
    rcases mem_granted.mp hg with hold | ⟨_, d, _, rfl⟩
    · exact hstill _ (h.granted_live g hold)
    · exact hstill _ hlive
  · intro p hp
    rcases mem_children.mp hp with hold | ⟨_, j, _, rfl⟩
    · exact hstill _ (h.parent_live p hold)
    · exact hstill _ hlive
  · intro p hp
    rcases mem_children.mp hp with hold | ⟨hop, j, hj, rfl⟩
    · exact hstill _ (h.child_live p hold)
    · exact (holds_newChild hop hlive hin h.sound.cursors hcall hj).1

section Broken

variable {s : ArenaLog} {pid : Pid} {i : Slot} {size : UInt64} {env : Env}

/-- A call to a live arena is recorded with what it returns. -/
theorem step_of_live {c : ArenaCall} (hlive : (s.kernel.karenas c.slot).uaddr ≠ 0)
    {r : Int × Kernel × Option KaData}
    (hcall : karenaIoctl s.kernel c.pid c.op.cmd c.data c.env = some r) :
    s.step c = some (s.record c r.2.1 r.2.2) := by
  simp only [ArenaLog.step, if_neg hlive, hcall, Option.map_some]

/-- A SEEK takes the cursor wherever it is told to. -/
theorem seek_breaks (hlive : (s.kernel.karenas i).uaddr ≠ 0) (hcopy : env.copyFromUser = true)
    (hpast : ¬ size ≤ (s.kernel.karenas i).size) :
    ∃ s', s.step ⟨.seek, pid, i, size, env⟩ = some s' ∧ ¬ s'.Sound := by
  have hcall := @karenaIoctl_onSlot s.kernel pid .seek ⟨size, slotIndex i⟩ env _ rfl hcopy
  rw [slot?_slotIndex, Option.map_some] at hcall
  refine ⟨_, step_of_live hlive hcall, ?_⟩
  intro hsound
  have hcur := hsound.cursors i
  simp only [ArenaLog.record, state_copyBack, onSlot, handleArenaSeek, karenas_setSlot_same] at hcur
  exact hpast (hcur hlive)

/-- A sum that wraps passes the test of the capacity, and the block lies outside. -/
theorem alloc_breaks (hlive : (s.kernel.karenas i).uaddr ≠ 0) (hcopy : env.copyFromUser = true)
    (hto : env.copyToUser = true)
    (hfit : (s.kernel.karenas i).cur + size ≤ (s.kernel.karenas i).size)
    (hwrap : ¬ ((s.kernel.karenas i).cur.toNat + size.toNat < 2 ^ 64 ∧
      (s.kernel.karenas i).uaddr.toNat + (s.kernel.karenas i).cur.toNat < 2 ^ 64)) :
    ∃ s', s.step ⟨.alloc, pid, i, size, env⟩ = some s' ∧ ¬ s'.Sound := by
  have hcall : karenaIoctl s.kernel pid .alloc ⟨size, slotIndex i⟩ env =
      some (0, s.kernel.setSlot i
          { s.kernel.karenas i with cur := (s.kernel.karenas i).cur + size },
        some ⟨size, (s.kernel.karenas i).uaddr + (s.kernel.karenas i).cur⟩) := by
    rw [karenaIoctl_onSlot rfl hcopy, slot?_slotIndex, Option.map_some]
    simp [onSlot, handleArenaAlloc, hfit, copyBack, hto]
  refine ⟨_, step_of_live hlive hcall, ?_⟩
  intro hsound
  have hin := hsound.granted
    ⟨i, (s.kernel.karenas i).uaddr + (s.kernel.karenas i).cur, size⟩
    (mem_granted.mpr (Or.inr ⟨rfl, _, rfl, rfl⟩))
  simp only [ArenaLog.record, karenas_setSlot_same, KArena.Holds, UInt64.toNat_add] at hin
  have hsize := (s.kernel.karenas i).size.toNat_lt
  have huaddr := (s.kernel.karenas i).uaddr.toNat_lt
  have hcur := (s.kernel.karenas i).cur.toNat_lt
  omega

/-- The child of an arena whose cursor is behind the last address starts in front of it. -/
theorem bootstrap_breaks (hlive : (s.kernel.karenas i).uaddr ≠ 0) (hcopy : env.copyFromUser = true)
    (hroom : size ≤ (s.kernel.karenas i).size - (s.kernel.karenas i).cur)
    (hopen : openSlot s.kernel.karenas ≠ none)
    (hwrap : ¬ (s.kernel.karenas i).uaddr.toNat + (s.kernel.karenas i).cur.toNat < 2 ^ 64) :
    ∃ s', s.step ⟨.bootstrap, pid, i, size, env⟩ = some s' ∧ ¬ s'.Sound := by
  obtain ⟨j, hj⟩ := Option.ne_none_iff_exists'.mp hopen
  have hhandler : handleArenaBootstrap s.kernel i ⟨size, slotIndex i⟩ =
      (0, s.kernel.bootstrapped i size j, ⟨size, slotIndex j⟩) :=
    handleArenaBootstrap_ok (UInt64.not_lt.mpr hroom) hj
  have hcall := @karenaIoctl_bootstrap s.kernel pid ⟨size, slotIndex i⟩ env hcopy
  rw [slot?_slotIndex, Option.map_some, hhandler] at hcall
  refine ⟨_, step_of_live hlive hcall, ?_⟩
  intro hsound
  have hnew : newChild s.kernel ⟨.bootstrap, pid, i, size, env⟩ = some j := by
    simp [newChild, ArenaCall.data, hhandler, hcopy]
  have hin := (hsound.children ⟨i, j⟩ (mem_children.mpr (Or.inr ⟨rfl, j, hnew, rfl⟩))).1
  have hne : i ≠ j := by
    rintro rfl
    exact hlive (uaddr_of_openSlot hj)
  simp only [ArenaLog.record, state_copyBack, Kernel.bootstrapped, karenas_setSlot_same,
    karenas_setSlot_other _ _ hne, uaddr_claim, UInt64.toNat_add] at hin
  have huaddr := (s.kernel.karenas i).uaddr.toNat_lt
  have hcur := (s.kernel.karenas i).cur.toNat_lt
  omega

end Broken

/-- **A call out of bounds breaks a promise, or takes a cursor past its size.** -/
theorem broken_of_not_inBounds (s : ArenaLog) (c : ArenaCall) (_ : True) (h : ¬ s.InBounds c) :
    ∃ s', s.step c = some s' ∧ ¬ s'.Sound := by
  obtain ⟨op, pid, i, size, env⟩ := c
  simp only [ArenaLog.InBounds, not_forall] at h
  obtain ⟨hlive, hcopy, h⟩ := h
  cases op with
  | seek => exact seek_breaks hlive hcopy h
  | alloc =>
    simp only [not_forall] at h
    obtain ⟨hto, hfit, hwrap⟩ := h
    exact alloc_breaks hlive hcopy hto hfit hwrap
  | bootstrap =>
    simp only [not_forall] at h
    obtain ⟨hroom, hopen, hwrap⟩ := h
    exact bootstrap_breaks hlive hcopy hroom hopen hwrap
  | pop | reserve | pos | size => exact absurd trivial h

/-! ### Whole runs -/

/-- **The cursors stay within the sizes and every promise is kept throughout a run
    exactly when all of its calls are in bounds.** -/
theorem sound_iff_inBounds {k : Kernel} (hk : CursorsIn k) (cs : List ArenaCall) :
    Throughout ArenaLog.step ArenaLog.Sound (ArenaLog.start k) cs ↔
      Along ArenaLog.step ArenaLog.InBounds (ArenaLog.start k) cs := by
  have hstart : (ArenaLog.start k).Kept := by
    refine ⟨⟨hk, ?_, ?_, ?_⟩, ?_, ?_, ?_⟩
    all_goals
      intro x hx
      cases hx
  constructor
  · exact along_of_throughout (fun _ _ _ _ _ => trivial) broken_of_not_inBounds trivial
  · exact throughout_of_along kept_step (fun s hs => hs.sound) hstart

/-- The module after a process has created an arena of one page and mapped it. -/
def oneArena : Kernel :=
  (Kernel.boot.created 1 0 4096).setSlot 0 ⟨4096, 0, 0x10000, false, some 0, 1⟩

theorem cursorsIn_oneArena : CursorsIn oneArena := by
  apply cursorsIn_setSlot
  · intro i hi
    by_cases h : i = 0
    · subst h
      exact absurd rfl hi
    · rw [created_other _ _ _ h] at hi
      exact absurd rfl hi
  · intro _
    decide

theorem sound_iff_inBounds_oneArena :
    CursorsIn oneArena ∧
      (Throughout ArenaLog.step ArenaLog.Sound (ArenaLog.start oneArena)
          [⟨.alloc, 1, 0, 100, Env.ok⟩, ⟨.bootstrap, 1, 0, 200, Env.ok⟩] ↔
        Along ArenaLog.step ArenaLog.InBounds (ArenaLog.start oneArena)
          [⟨.alloc, 1, 0, 100, Env.ok⟩, ⟨.bootstrap, 1, 0, 200, Env.ok⟩]) :=
  ⟨cursorsIn_oneArena, sound_iff_inBounds cursorsIn_oneArena _⟩

/-- SEEK takes the cursor of a one-page arena to 5000. -/
theorem seek_past_size :
    ∃ s, run ArenaLog.step (ArenaLog.start oneArena) [⟨.seek, 1, 0, 5000, Env.ok⟩] = some s ∧
      (s.kernel.karenas 0).uaddr = 0x10000 ∧ (s.kernel.karenas 0).cur = 5000 ∧
      (s.kernel.karenas 0).size = 4096 ∧ ¬ s.Sound := by
  refine ⟨_, rfl, by decide, by decide, by decide, ?_⟩
  intro hsound
  have hcur := hsound.cursors 0 (by decide)
  exact absurd hcur (by decide)

end Lmalloc.Karena
