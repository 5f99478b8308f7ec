/-
  Lmalloc/Karena/NullHandle.lean
  ==============================
  **The handle of slot 0.**

  `ka_create` and `ka_bootstrap` return the index of a slot as a pointer, and
  `NULL` when they fail.  Slot 0 is the first one that `find_open_slot` tries; an
  arena there has the handle `NULL`.  Its owner takes the success for a failure,
  and a scratch that is begun on it is the empty one, which `ka_scratch_release`
  takes for position 0 of slot 0.

  Every other slot has a handle that works: the release returns to the position
  of the begin, whatever has been allocated in between.
-/
import Lmalloc.Karena.Serving
import Lmalloc.Arena.Scratch

namespace Lmalloc.Karena

open Lmalloc.Arena

/-! ### The functions -/

/-- `ka_bootstrap`; `none` is `return NULL`. -/
def kaBootstrap (c : Client) (arena size : UInt64) (env : Env) :
    Option (Option UInt64 × Client) :=
  (c.ioctl .bootstrap ⟨size, arena⟩ env).map fun r =>
    (if r.1 ≠ 0 then none else some r.2.1.arena, r.2.2)

/-- A handle as C compares it with `NULL`. -/
def pointer (arena : UInt64) : Option UInt64 := if arena = 0 then none else some arena

/-- `ka_scratch_release`; as an argument of the ioctl, a null pointer is 0. -/
def kaScratchRelease (c : Client) (kas : KAScratch) (env : Env) : Option (UInt64 × Client) :=
  kaSeek c (kas.ua.getD 0) kas.f5 env

/-- Calls of `ka_alloc` on one arena. -/
def kaAllocs (arena : UInt64) : Client → List (UInt64 × Env) → Option Client
  | c, [] => some c
  | c, (size, env) :: calls => (kaAlloc c arena size env).bind fun r => kaAllocs arena r.2 calls

/-- Begin a scratch, allocate, release it: the positions before and after. -/
def scratchRoundTrip (c : Client) (arena : UInt64) (calls : List (UInt64 × Env)) :
    Option (UInt64 × UInt64) := do
  let (before, c) ← kaPos c arena Env.ok
  let (kas, c) ← kaScratchBegin c Env.ok (pointer arena)
  let c ← kaAllocs arena c calls
  let (_, c) ← kaScratchRelease c kas Env.ok
  let (after, _) ← kaPos c arena Env.ok
  return (before, after)

/-! ### Calls on an arena that has a slot -/

section Calls

variable {c : Client} {arena : UInt64} {i : Slot}

theorem kaPos_eq (hfd : c.fd = .live) (hslot : slot? arena = some i) :
    kaPos c arena Env.ok =
      some ((c.world.kernel.karenas i).cur, c.setArena i (c.world.kernel.karenas i)) := by
  unfold kaPos
  rw [query_eq hfd hslot rfl (by decide)]
  rfl

theorem kaSeek_eq (hfd : c.fd = .live) (hslot : slot? arena = some i) (pos : UInt64) :
    kaSeek c arena pos Env.ok =
      some ((c.world.kernel.karenas i).uaddr + pos,
        c.setArena i { c.world.kernel.karenas i with cur := pos }) := by
  unfold kaSeek
  rw [query_eq hfd hslot rfl (by decide)]
  rfl

theorem fd_setArena (hfd : c.fd = .live) (a : KArena) : (c.setArena i a).fd = .live := hfd

theorem ioctl_alloc_live (hfd : c.fd = .live) (hslot : slot? arena = some i) (size : UInt64)
    (env : Env) : ∃ ret alloc c', c.ioctl .alloc ⟨size, arena⟩ env = some (ret, alloc, c') ∧
      c'.fd = .live := by
  have hcmd : slotHandler .alloc = some handleArenaAlloc := rfl
  simp only [Client.ioctl, hfd]
  cases henv : env.copyFromUser with
  | false =>
    rw [karenaIoctl_noCopy _ henv]
    exact ⟨_, _, _, rfl, rfl⟩
  | true =>
    rw [karenaIoctl_onSlot hcmd henv, hslot]
    exact ⟨_, _, _, rfl, rfl⟩

/-- Allocations, whether they succeed or not, leave the descriptor as it is. -/
theorem kaAllocs_live (hslot : slot? arena = some i) (calls : List (UInt64 × Env)) :
    ∀ c : Client, c.fd = .live → ∃ c', kaAllocs arena c calls = some c' ∧ c'.fd = .live := by
  induction calls with
  | nil => exact fun c hfd => ⟨c, rfl, hfd⟩
  | cons call calls ih =>
    intro c hfd
    obtain ⟨size, env⟩ := call
    obtain ⟨ret, alloc, c₁, hioctl, hfd₁⟩ := ioctl_alloc_live hfd hslot size env
    obtain ⟨c₂, hrest, hfd₂⟩ := ih c₁ hfd₁
    refine ⟨c₂, ?_, hfd₂⟩
    rw [kaAllocs, kaAlloc, Client.query, hioctl]
    exact hrest

/-- **A scratch on any other slot than 0 returns to where it began.** -/
theorem scratchRoundTrip_eq (hfd : c.fd = .live) (hslot : slot? arena = some i)
    (hne : arena ≠ 0) (calls : List (UInt64 × Env)) :
    scratchRoundTrip c arena calls =
      some ((c.world.kernel.karenas i).cur, (c.world.kernel.karenas i).cur) := by
  obtain ⟨c₁, hc₁⟩ : ∃ c₁, c₁ = c.setArena i (c.world.kernel.karenas i) := ⟨_, rfl⟩
  have hfd₁ : c₁.fd = .live := hc₁ ▸ fd_setArena hfd _
  have hcur : (c₁.world.kernel.karenas i).cur = (c.world.kernel.karenas i).cur := by
    rw [hc₁]
    exact congrArg KArena.cur (karenas_setSlot_same _ _ _)
  obtain ⟨c₂, hc₂⟩ : ∃ c₂, c₂ = c₁.setArena i (c₁.world.kernel.karenas i) := ⟨_, rfl⟩
  have hfd₂ : c₂.fd = .live := hc₂ ▸ fd_setArena hfd₁ _
  have hbegin : kaScratchBegin c₁ Env.ok (pointer arena) =
      some (⟨some arena, (c.world.kernel.karenas i).cur⟩, c₂) := by
    rw [pointer, if_neg hne, kaScratchBegin, kaPos_eq hfd₁ hslot, hcur, hc₂, Option.map_some]
  obtain ⟨c₃, hallocs, hfd₃⟩ := kaAllocs_live hslot calls c₂ hfd₂
  -- the release seeks the same slot, whatever its cursor is by now
  obtain ⟨c₄, hc₄⟩ : ∃ c₄, c₄ = c₃.setArena i
      { c₃.world.kernel.karenas i with cur := (c.world.kernel.karenas i).cur } := ⟨_, rfl⟩
  have hfd₄ : c₄.fd = .live := hc₄ ▸ fd_setArena hfd₃ _
  have hrelease : kaScratchRelease c₃ ⟨some arena, (c.world.kernel.karenas i).cur⟩ Env.ok =
      some ((c₃.world.kernel.karenas i).uaddr + (c.world.kernel.karenas i).cur, c₄) := by
    rw [hc₄]
    exact kaSeek_eq hfd₃ hslot _
  have hback : (c₄.world.kernel.karenas i).cur = (c.world.kernel.karenas i).cur := by
    rw [hc₄, Client.setArena, karenas_setSlot_same]
  have hpos := kaPos_eq hfd₄ hslot
  rw [hback] at hpos
  have hfirst := kaPos_eq hfd hslot
  rw [← hc₁] at hfirst
  simp only [scratchRoundTrip, hfirst, hbegin, hallocs, hrelease, hpos, Option.bind_eq_bind,
    Option.bind_some]
  rfl

end Calls

/-! ### Where the handles come from -/

inductive NewArena where
  | create (size : UInt64) (os : Os)                  -- `ka_create`
  | bootstrap (arena size : UInt64) (env : Env)       -- `ka_bootstrap`

def NewArena.call (c : Client) : NewArena → Option (Option UInt64 × Client)
  | .create size os => kaCreate c size os
  | .bootstrap arena size env => kaBootstrap c arena size env

section New

variable {c c' : Client} {arena : UInt64}

theorem openDevice_karenas (ok : Bool) :
    (c.openDevice ok).2.world.kernel.karenas = c.world.kernel.karenas := by
  unfold Client.openDevice
  split
  · split
    · rfl
    · rfl
  · rfl
  · rfl

theorem kaCreate_slot {size : UInt64} {os : Os} (h : kaCreate c size os = some (some arena, c')) :
    ∃ i, openSlot c.world.kernel.karenas = some i ∧ arena = slotIndex i := by
  obtain ⟨ret, alloc, c₁, hioctl, hret, rfl, _⟩ := kaCreate_success h
  obtain ⟨_, i, hopen, rfl, _⟩ := ioctl_create_success hioctl hret
  rw [openDevice_karenas] at hopen
  exact ⟨i, hopen, rfl⟩

theorem kaBootstrap_slot {parent size : UInt64} {env : Env}
    (h : kaBootstrap c parent size env = some (some arena, c')) :
    ∃ i, openSlot c.world.kernel.karenas = some i ∧ arena = slotIndex i := by
  simp only [kaBootstrap, Option.map_eq_some_iff] at h
  obtain ⟨⟨ret, alloc, c₁⟩, hioctl, h⟩ := h
  by_cases hret : ret = 0
  · simp only [hret, ne_eq, not_true_eq_false, if_false, Prod.mk.injEq, Option.some.injEq] at h
    obtain ⟨rfl, _⟩ := h
    obtain ⟨_, o, hcall, rfl⟩ := ioctl_success hioctl (by rw [hret]; decide)
    cases henv : env.copyFromUser with
    | false =>
      rw [karenaIoctl_noCopy _ henv] at hcall
      cases hcall
    | true =>
      rw [karenaIoctl_bootstrap henv] at hcall
      obtain ⟨i, _, hcall⟩ := Option.map_eq_some_iff.mp hcall
      obtain ⟨_, rfl⟩ := copyBack_success (by decide) (by decide) hcall
      rcases handleArenaBootstrap_cases c.world.kernel i ⟨size, parent⟩ with
        ⟨_, hrun⟩ | ⟨_, _, hrun⟩ | ⟨j, _, hopen, hrun⟩
      · rw [hrun] at hcall
        cases hcall
      · rw [hrun] at hcall
        cases hcall
      · rw [hrun]
        exact ⟨j, hopen, rfl⟩
  · simp only [hret, ne_eq, not_false_eq_true, if_true] at h
    cases h

/-- A new arena is in the open slot, and its handle is the index of the slot. -/
theorem NewArena.slot {new : NewArena} (h : new.call c = some (some arena, c')) :
    ∃ i, openSlot c.world.kernel.karenas = some i ∧ arena = slotIndex i := by
  cases new with
  | create size os => exact kaCreate_slot h
  | bootstrap parent size env => exact kaBootstrap_slot h

end New

/-! ### When a handle works -/

/-- The handle is not `NULL`, and a scratch on it returns to where it began, at
    whatever time it is used. -/
def HandleWorks (arena : UInt64) : Prop :=
  arena ≠ 0 ∧ ∀ c : Client, c.fd = .live → ∀ calls,
    ∃ pos, scratchRoundTrip c arena calls = some (pos, pos)

theorem slotIndex_eq_zero_iff (i : Slot) : slotIndex i = 0 ↔ i = 0 := by
  constructor
  · intro h
    have hslot := slot?_slotIndex i
    rw [h] at hslot
    exact (Option.some.inj hslot).symm
  · rintro rfl
    rfl

/-- **A new arena has a handle that works if and only if slot 0 was taken before.** -/
theorem newArena_handleWorks_iff {c c' : Client} {new : NewArena} {arena : UInt64}
    (h : new.call c = some (some arena, c')) :
    HandleWorks arena ↔ (c.world.kernel.karenas 0).uaddr ≠ 0 := by
  obtain ⟨i, hopen, rfl⟩ := NewArena.slot h
  obtain ⟨hfree, hbefore⟩ := openSlot_eq_some_iff.mp hopen
  constructor
  · rintro ⟨hne, _⟩
    apply hbefore 0
    refine Nat.pos_of_ne_zero fun hzero => hne ?_
    exact (slotIndex_eq_zero_iff i).mpr (Fin.ext hzero)
  · intro htaken
    have hne : slotIndex i ≠ 0 := by
      intro hzero
      rw [(slotIndex_eq_zero_iff i).mp hzero] at hfree
      exact htaken hfree
    refine ⟨hne, ?_⟩
    intro c hfd calls
    exact ⟨_, scratchRoundTrip_eq hfd (slot?_slotIndex i) hne calls⟩

/-- A process that has not opened the device. -/
def newcomer (world : World) (pid : Pid) : Client := ⟨world, pid, .zero⟩

/-- Everything succeeds, and the mapping is at `addr`. -/
def willing (addr : UInt64) : Os := ⟨true, Env.ok, addr, false⟩

/-- The process after its first `ka_create`, of one page. -/
def afterFirst : Client :=
  ((kaCreate (newcomer World.boot 1) 4096 (willing 4096)).getD (none, newcomer World.boot 1)).2

/-- The second arena of a process has a handle that works. -/
theorem newArena_handleWorks_iff_second :
    HandleWorks 1 ↔ (afterFirst.world.kernel.karenas 0).uaddr ≠ 0 :=
  @newArena_handleWorks_iff afterFirst
    ((kaCreate afterFirst 4096 (willing 8192)).getD (none, afterFirst)).2
    (.create 4096 (willing 8192)) 1 (by rfl)

/-- The first arena after boot has the handle `NULL`.  At position 100 a scratch on
    it, with 50 bytes allocated, is released to position 0. -/
theorem firstArena_is_null :
    (kaCreate (newcomer World.boot 1) 4096 (willing 4096)).map Prod.fst = some (some 0) ∧
      ((kaAlloc afterFirst 0 100 Env.ok).bind fun r => scratchRoundTrip r.2 0 [(50, Env.ok)]) =
        some (100, 0) ∧
      ¬ HandleWorks 0 := by
  refine ⟨by decide, by decide, ?_⟩
  rintro ⟨hne, _⟩
  exact hne rfl

end Lmalloc.Karena
