/-
  Lmalloc/Arena/Zeroing.lean
  ==========================
  **The zeroing pushes of `sdhs_arena.h`.**

  `ArenaPushArrayZero` and `ArenaPushStructZero` expand to functions of `u_arena.c`
  or of `karena.c`, as `SDHS_TEST_ARENA` says.  On a `UArena` the struct macro
  expands to the push that does not zero.  `ka_zalloc` does not look whether
  `ka_alloc` has given it a block before it clears the block.

  A write through the null pointer has no result.
-/
import Lmalloc.Arena.UArena
import Lmalloc.Karena.Serving

namespace Lmalloc.Arena

open Lmalloc.Library Lmalloc.Karena

/-! ### The functions -/

/-- `explicit_bzero(ptr, size)` -/
def explicitBzero (m : Memory) (ptr size : UInt64) : Option Memory :=
  if size = 0 then some m
  else if ptr = 0 then none
  else some (m.fill ⟨ptr.toNat, size.toNat⟩ 0)

def kaZalloc (c : Client) (arena size : UInt64) (env : Env) (m : Memory) :
    Option (UInt64 × Client × Memory) :=
  (kaAlloc c arena size env).bind fun r =>
    (explicitBzero m r.1 size).map fun m => (r.1, r.2, m)

/-- An arena of either back end: `SDHS_TEST_ARENA` is 1 or 2. -/
inductive SdhsArena where
  | karena (process : Client) (arena : UInt64)
  | uArena (ua : UArena)

/-- The pointer a push returns, the arena and the memory after it. -/
abbrev Pushed := Option Addr × SdhsArena × Memory

/-- A pointer of the process; 0 is `NULL`. -/
def toPointer (ptr : UInt64) : Option Addr := if ptr = 0 then none else some ptr.toNat

def kaPushArrayZero (c : Client) (arena sizeofType count : UInt64) (env : Env) (m : Memory) :
    Option Pushed :=
  (kaZalloc c arena (sizeofType * count) env m).map fun r =>
    (toPointer r.1, .karena r.2.1 arena, r.2.2)

def uaPushArray (ua : UArena) (sizeofType count : UInt64) (m : Memory) : Pushed :=
  let r := uaAlloc ua (sizeofType * count)
  (r.1, .uArena r.2, m)

def uaPushArrayZero (ua : UArena) (sizeofType count : UInt64) (m : Memory) : Pushed :=
  let r := uaZalloc ua (sizeofType * count) m
  (r.1, .uArena r.2.1, r.2.2)

def arenaPushArrayZero (a : SdhsArena) (sizeofType count : UInt64) (env : Env) (m : Memory) :
    Option Pushed :=
  match a with
  | .karena c arena => kaPushArrayZero c arena sizeofType count env m
  | .uArena ua => some (uaPushArrayZero ua sizeofType count m)

/-- For a `UArena` the macro is `UaPushStruct`. -/
def arenaPushStructZero (a : SdhsArena) (sizeofType : UInt64) (env : Env) (m : Memory) :
    Option Pushed :=
  match a with
  | .karena c arena => kaPushArrayZero c arena sizeofType 1 env m
  | .uArena ua => some (uaPushArray ua sizeofType 1 m)

/-! ### What a zeroing push promises -/

/-- The block is all zero, and no byte outside it has changed. -/
def BlockZeroed (m m' : Memory) (block : Span) : Prop :=
  (∀ x ∈ block.cells, m' x = 0) ∧ ∀ x, x ∉ block.cells → m' x = m x

/-- The push returns `NULL` and writes nothing, or a block of `size` zeros. -/
def Zeroes (size : ℕ) (m : Memory) (r : Option Pushed) : Prop :=
  ∃ ptr a m', r = some (ptr, a, m') ∧
    (ptr = none ∧ m' = m ∨ ∃ p, ptr = some p ∧ BlockZeroed m m' ⟨p, size⟩)

theorem blockZeroed_fill (m : Memory) (block : Span) : BlockZeroed m (m.fill block 0) block :=
  ⟨fun _ hx => Memory.fill_of_mem hx, fun _ hx => Memory.fill_of_notMem hx⟩

/-- A push that writes nothing zeroes what is zero. -/
theorem blockZeroed_self_iff {m : Memory} {block : Span} :
    BlockZeroed m m block ↔ ∀ x ∈ block.cells, m x = 0 :=
  ⟨fun h => h.1, fun h => ⟨h, fun _ _ => rfl⟩⟩

theorem blockZeroed_empty (m : Memory) (p : Addr) : BlockZeroed m m ⟨p, 0⟩ := by
  apply blockZeroed_self_iff.mpr
  rintro x ⟨hle, hlt⟩
  exact absurd hlt (Nat.not_lt.mpr hle)

/-! ### On a `UArena` -/

section UArena

variable {ua : UArena} {sizeofType count : UInt64} {m : Memory}

theorem zeroes_uaPushArrayZero {size : ℕ} (hsize : (sizeofType * count).toNat = size) :
    Zeroes size m (some (uaPushArrayZero ua sizeofType count m)) := by
  refine ⟨_, _, _, rfl, ?_⟩
  simp only [uaZalloc, hsize]
  split
  · exact Or.inr ⟨_, rfl, blockZeroed_fill _ _⟩
  · exact Or.inl ⟨rfl, rfl⟩

/-- What the push that does not zero would have to find. -/
def BlockClear (ua : UArena) (size : UInt64) (m : Memory) : Prop :=
  ua.cur + size ≤ ua.cap → ∀ x ∈ (Span.mk ua.top size.toNat).cells, m x = 0

theorem zeroes_uaPushArray_iff {size : ℕ} (hsize : (sizeofType * count).toNat = size) :
    Zeroes size m (some (uaPushArray ua sizeofType count m)) ↔
      BlockClear ua (sizeofType * count) m := by
  unfold Zeroes BlockClear uaPushArray uaAlloc
  rw [hsize]
  by_cases hfit : ua.cur + sizeofType * count ≤ ua.cap
  · simp only [hfit, forall_const, Option.some.injEq, Prod.mk.injEq]
    constructor
    · rintro ⟨ptr, a, m', ⟨rfl, rfl, rfl⟩, ⟨hnull, _⟩ | ⟨p, hp, hzero⟩⟩
      · cases hnull
      · obtain rfl := Option.some.inj hp
        exact blockZeroed_self_iff.mp hzero
    · intro hclear
      exact ⟨_, _, _, ⟨rfl, rfl, rfl⟩, Or.inr ⟨_, rfl, blockZeroed_self_iff.mpr hclear⟩⟩
  · apply iff_of_true
    · simp only [if_neg hfit]
      exact ⟨_, _, _, rfl, Or.inl ⟨rfl, rfl⟩⟩
    · exact fun hno => absurd hno hfit

end UArena

/-! ### On a karena arena -/

section Karena

/-- The ioctl is made and its `struct ka_data` is copied both ways, the arena has room, and the
    block is not at the null pointer. -/
def KaServes (c : Client) (arena size : UInt64) (env : Env) : Prop :=
  c.fd = .live ∧ env.copyFromUser = true ∧ env.copyToUser = true ∧
    ∃ i, slot? arena = some i ∧
      (c.world.kernel.karenas i).cur + size ≤ (c.world.kernel.karenas i).size ∧
      (c.world.kernel.karenas i).uaddr + (c.world.kernel.karenas i).cur ≠ 0

/-- The handle is a slot, if the module gets to see it. -/
def KaDefined (c : Client) (arena : UInt64) (env : Env) : Prop :=
  c.fd = .live → env.copyFromUser = true → (slot? arena).isSome

variable {c : Client} {arena size : UInt64} {env : Env}

/-- `ka_alloc` on a slot: the address of the cursor, if the arena has room and the answer
    reaches the user. -/
theorem kaAlloc_of_slot {i : Slot} (hlive : c.fd = .live) (hfrom : env.copyFromUser = true)
    (hslot : slot? arena = some i) :
    ∃ c', kaAlloc c arena size env =
      some (if env.copyToUser = true ∧
          (c.world.kernel.karenas i).cur + size ≤ (c.world.kernel.karenas i).size then
        (c.world.kernel.karenas i).uaddr + (c.world.kernel.karenas i).cur else 0, c') := by
  have hhandler : slotHandler .alloc = some handleArenaAlloc := rfl
  unfold kaAlloc Client.query Client.ioctl
  rw [hlive, karenaIoctl_onSlot hhandler hfrom, hslot]
  by_cases hfit : (c.world.kernel.karenas i).cur + size ≤ (c.world.kernel.karenas i).size
  · rcases hto : env.copyToUser with _ | _
    · simp [copyBack, onSlot, handleArenaAlloc, hfit, hto, eFAULT]
    · simp [copyBack, onSlot, handleArenaAlloc, hfit, hto]
  · simp [copyBack, onSlot, handleArenaAlloc, hfit, eNOMEM]

/-- Without the ioctl, or without a copy of its argument, `ka_alloc` returns `NULL`. -/
theorem kaAlloc_of_not_seen (h : ¬ (c.fd = .live ∧ env.copyFromUser = true)) :
    ∃ c', kaAlloc c arena size env = some (0, c') := by
  unfold kaAlloc Client.query Client.ioctl
  rcases hfd : c.fd with _ | _ | _
  · exact ⟨_, rfl⟩
  · have hfrom : env.copyFromUser = false := by simpa [hfd] using h
    rw [karenaIoctl_noCopy _ hfrom]
    exact ⟨_, rfl⟩
  · exact ⟨_, rfl⟩

theorem kaAlloc_of_no_slot (hlive : c.fd = .live) (hfrom : env.copyFromUser = true)
    (hslot : slot? arena = none) : kaAlloc c arena size env = none := by
  have hhandler : slotHandler .alloc = some handleArenaAlloc := rfl
  unfold kaAlloc Client.query Client.ioctl
  rw [hlive, karenaIoctl_onSlot hhandler hfrom, hslot]
  rfl

/-- **`ka_alloc` serves the request, or returns `NULL`, or is undefined.** -/
theorem kaAlloc_cases (c : Client) (arena size : UInt64) (env : Env) :
    (KaServes c arena size env ∧ ∃ ptr c', ptr ≠ 0 ∧ kaAlloc c arena size env = some (ptr, c')) ∨
      (¬ KaServes c arena size env ∧ KaDefined c arena env ∧
        ∃ c', kaAlloc c arena size env = some (0, c')) ∨
      (¬ KaServes c arena size env ∧ ¬ KaDefined c arena env ∧
        kaAlloc c arena size env = none) := by
  by_cases hseen : c.fd = .live ∧ env.copyFromUser = true
  · obtain ⟨hlive, hfrom⟩ := hseen
    rcases hslot : slot? arena with _ | i
    · refine Or.inr (Or.inr ⟨?_, ?_, kaAlloc_of_no_slot hlive hfrom hslot⟩)
      · rintro ⟨_, _, _, i, hi, _⟩
        rw [hslot] at hi
        cases hi
      · intro hdefined
        have hsome := hdefined hlive hfrom
        rw [hslot] at hsome
        cases hsome
    · obtain ⟨c', hcall⟩ := @kaAlloc_of_slot c arena size env i hlive hfrom hslot
      by_cases hserves : KaServes c arena size env
      · obtain ⟨_, _, hto, j, hj, hfit, hne⟩ := id hserves
        rw [hslot, Option.some.injEq] at hj
        subst hj
        rw [if_pos ⟨hto, hfit⟩] at hcall
        exact Or.inl ⟨hserves, _, c', hne, hcall⟩
      · refine Or.inr (Or.inl ⟨hserves, fun _ _ => by rw [hslot]; rfl, c', ?_⟩)
        rw [hcall]
        split
        · rename_i hgiven
          by_cases hne : (c.world.kernel.karenas i).uaddr + (c.world.kernel.karenas i).cur = 0
          · rw [hne]
          · exact absurd ⟨hlive, hfrom, hgiven.1, i, hslot, hgiven.2, hne⟩ hserves
        · rfl
  · refine Or.inr (Or.inl ⟨fun hserves => hseen ⟨hserves.1, hserves.2.1⟩, ?_,
      kaAlloc_of_not_seen hseen⟩)
    intro hlive hfrom
    exact absurd ⟨hlive, hfrom⟩ hseen

variable {sizeofType count : UInt64} {m : Memory}

/-- **The karena push zeroes what it returns if it is served, and writes through the null
    pointer if it is not**, unless there is nothing to write. -/
theorem zeroes_kaPushArrayZero_iff {size : ℕ} (hsize : (sizeofType * count).toNat = size) :
    Zeroes size m (kaPushArrayZero c arena sizeofType count env m) ↔
      KaServes c arena (sizeofType * count) env ∨ (size = 0 ∧ KaDefined c arena env) := by
  have hzero : sizeofType * count = 0 ↔ size = 0 := by
    rw [← hsize, ← UInt64.toNat_inj, UInt64.toNat_zero]
  unfold kaPushArrayZero kaZalloc
  rcases kaAlloc_cases c arena (sizeofType * count) env with
    ⟨hserves, ptr, c', hne, hcall⟩ | ⟨hserves, hdefined, c', hcall⟩ | ⟨hserves, hdefined, hcall⟩
  · apply iff_of_true
    · rw [hcall, Option.bind_some, explicitBzero]
      by_cases hempty : size = 0
      · rw [if_pos (hzero.mpr hempty)]
        refine ⟨_, _, _, rfl, Or.inr ⟨ptr.toNat, if_neg hne, ?_⟩⟩
        rw [hempty]
        exact blockZeroed_empty m _
      · rw [if_neg fun h => hempty (hzero.mp h), if_neg hne]
        refine ⟨_, _, _, rfl, Or.inr ⟨ptr.toNat, if_neg hne, ?_⟩⟩
        rw [hsize]
        exact blockZeroed_fill m _
    · exact Or.inl hserves
  · simp only [hcall, Option.bind_some, explicitBzero, hserves, false_or, hdefined, and_true]
    by_cases hempty : size = 0
    · apply iff_of_true
      · rw [if_pos (hzero.mpr hempty)]
        exact ⟨_, _, _, rfl, Or.inl ⟨if_pos rfl, rfl⟩⟩
      · exact hempty
    · apply iff_of_false
      · rw [if_neg fun h => hempty (hzero.mp h), if_pos trivial]
        rintro ⟨_, _, _, hno, _⟩
        cases hno
      · exact hempty
  · simp only [hcall, Option.bind_none, hserves, false_or, hdefined, and_false, iff_false]
    rintro ⟨_, _, _, hno, _⟩
    cases hno

end Karena

/-! ### Both back ends -/

/-- When the array push zeroes. -/
def ArrayZeroes (a : SdhsArena) (size : UInt64) (env : Env) : Prop :=
  match a with
  | .karena c arena => KaServes c arena size env ∨ (size = 0 ∧ KaDefined c arena env)
  | .uArena _ => True

/-- When the struct push zeroes. -/
def StructZeroes (a : SdhsArena) (size : UInt64) (env : Env) (m : Memory) : Prop :=
  match a with
  | .karena c arena => KaServes c arena size env ∨ (size = 0 ∧ KaDefined c arena env)
  | .uArena ua => BlockClear ua size m

/-- Memory full of sevens. -/
def allSevens : Memory := fun _ => 7

/-- A process with an arena of one page. -/
def onePageProcess : Client :=
  ((kaCreate ⟨World.boot, 7, .zero⟩ 4096 ⟨true, Env.ok, 0x10000, false⟩).getD
    (none, ⟨World.boot, 7, .zero⟩)).2

end Lmalloc.Arena
