/-
  Lmalloc/Arena/UArena.lean
  =========================
  **The user-space arena of `u_arena.c`.**

  A `UArena` is a cursor `cur` into `cap` bytes of memory at `mem`.  The two
  sizes are `size_t`, so every `cur + size` below is the addition of `UInt64`,
  which wraps; pointers are plain addresses.  `NULL` is `none`.

  Each function that adds to the cursor gets a lemma that says what it computes
  when the addition does not wrap, and one for when it does.
-/
import Lmalloc.Library.Memory
import Lmalloc.Library.WordBump

namespace Lmalloc.Arena

open Lmalloc.Library Lmalloc.Library.Word

structure UArena where
  flags : UInt64
  cap : UInt64
  cur : UInt64
  mem : Addr
deriving DecidableEq, Repr

/-- The address at the cursor. -/
def UArena.top (ua : UArena) : ℕ := ua.mem + ua.cur.toNat

/-- The memory of the arena. -/
def UArena.area (ua : UArena) : Span := ⟨ua.mem, ua.cap.toNat⟩

/-! ### The functions of `u_arena.c` -/

def uaInit (contiguous mallocd bootstrapped : Bool) (cap : UInt64) (mem : Addr) : UArena :=
  let flags : UInt64 := if contiguous then 0 ||| 1 else 0
  let flags : UInt64 := if mallocd then flags ||| ((1 : UInt64) <<< 1) else flags
  let flags : UInt64 := if bootstrapped then flags ||| ((1 : UInt64) <<< 2) else flags
  { flags := flags, cap := cap, cur := 0, mem := mem }

def uaAlloc (ua : UArena) (size : UInt64) : Option Addr × UArena :=
  if ua.cur + size ≤ ua.cap then
    (some (ua.mem + ua.cur.toNat), { ua with cur := ua.cur + size })
  else (none, ua)

/-- `explicit_bzero` of the new block follows the bump of the cursor. -/
def uaZalloc (ua : UArena) (size : UInt64) (m : Memory) : Option Addr × UArena × Memory :=
  if ua.cur + size ≤ ua.cap then
    let ptr := ua.mem + ua.cur.toNat
    (some ptr, { ua with cur := ua.cur + size }, m.fill ⟨ptr, size.toNat⟩ 0)
  else (none, ua, m)

def uaFree (ua : UArena) : UArena := { ua with cur := 0 }

/-- The test is a signed subtraction of the two casts to `ssize_t`. -/
def uaPop (ua : UArena) (size : UInt64) : UArena :=
  if 0 ≤ ua.cur.toInt64 - size.toInt64 then { ua with cur := ua.cur - size } else ua

def uaPos (ua : UArena) : UInt64 := ua.cur

def uaSeek (ua : UArena) (pos : UInt64) : Option Addr × UArena :=
  if pos ≤ ua.cap then (some (ua.mem + pos.toNat), { ua with cur := pos }) else (none, ua)

def uaReserve (ua : UArena) (sz : UInt64) : UInt64 × UArena :=
  if ua.cur + sz ≤ ua.cap then (sz, { ua with cur := ua.cur + sz })
  else (ua.cap - ua.cur, ua)

/-- A position to come back to, with the address of the arena it is in. -/
structure UAScratch where
  ua : Option Addr
  f5 : UInt64
deriving DecidableEq, Repr

/-- The argument is the address of an arena and what is stored there. -/
def uaScratchBegin : Option (Addr × UArena) → UAScratch
  | some (p, ua) => { ua := some p, f5 := ua.cur }
  | none => { ua := none, f5 := 0 }

/-- The arena stored at `uas.ua` after the release. -/
def uaScratchRelease (uas : UAScratch) (ua : UArena) : UArena := (uaSeek ua uas.f5).2

/-! ### What the functions compute when their addition does not wrap -/

section NoWrap

variable {ua : UArena} {size : UInt64}

theorem uaAlloc_of_lt (h : ua.cur.toNat + size.toNat < 2 ^ 64) :
    uaAlloc ua size =
      if ua.cur.toNat + size.toNat ≤ ua.cap.toNat then
        (some (ua.mem + ua.cur.toNat), { ua with cur := ua.cur + size })
      else (none, ua) := by
  simp only [uaAlloc, add_le_iff_of_lt h]

theorem uaZalloc_of_lt (h : ua.cur.toNat + size.toNat < 2 ^ 64) (m : Memory) :
    uaZalloc ua size m =
      if ua.cur.toNat + size.toNat ≤ ua.cap.toNat then
        (some (ua.mem + ua.cur.toNat), { ua with cur := ua.cur + size },
          m.fill ⟨ua.mem + ua.cur.toNat, size.toNat⟩ 0)
      else (none, ua, m) := by
  simp only [uaZalloc, add_le_iff_of_lt h]

theorem uaReserve_of_lt (h : ua.cur.toNat + size.toNat < 2 ^ 64) :
    uaReserve ua size =
      if ua.cur.toNat + size.toNat ≤ ua.cap.toNat then
        (size, { ua with cur := ua.cur + size })
      else (ua.cap - ua.cur, ua) := by
  simp only [uaReserve, add_le_iff_of_lt h]

/-- What fits does not wrap. -/
theorem uaAlloc_of_fits (h : ua.cur.toNat + size.toNat ≤ ua.cap.toNat) :
    uaAlloc ua size = (some ua.top, { ua with cur := ua.cur + size }) := by
  have hcap := ua.cap.toNat_lt
  unfold uaAlloc UArena.top
  rw [if_pos]
  rw [add_le_iff_of_lt (by omega)]
  exact h

theorem toNat_cur_add (h : ua.cur.toNat + size.toNat ≤ ua.cap.toNat) :
    (ua.cur + size).toNat = ua.cur.toNat + size.toNat := by
  have hcap := ua.cap.toNat_lt
  apply toNat_add_of_lt
  omega

theorem uaPop_of_lt (hcur : ua.cur.toNat < 2 ^ 63) (hsize : size.toNat < 2 ^ 63) :
    uaPop ua size =
      if size.toNat ≤ ua.cur.toNat then { ua with cur := ua.cur - size } else ua := by
  simp only [uaPop, signed_sub_nonneg_iff hcur hsize]

end NoWrap

/-! ### What they compute when it wraps

The test `cur + size <= cap` of an arena with `cur <= cap` passes for every
`size` that makes the sum wrap, and the cursor moves down. -/

section Wrap

variable {ua : UArena} {size : UInt64}

theorem uaAlloc_of_wraps (hcur : ua.cur ≤ ua.cap) (h : 2 ^ 64 ≤ ua.cur.toNat + size.toNat) :
    uaAlloc ua size = (some (ua.mem + ua.cur.toNat), { ua with cur := ua.cur + size }) := by
  simp only [uaAlloc, if_pos (add_le_of_wraps hcur h)]

theorem uaZalloc_of_wraps (hcur : ua.cur ≤ ua.cap) (h : 2 ^ 64 ≤ ua.cur.toNat + size.toNat)
    (m : Memory) :
    uaZalloc ua size m =
      (some (ua.mem + ua.cur.toNat), { ua with cur := ua.cur + size },
        m.fill ⟨ua.mem + ua.cur.toNat, size.toNat⟩ 0) := by
  simp only [uaZalloc, if_pos (add_le_of_wraps hcur h)]

theorem uaReserve_of_wraps (hcur : ua.cur ≤ ua.cap) (h : 2 ^ 64 ≤ ua.cur.toNat + size.toNat) :
    uaReserve ua size = (size, { ua with cur := ua.cur + size }) := by
  simp only [uaReserve, if_pos (add_le_of_wraps hcur h)]

end Wrap

/-! ### The abstract allocator behind a `UArena` -/

/-- A `UArena` whose cursor is within bounds is a bump allocator. -/
def UArena.toBump (ua : UArena) (h : ua.cur ≤ ua.cap) : Bump :=
  ⟨ua.cap.toNat, ua.cur.toNat, UInt64.le_iff_toNat_le.mp h⟩

theorem UArena.inWords_toBump (ua : UArena) (h : ua.cur ≤ ua.cap) :
    (ua.toBump h).InWords ua.cap ua.cur :=
  ⟨rfl, rfl⟩

end Lmalloc.Arena
