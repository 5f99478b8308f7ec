/-
  Lmalloc/Arena/SdbArena.lean
  ===========================
  **The arena of `Sdb.h`.**

  The same cursor into `Cap` bytes as `UArena`, without flags.  `SdbArenaPop`
  compares the two words directly and returns the new top; `UArena` subtracts
  and tests the sign.
-/
import Lmalloc.Library.Memory
import Lmalloc.Library.WordBump

namespace Lmalloc.Arena

open Lmalloc.Library

structure SdbArena where
  cur : UInt64
  cap : UInt64
  mem : Addr
deriving DecidableEq, Repr

def sdbArenaInit (mem : Addr) (size : UInt64) : SdbArena :=
  { cur := 0, cap := size, mem := mem }

def sdbArenaPush (arena : SdbArena) (size : UInt64) : Option Addr × SdbArena :=
  if arena.cur + size ≤ arena.cap then
    (some (arena.mem + arena.cur.toNat), { arena with cur := arena.cur + size })
  else (none, arena)

def sdbArenaPushZero (arena : SdbArena) (size : UInt64) (m : Memory) :
    Option Addr × SdbArena × Memory :=
  if arena.cur + size ≤ arena.cap then
    let allocedMem := arena.mem + arena.cur.toNat
    (some allocedMem, { arena with cur := arena.cur + size },
      m.fill ⟨allocedMem, size.toNat⟩ 0)
  else (none, arena, m)

def sdbArenaRemaining (arena : SdbArena) : UInt64 := arena.cap - arena.cur

def sdbArenaPop (arena : SdbArena) (size : UInt64) : Option Addr × SdbArena :=
  if arena.cur ≥ size then
    (some (arena.mem + (arena.cur - size).toNat), { arena with cur := arena.cur - size })
  else (none, arena)

def sdbArenaGetPos (arena : SdbArena) : UInt64 := arena.cur

def sdbArenaSeek (arena : SdbArena) (pos : UInt64) : Option Addr × SdbArena :=
  if pos ≤ arena.cap then (some (arena.mem + pos.toNat), { arena with cur := pos })
  else (none, arena)

def sdbArenaReserve (arena : SdbArena) (size : UInt64) : UInt64 × SdbArena :=
  if arena.cur + size ≤ arena.cap then (size, { arena with cur := arena.cur + size })
  else (sdbArenaRemaining arena, arena)

def sdbArenaClear (arena : SdbArena) : SdbArena := { arena with cur := 0 }

/-- The zeroing push allocates as the plain one does. -/
theorem sdbArenaPushZero_arena (arena : SdbArena) (size : UInt64) (m : Memory) :
    (sdbArenaPushZero arena size m).1 = (sdbArenaPush arena size).1 ∧
      (sdbArenaPushZero arena size m).2.1 = (sdbArenaPush arena size).2 := by
  unfold sdbArenaPushZero sdbArenaPush
  by_cases h : arena.cur + size ≤ arena.cap
  · simp [h]
  · simp [h]

end Lmalloc.Arena
