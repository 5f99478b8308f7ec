/-
  Lmalloc/Arena/Answers.lean
  ==========================
  **The two user-space arenas behind one interface.**

  `sdhs_arena.h` puts one set of macros over the back ends.  Here each arena
  serves the requests of the abstract allocator through its own functions, and
  answers each of them as the abstract allocator does.  Pointers are compared as
  offsets from the base.
-/
import Lmalloc.Arena.SdbArena
import Lmalloc.Arena.UArena

namespace Lmalloc.Arena

open Lmalloc.Library Lmalloc.Library.Word

def UArena.serve (ua : UArena) : Request → Reply × UArena
  | .take n =>
      let r := uaAlloc ua (UInt64.ofNat n)
      (.slot (r.1.map (· - ua.mem)), r.2)
  | .drop n => (.done, uaPop ua (UInt64.ofNat n))
  | .reserve n =>
      let r := uaReserve ua (UInt64.ofNat n)
      (.size r.1.toNat, r.2)
  | .seek p =>
      let r := uaSeek ua (UInt64.ofNat p)
      (.slot (r.1.map (· - ua.mem)), r.2)
  | .reset => (.done, uaFree ua)
  | .position => (.size (uaPos ua).toNat, ua)
  | .capacity => (.size ua.cap.toNat, ua)

def UArena.answer (ua : UArena) (r : Request) : Option ((Reply × ℕ) × UArena) :=
  some (((ua.serve r).1, (uaPos (ua.serve r).2).toNat), (ua.serve r).2)

/-- `SdbArenaPop` also returns the new top, which the interface drops. -/
def SdbArena.serve (arena : SdbArena) : Request → Reply × SdbArena
  | .take n =>
      let r := sdbArenaPush arena (UInt64.ofNat n)
      (.slot (r.1.map (· - arena.mem)), r.2)
  | .drop n => (.done, (sdbArenaPop arena (UInt64.ofNat n)).2)
  | .reserve n =>
      let r := sdbArenaReserve arena (UInt64.ofNat n)
      (.size r.1.toNat, r.2)
  | .seek p =>
      let r := sdbArenaSeek arena (UInt64.ofNat p)
      (.slot (r.1.map (· - arena.mem)), r.2)
  | .reset => (.done, sdbArenaClear arena)
  | .position => (.size (sdbArenaGetPos arena).toNat, arena)
  | .capacity => (.size arena.cap.toNat, arena)

def SdbArena.answer (arena : SdbArena) (r : Request) : Option ((Reply × ℕ) × SdbArena) :=
  some (((arena.serve r).1, (sdbArenaGetPos (arena.serve r).2).toNat), (arena.serve r).2)

section Refinement

variable {b : Bump} (hcap : b.cap < 2 ^ 63) {r : Request} (hr : Bump.Admissible b.cap r)

include hcap hr

/-- **A `UArena` serves every admissible request as the abstract allocator does.** -/
theorem UArena.serve_refines {ua : UArena} (h : b.InWords ua.cap ua.cur) :
    (ua.serve r).1 = (b.serve r).1 ∧
      (b.serve r).2.InWords (ua.serve r).2.cap (ua.serve r).2.cur := by
  have hcur : b.cur < 2 ^ 63 := Nat.lt_of_le_of_lt b.cur_le hcap
  cases r with
  | take n =>
    have hn := toNat_ofNat_of_lt hr
    simp only [UArena.serve, uaAlloc, Bump.serve, h.add_le_iff hcap hn hr]
    by_cases hfit : b.cur + n ≤ b.cap
    · simpa [hfit, h.cur_eq] using h.bump hn hfit
    · simpa [hfit] using h
  | drop n =>
    have hn := toNat_ofNat_of_lt hr
    have hua : ua.cur.toNat < 2 ^ 63 := by rw [h.cur_eq]; exact hcur
    have hsize : (UInt64.ofNat n).toNat < 2 ^ 63 := by rw [hn]; exact hr
    simp only [UArena.serve, uaPop_of_lt hua hsize, Bump.serve, hn, h.cur_eq]
    by_cases hle : n ≤ b.cur
    · simpa [hle] using h.drop hn hle
    · simpa [hle] using h
  | reserve n =>
    have hn := toNat_ofNat_of_lt hr
    simp only [UArena.serve, uaReserve, Bump.serve, h.add_le_iff hcap hn hr]
    by_cases hfit : b.cur + n ≤ b.cap
    · simpa [hfit, hn] using h.bump hn hfit
    · simpa [hfit, h.toNat_left] using h
  | seek p =>
    have hpos : p ≤ b.cap := hr
    obtain ⟨hp, hle⟩ := h.ofNat_le hcap hpos
    simpa [UArena.serve, uaSeek, Bump.serve, hle, hpos, hp] using h.moveTo hpos hp
  | reset => exact ⟨rfl, h.moveTo (Nat.zero_le _) rfl⟩
  | position => exact ⟨congrArg Reply.size h.cur_eq, h⟩
  | capacity => exact ⟨congrArg Reply.size h.cap_eq, h⟩

/-- **So does an `sdb_arena`.** -/
theorem SdbArena.serve_refines {arena : SdbArena} (h : b.InWords arena.cap arena.cur) :
    (arena.serve r).1 = (b.serve r).1 ∧
      (b.serve r).2.InWords (arena.serve r).2.cap (arena.serve r).2.cur := by
  cases r with
  | take n =>
    have hn := toNat_ofNat_of_lt hr
    simp only [SdbArena.serve, sdbArenaPush, Bump.serve, h.add_le_iff hcap hn hr]
    by_cases hfit : b.cur + n ≤ b.cap
    · simpa [hfit, h.cur_eq] using h.bump hn hfit
    · simpa [hfit] using h
  | drop n =>
    have hn := toNat_ofNat_of_lt hr
    have hge : arena.cur ≥ UInt64.ofNat n ↔ n ≤ b.cur := by
      rw [ge_iff_le, UInt64.le_iff_toNat_le, hn, h.cur_eq]
    simp only [SdbArena.serve, sdbArenaPop, Bump.serve, hge]
    by_cases hle : n ≤ b.cur
    · simpa [hle] using h.drop hn hle
    · simpa [hle] using h
  | reserve n =>
    have hn := toNat_ofNat_of_lt hr
    simp only [SdbArena.serve, sdbArenaReserve, sdbArenaRemaining, Bump.serve,
      h.add_le_iff hcap hn hr]
    by_cases hfit : b.cur + n ≤ b.cap
    · simpa [hfit, hn] using h.bump hn hfit
    · simpa [hfit, h.toNat_left] using h
  | seek p =>
    have hpos : p ≤ b.cap := hr
    obtain ⟨hp, hle⟩ := h.ofNat_le hcap hpos
    simpa [SdbArena.serve, sdbArenaSeek, Bump.serve, hle, hpos, hp] using h.moveTo hpos hp
  | reset => exact ⟨rfl, h.moveTo (Nat.zero_le _) rfl⟩
  | position => exact ⟨congrArg Reply.size h.cur_eq, h⟩
  | capacity => exact ⟨congrArg Reply.size h.cap_eq, h⟩

end Refinement

/-! ### Runs -/

variable {b : Bump} {rs : List Request}

theorem UArena.trace_eq {ua : UArena} (h : b.InWords ua.cap ua.cur) (hcap : b.cap < 2 ^ 63)
    (hrs : ∀ r ∈ rs, Bump.Admissible b.cap r) :
    trace UArena.answer ua rs = some (outputs Bump.answer b rs) :=
  Bump.trace_eq_of_serve UArena.cap UArena.cur UArena.serve_refines h hcap hrs

theorem SdbArena.trace_eq {arena : SdbArena} (h : b.InWords arena.cap arena.cur)
    (hcap : b.cap < 2 ^ 63) (hrs : ∀ r ∈ rs, Bump.Admissible b.cap r) :
    trace SdbArena.answer arena rs = some (outputs Bump.answer b rs) :=
  Bump.trace_eq_of_serve SdbArena.cap SdbArena.cur SdbArena.serve_refines h hcap hrs

end Lmalloc.Arena
