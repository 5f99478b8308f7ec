/-
  Lmalloc/Arena/Cursor.lean
  =========================
  **The cursor of a `UArena` under all of its operations.**

  `cur <= cap` survives every operation but one.  The additions of the
  allocating calls may wrap, and then the cursor moves down; `ua_seek` and the
  release of a scratch check the position.  `ua_pop` tests the sign of a
  difference: a size of more than `cur + 2^63` makes the difference positive
  again, and the pop moves the cursor up.
-/
import Lmalloc.Arena.UArenaBlocks

namespace Lmalloc.Arena

open Lmalloc.Library Lmalloc.Library.Word

inductive CursorOp where
  | call (c : Call)                -- `ua_alloc`, `ua_zalloc` or `ua_reserve`
  | pop (size : UInt64)
  | seek (pos : UInt64)
  | free
  | scratchBegin
  | scratchRelease (k : ℕ)         -- the scratch begun as number `k`
deriving DecidableEq, Repr

/-- The arena at address `self`, and the scratches begun on it. -/
structure Cursor where
  self : Addr
  heap : Heap
  begun : List UAScratch

def Cursor.setArena (c : Cursor) (ua : UArena) : Cursor :=
  { c with heap := { c.heap with ua := ua } }

def Cursor.step (c : Cursor) : CursorOp → Option Cursor
  | .call call => some { c with heap := (c.heap.call call).2 }
  | .pop size => some (c.setArena (uaPop c.heap.ua size))
  | .seek pos => some (c.setArena (uaSeek c.heap.ua pos).2)
  | .free => some (c.setArena (uaFree c.heap.ua))
  | .scratchBegin =>
      some { c with begun := c.begun ++ [uaScratchBegin (some (c.self, c.heap.ua))] }
  | .scratchRelease k =>
      (c.begun[k]?).map fun uas => c.setArena (uaScratchRelease uas c.heap.ua)

def Cursor.Within (c : Cursor) : Prop := c.heap.ua.cur ≤ c.heap.ua.cap

instance (c : Cursor) : Decidable c.Within := by unfold Cursor.Within; infer_instance

/-- If the operation is a pop, the cursor does not go up. -/
def Cursor.PopLowers (c : Cursor) (op : CursorOp) : Prop :=
  ∀ size, op = .pop size → (uaPop c.heap.ua size).cur ≤ c.heap.ua.cur

/-- If the operation is a pop, its size is at most `cur + 2^63`. -/
def Cursor.PopInRange (c : Cursor) : CursorOp → Prop
  | .pop size => size.toNat ≤ c.heap.ua.cur.toNat + 2 ^ 63
  | _ => True

/-! ### Each operation -/

/-- What a pop does to the cursor, for every size. -/
theorem cur_uaPop (ua : UArena) (size : UInt64) :
    (uaPop ua size).cur = if (ua.cur - size).toNat < 2 ^ 63 then ua.cur - size else ua.cur := by
  simp only [uaPop, signed_sub_nonneg_iff_lt]
  split
  · rfl
  · rfl

theorem cap_uaPop (ua : UArena) (size : UInt64) : (uaPop ua size).cap = ua.cap := by
  simp only [uaPop]
  split
  · rfl
  · rfl

/-- **A pop lowers the cursor, or leaves it, exactly when its size is at most
    `cur + 2^63`.** -/
theorem cur_uaPop_le_iff (ua : UArena) (size : UInt64) :
    (uaPop ua size).cur ≤ ua.cur ↔ size.toNat ≤ ua.cur.toNat + 2 ^ 63 := by
  have hsize : size.toNat < 2 ^ 64 := size.toNat_lt
  rw [cur_uaPop]
  rcases Nat.lt_or_ge ua.cur.toNat size.toNat with hlt | hge
  · have hdiff := toNat_sub_of_lt hlt
    rw [hdiff]
    split
    · rw [UInt64.le_iff_toNat_le, hdiff]
      omega
    · have hrange : size.toNat ≤ ua.cur.toNat + 2 ^ 63 := by omega
      exact iff_of_true (UInt64.le_refl _) hrange
  · have hrange : size.toNat ≤ ua.cur.toNat + 2 ^ 63 := by omega
    refine iff_of_true ?_ hrange
    split
    · rw [UInt64.le_iff_toNat_le, toNat_sub_of_le hge]
      exact Nat.sub_le _ _
    · exact UInt64.le_refl _

/-- The test of the three allocating calls passes only when the cursor it leaves is
    within the capacity. -/
theorem cur_call_le {h : Heap} (hcur : h.ua.cur ≤ h.ua.cap) (c : Call) :
    (h.call c).2.ua.cur ≤ (h.call c).2.ua.cap := by
  cases c with
  | alloc size =>
    simp only [Heap.call, uaAlloc]
    split
    · assumption
    · exact hcur
  | zalloc size =>
    simp only [Heap.call, uaZalloc]
    split
    · assumption
    · exact hcur
  | reserve sz =>
    simp only [Heap.call, uaReserve]
    split
    · assumption
    · exact hcur

theorem cur_uaSeek_le {ua : UArena} (hcur : ua.cur ≤ ua.cap) (pos : UInt64) :
    (uaSeek ua pos).2.cur ≤ (uaSeek ua pos).2.cap := by
  simp only [uaSeek]
  split
  · assumption
  · exact hcur

theorem within_step (c : Cursor) (op : CursorOp) (c' : Cursor) (h : c.Within)
    (hpop : c.PopInRange op) (hs : c.step op = some c') : c'.Within := by
  cases op with
  | call call =>
    cases hs
    exact cur_call_le h call
  | pop size =>
    cases hs
    have hle := (cur_uaPop_le_iff c.heap.ua size).mpr hpop
    rw [Cursor.Within, Cursor.setArena, cap_uaPop]
    exact UInt64.le_trans hle h
  | seek pos =>
    cases hs
    exact cur_uaSeek_le h pos
  | free =>
    cases hs
    exact UInt64.zero_le
  | scratchBegin =>
    cases hs
    exact h
  | scratchRelease k =>
    obtain ⟨uas, _, rfl⟩ := Option.map_eq_some_iff.mp hs
    exact cur_uaSeek_le h uas.f5

theorem popLowers_iff (c : Cursor) (op : CursorOp) : c.PopLowers op ↔ c.PopInRange op := by
  cases op with
  | pop size =>
    rw [Cursor.PopInRange, ← cur_uaPop_le_iff]
    constructor
    · exact fun h => h size rfl
    · rintro h _ ⟨⟩
      exact h
  | call _ | seek _ | free | scratchBegin | scratchRelease _ =>
    simp [Cursor.PopLowers, Cursor.PopInRange]

/-! ### Whole runs -/

/-- The arena `hundred` at address 64. -/
def cursorAt64 : Cursor := ⟨64, hundred, []⟩

end Lmalloc.Arena
