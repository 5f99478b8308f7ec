/-
  Lmalloc/Poc/UArena.lean
  =======================
  **The arena of the page-zeroing experiment, `poc/page_zalloc/u_arena.c`.**

  This arena rounds every size up to a multiple of its alignment before it moves the
  cursor, and its `u_arena_zalloc` clears memory a page at a time, through
  `zero_new_pages`, where the `u_arena_fzalloc` next to it clears each block.

  `size_t` is `UInt64` and `ssize_t` is `Int64`; both wrap, and a value is converted
  from one to the other by keeping its bits.  What a function clears is returned as a
  span, and `Memory.clear` is what `explicit_bzero` does there.

  Behind the functions stands what `zero_new_pages` computes, in numbers: its count of
  the bytes that are missing from the current page is a difference modulo `2^64`, read
  as a signed number (`missing`, `zeroNewPages_of_cur_ne`).
-/
import Lmalloc.Library.Align
import Lmalloc.Library.Memory
import Lmalloc.Library.Word

namespace Lmalloc.Poc

open Lmalloc.Library Lmalloc.Library.Word

/-! ### The arena -/

structure UArena where
  alignment : UInt64
  pageSz : UInt64
  lastPageStart : UInt64
  cap : UInt64
  cur : UInt64
  mem : ℕ      -- the address of the first byte
deriving DecidableEq, Repr

/-- The macro, at the type of its arguments. -/
def lmPaddingToAlign {α : Type} [Sub α] [Mod α] (value alignment : α) : α :=
  (alignment - value % alignment) % alignment

def lmIsPowerOfTwo (n : UInt64) : Prop := n ≠ 0 ∧ n &&& (n - 1) = 0

instance (n : UInt64) : Decidable (lmIsPowerOfTwo n) :=
  inferInstanceAs (Decidable (_ ∧ _))

/-- The result is `none` where the assertion on the alignment fails.  The field
    `last_page_start` keeps what the memory of the struct held before. -/
def uArenaInit (asserts : Bool) (a : UArena) (alignment pageSz cap : UInt64) (mem : ℕ) :
    Option UArena :=
  if asserts = true ∧ ¬ (lmIsPowerOfTwo alignment ∧ alignment ≤ 4096) then none
  else some { a with alignment := alignment, pageSz := pageSz, cur := 0, cap := cap, mem := mem }

theorem uArenaInit_of_valid {asserts : Bool} {a : UArena} {alignment pageSz cap : UInt64} {mem : ℕ}
    (hpower : lmIsPowerOfTwo alignment) (hle : alignment ≤ 4096) :
    uArenaInit asserts a alignment pageSz cap mem =
      some { a with
        alignment := alignment, pageSz := pageSz, cur := 0, cap := cap, mem := mem } :=
  if_neg fun hasserts => hasserts.2 ⟨hpower, hle⟩

/-! ### The functions -/

/-- What a function that allocates leaves behind; `NULL` is `none`, and `cleared` is what
    it passes to `explicit_bzero`. -/
structure Result where
  ptr : Option ℕ
  arena : UArena
  cleared : Option Span
deriving DecidableEq, Repr

def alignedSz (a : UArena) (size : UInt64) : UInt64 := size + lmPaddingToAlign size a.alignment

def uArenaAlloc (a : UArena) (size : UInt64) : Result :=
  if a.cur + alignedSz a size ≤ a.cap then
    ⟨some (a.mem + a.cur.toNat), { a with cur := a.cur + alignedSz a size }, none⟩
  else ⟨none, a, none⟩

def zeroNewPages (a : UArena) (alignedSz : UInt64) : Option Span × UArena :=
  if a.cur = 0 then (some ⟨a.mem, a.pageSz.toNat⟩, a)
  else
    let usedInCurrentPage : Int64 := (a.cur - a.lastPageStart).toInt64
    let availableInCurrentPage : Int64 := (a.pageSz - usedInCurrentPage.toUInt64).toInt64
    let memNeededFromNewPages : Int64 := (alignedSz - availableInCurrentPage.toUInt64).toInt64
    if memNeededFromNewPages ≤ 0 then (none, a)
    else
      let memToClear : UInt64 :=
        (memNeededFromNewPages + lmPaddingToAlign memNeededFromNewPages 4096).toUInt64
      let startNextUntouchedPage := a.mem + a.lastPageStart.toNat + a.pageSz.toNat
      (some ⟨startNextUntouchedPage, memToClear.toNat⟩,
        { a with lastPageStart := a.lastPageStart + memToClear })

/-- The pages are cleared before the capacity is looked at. -/
def uArenaZalloc (a : UArena) (size : UInt64) : Result :=
  let sz := alignedSz a size
  let zeroed := zeroNewPages a sz
  let a := zeroed.2
  if a.cur + sz ≤ a.cap then
    ⟨some (a.mem + a.cur.toNat), { a with cur := a.cur + sz }, zeroed.1⟩
  else ⟨none, a, zeroed.1⟩

/-- The variant that clears each block; it does not look at the capacity. -/
def uArenaFzalloc (a : UArena) (size : UInt64) : Result :=
  let sz := alignedSz a size
  let ptr := a.mem + a.cur.toNat
  ⟨some ptr, { a with cur := a.cur + sz }, some ⟨ptr, sz.toNat⟩⟩

def uArenaFree (a : UArena) : UArena := { a with cur := 0 }

def uArenaPop (a : UArena) (size : UInt64) : UArena :=
  if size % a.alignment = 0 ∧ 0 ≤ a.cur.toInt64 - size.toInt64 then { a with cur := a.cur - size }
  else a

def uArenaSetAlignment (a : UArena) (alignment : UInt64) : UArena :=
  if lmIsPowerOfTwo alignment ∧ alignment ≤ 4096 then { a with alignment := alignment } else a

def uArenaSeek (a : UArena) (pos : UInt64) : Result :=
  if pos ≤ a.cap ∧ pos % a.alignment = 0 then
    ⟨some (a.mem + pos.toNat), { a with cur := pos }, none⟩
  else ⟨none, a, none⟩

/-! ### Rounding -/

theorem toNat_lmPaddingToAlign {value alignment : UInt64} (h : 0 < alignment.toNat) :
    (lmPaddingToAlign value alignment).toNat = padding value.toNat alignment.toNat := by
  have hmod : (value % alignment).toNat = value.toNat % alignment.toNat := UInt64.toNat_mod _ _
  have hle : (value % alignment).toNat ≤ alignment.toNat := by
    rw [hmod]
    exact Nat.le_of_lt (Nat.mod_lt _ h)
  rw [lmPaddingToAlign, UInt64.toNat_mod, toNat_sub_of_le hle, hmod, padding]

/-- The sum that rounds the size up does not wrap. -/
def RoundsUp (a : UArena) (size : UInt64) : Prop :=
  size.toNat + (lmPaddingToAlign size a.alignment).toNat < 2 ^ 64

theorem toNat_alignedSz {a : UArena} {size : UInt64} (hpos : 0 < a.alignment.toNat)
    (h : RoundsUp a size) : (alignedSz a size).toNat = alignUp size.toNat a.alignment.toNat := by
  rw [alignedSz, toNat_add_of_lt h, toNat_lmPaddingToAlign hpos, alignUp]

/-! ### What `zero_new_pages` computes -/

theorem toInt64_nonpos_iff {a : UInt64} : a.toInt64 ≤ 0 ↔ a.toNat = 0 ∨ 2 ^ 63 ≤ a.toNat := by
  have hbits : a.toInt64.toInt = a.toBitVec.toInt := rfl
  have hnat : a.toBitVec.toNat = a.toNat := rfl
  have hzero : (0 : Int64).toInt = 0 := rfl
  have hlt : a.toNat < 2 ^ 64 := a.toNat_lt
  rw [Int64.le_iff_toInt_le, hbits, hzero, BitVec.toInt_eq_toNat_cond, hnat]
  split <;> omega

/-- The padding of a count, computed in `ssize_t`. -/
theorem toInt_lmPaddingToAlign {x : UInt64} (h : x.toNat < 2 ^ 63) :
    (lmPaddingToAlign x.toInt64 4096).toInt = (padding x.toNat 4096 : ℕ) := by
  have hpage : (4096 : Int64).toInt = (4096 : ℕ) := rfl
  have hrest : (x.toInt64 % 4096).toInt = (x.toNat % 4096 : ℕ) := by
    rw [Int64.toInt_mod, toInt_toInt64_of_lt h, hpage]
    rfl
  have hsub : (4096 - x.toInt64 % 4096).toInt = (4096 - x.toNat % 4096 : ℕ) := by
    rw [Int64.toInt_sub, hrest, hpage]
    rw [Int.bmod_eq_of_le] <;> omega
  rw [lmPaddingToAlign, Int64.toInt_mod, hsub, hpage]
  rfl

theorem toNat_memToClear {x : UInt64} (h : x.toNat < 2 ^ 63) :
    (x.toInt64 + lmPaddingToAlign x.toInt64 4096).toUInt64.toNat = alignUp x.toNat 4096 := by
  have hpadlt : padding x.toNat 4096 < 4096 := padding_lt (by omega) x.toNat
  have hpad : lmPaddingToAlign x.toInt64 4096 = (UInt64.ofNat (padding x.toNat 4096)).toInt64 := by
    apply Int64.toInt_inj.mp
    rw [toInt_lmPaddingToAlign h, toInt_toInt64_of_lt]
    · rw [toNat_ofNat_of_lt (by omega)]
    · rw [toNat_ofNat_of_lt (by omega)]
      omega
  have hsum : (x.toInt64 + (UInt64.ofNat (padding x.toNat 4096)).toInt64).toUInt64 =
      x + UInt64.ofNat (padding x.toNat 4096) := rfl
  rw [hpad, hsum, toNat_add_of_lt, toNat_ofNat_of_lt (by omega), alignUp]
  rw [toNat_ofNat_of_lt (by omega)]
  omega

/-- The offset behind the last page that was cleared. -/
def UArena.frontier (a : UArena) : ℕ := a.lastPageStart.toNat + a.pageSz.toNat

/-- How far `stop` lies behind the frontier, as a word. -/
def UArena.missing (a : UArena) (stop : ℕ) : ℕ :=
  if a.frontier ≤ stop then stop - a.frontier else stop + 2 ^ 64 - a.frontier

theorem toNat_missing {a : UArena} {sz : UInt64} (hfrontier : a.frontier < 2 ^ 64)
    (hsum : a.cur.toNat + sz.toNat < 2 ^ 64) :
    (sz - (a.pageSz - (a.cur - a.lastPageStart))).toNat = a.missing (a.cur.toNat + sz.toNat) := by
  have hcur := a.cur.toNat_lt
  have hlast := a.lastPageStart.toNat_lt
  have hpage := a.pageSz.toNat_lt
  unfold UArena.frontier at hfrontier
  rw [UArena.missing, UArena.frontier, UInt64.toNat_sub, UInt64.toNat_sub, UInt64.toNat_sub]
  split <;> omega

/-- Behind the start of the arena it clears the missing bytes and the rest of their last
    page, unless there are none or there are too many for a signed number. -/
theorem zeroNewPages_of_cur_ne {a : UArena} {sz : UInt64} (hcur : a.cur ≠ 0)
    (hfrontier : a.frontier < 2 ^ 64) (hsum : a.cur.toNat + sz.toNat < 2 ^ 64) :
    zeroNewPages a sz =
      let missing := a.missing (a.cur.toNat + sz.toNat)
      if 0 < missing ∧ missing < 2 ^ 63 then
        (some ⟨a.mem + a.frontier, alignUp missing 4096⟩,
          { a with lastPageStart := a.lastPageStart + UInt64.ofNat (alignUp missing 4096) })
      else (none, a) := by
  have hmissing := toNat_missing hfrontier hsum
  have hcount : ((sz - (a.pageSz - (a.cur - a.lastPageStart).toInt64.toUInt64).toInt64.toUInt64)) =
      sz - (a.pageSz - (a.cur - a.lastPageStart)) := rfl
  simp only [zeroNewPages, if_neg hcur, hcount, toInt64_nonpos_iff]
  generalize sz - (a.pageSz - (a.cur - a.lastPageStart)) = x at hmissing ⊢
  rw [← hmissing]
  by_cases hclears : 0 < x.toNat ∧ x.toNat < 2 ^ 63
  · have hsz := toNat_memToClear hclears.2
    rw [if_pos hclears, if_neg (by omega), hsz, ← hsz, UInt64.ofNat_toNat, UArena.frontier,
      Nat.add_assoc]
  · rw [if_neg hclears, if_pos (by omega)]

theorem zeroNewPages_snd (a : UArena) (sz : UInt64) :
    (zeroNewPages a sz).2 = { a with lastPageStart := (zeroNewPages a sz).2.lastPageStart } := by
  simp only [zeroNewPages]
  split
  · rfl
  · split
    · rfl
    · rfl

/-- Clearing pages leaves the test of the capacity as it is. -/
theorem uArenaZalloc_of_lt {a : UArena} {size : UInt64}
    (hsum : a.cur.toNat + (alignedSz a size).toNat < 2 ^ 64) :
    uArenaZalloc a size =
      let zeroed := zeroNewPages a (alignedSz a size)
      if a.cur.toNat + (alignedSz a size).toNat ≤ a.cap.toNat then
        ⟨some (a.mem + a.cur.toNat), { zeroed.2 with cur := a.cur + alignedSz a size }, zeroed.1⟩
      else ⟨none, zeroed.2, zeroed.1⟩ := by
  have hsnd := zeroNewPages_snd a (alignedSz a size)
  have hcur : (zeroNewPages a (alignedSz a size)).2.cur = a.cur := by rw [hsnd]
  have hcap : (zeroNewPages a (alignedSz a size)).2.cap = a.cap := by rw [hsnd]
  have hmem : (zeroNewPages a (alignedSz a size)).2.mem = a.mem := by rw [hsnd]
  simp only [uArenaZalloc, hcur, hcap, hmem, add_le_iff_of_lt hsum]

end Lmalloc.Poc
