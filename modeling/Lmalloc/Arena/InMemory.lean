/-
  Lmalloc/Arena/InMemory.lean
  ===========================
  **`UArena`s as the bytes they are.**

  The functions of `u_arena.c` take a pointer to the arena.  Its four words are in
  the same memory as everything else, for a bootstrapped arena inside a block of
  its parent, so a function that writes bytes may write over an arena.

  Each function reads the arena, and on success stores the new cursor; only then
  does `ua_zalloc` clear the block.
-/
import Lmalloc.Arena.UArenaBlocks
import Lmalloc.Library.CMemory

namespace Lmalloc.Arena

open Lmalloc.Library Lmalloc.Library.Word

/-- `sizeof(UArena)`: the words `flags`, `cap`, `cur` and `mem`. -/
def arenaSize : ℕ := 32

def loadArena (m : Memory) (ua : ℕ) : UArena :=
  { flags := m.loadWord ua
    cap := m.loadWord (ua + 8)
    cur := m.loadWord (ua + 16)
    mem := (m.loadWord (ua + 24)).toNat }

def storeCur (m : Memory) (ua : ℕ) (cur : UInt64) : Memory := m.storeWord (ua + 16) cur

/-! ### The functions -/

def uaInitAt (m : Memory) (ua : ℕ) (contiguous mallocd bootstrapped : Bool) (cap : UInt64)
    (mem : ℕ) : Memory :=
  let m := m.storeWord ua (uaInit contiguous mallocd bootstrapped cap mem).flags
  let m := storeCur m ua 0
  let m := m.storeWord (ua + 8) cap
  m.storeWord (ua + 24) (UInt64.ofNat mem)

def uaAllocAt (m : Memory) (ua : ℕ) (size : UInt64) : Option ℕ × Memory :=
  let a := loadArena m ua
  if a.cur + size ≤ a.cap then (some a.top, storeCur m ua (a.cur + size)) else (none, m)

def uaZallocAt (m : Memory) (ua : ℕ) (size : UInt64) : Option ℕ × Memory :=
  let a := loadArena m ua
  if a.cur + size ≤ a.cap then
    (some a.top, (storeCur m ua (a.cur + size)).fill ⟨a.top, size.toNat⟩ 0)
  else (none, m)

def uaReserveAt (m : Memory) (ua : ℕ) (sz : UInt64) : UInt64 × Memory :=
  let a := loadArena m ua
  if a.cur + sz ≤ a.cap then (sz, storeCur m ua (a.cur + sz)) else (a.cap - a.cur, m)

/-- The second half of `ua_bootstrap`.  The memory is taken from `ua` also when there
    is no room for the header. -/
def uaBootstrapMem (m : Memory) (ua : ℕ) (new : Option ℕ) (cap : UInt64) : Option ℕ × Memory :=
  match new, uaZallocAt m ua cap with
  | some new, (some mem, m) => (some new, uaInitAt m new false false true cap mem)
  | _, (_, m) => (none, m)

def uaBootstrapAt (m : Memory) (ua : ℕ) (newExisting : Option ℕ) (cap : UInt64) :
    Option ℕ × Memory :=
  match newExisting with
  | some p => uaBootstrapMem m ua (some p) cap
  | none =>
      let r := uaAllocAt m ua (UInt64.ofNat arenaSize)
      uaBootstrapMem r.2 ua r.1 cap

/-- What becomes of the block: `ua_zalloc` clears it. -/
def Call.clear (block : Span) (m : Memory) : Call → Memory
  | .zalloc _ => m.fill block 0
  | .alloc _ | .reserve _ => m

/-- One of the allocating calls; the span is the block handed out. -/
def callAt (m : Memory) (ua : ℕ) : Call → Option Span × Memory
  | .alloc size =>
      let r := uaAllocAt m ua size
      (r.1.map fun ptr => ⟨ptr, size.toNat⟩, r.2)
  | .zalloc size =>
      let r := uaZallocAt m ua size
      (r.1.map fun ptr => ⟨ptr, size.toNat⟩, r.2)
  | .reserve sz =>
      let r := uaReserveAt m ua sz
      (if r.1 = sz then some ⟨(loadArena m ua).top, sz.toNat⟩ else none, r.2)

/-! ### Reading and writing an arena -/

section Header

variable {m m' : Memory} {ua : ℕ}

theorem loadArena_congr (h : ∀ i : ℕ, i < arenaSize → m (ua + i) = m' (ua + i)) :
    loadArena m ua = loadArena m' ua := by
  have hword : ∀ k : ℕ, k ≤ 24 → m.loadWord (ua + k) = m'.loadWord (ua + k) := by
    intro k hk
    refine Memory.loadWord_congr fun i hi => ?_
    rw [Nat.add_assoc]
    exact h (k + i) (by simp only [arenaSize]; omega)
  have hfirst := hword 0 (by omega)
  rw [Nat.add_zero] at hfirst
  simp only [loadArena, hfirst, hword 8 (by omega), hword 16 (by omega), hword 24 (by omega)]

theorem storeCur_of_outside {cur : UInt64} {a : ℕ} (h : a < ua + 16 ∨ ua + 24 ≤ a) :
    storeCur m ua cur a = m a :=
  Memory.storeWord_of_outside (by omega)

theorem loadArena_storeCur (cur : UInt64) :
    loadArena (storeCur m ua cur) ua = { loadArena m ua with cur := cur } := by
  simp only [loadArena, storeCur, Memory.loadWord_storeWord]
  rw [Memory.loadWord_storeWord_of_disjoint (by omega),
    Memory.loadWord_storeWord_of_disjoint (by omega),
    Memory.loadWord_storeWord_of_disjoint (by omega)]

variable {contiguous mallocd bootstrapped : Bool} {cap : UInt64} {mem : ℕ}

theorem uaInitAt_of_outside {a : ℕ} (h : a < ua ∨ ua + arenaSize ≤ a) :
    uaInitAt m ua contiguous mallocd bootstrapped cap mem a = m a := by
  simp only [arenaSize] at h
  simp only [uaInitAt]
  rw [Memory.storeWord_of_outside (by omega), Memory.storeWord_of_outside (by omega),
    storeCur_of_outside (by omega), Memory.storeWord_of_outside (by omega)]

/-- `ua_init` in memory is `ua_init`. -/
theorem loadArena_uaInitAt (hmem : mem < 2 ^ 64) :
    loadArena (uaInitAt m ua contiguous mallocd bootstrapped cap mem) ua =
      uaInit contiguous mallocd bootstrapped cap mem := by
  have hflags : (uaInitAt m ua contiguous mallocd bootstrapped cap mem).loadWord ua =
      (uaInit contiguous mallocd bootstrapped cap mem).flags := by
    simp only [uaInitAt, storeCur]
    rw [Memory.loadWord_storeWord_of_disjoint (by omega),
      Memory.loadWord_storeWord_of_disjoint (by omega),
      Memory.loadWord_storeWord_of_disjoint (by omega), Memory.loadWord_storeWord]
  have hcap : (uaInitAt m ua contiguous mallocd bootstrapped cap mem).loadWord (ua + 8) = cap := by
    simp only [uaInitAt, storeCur]
    rw [Memory.loadWord_storeWord_of_disjoint (by omega), Memory.loadWord_storeWord]
  have hcur : (uaInitAt m ua contiguous mallocd bootstrapped cap mem).loadWord (ua + 16) = 0 := by
    simp only [uaInitAt, storeCur]
    rw [Memory.loadWord_storeWord_of_disjoint (by omega),
      Memory.loadWord_storeWord_of_disjoint (by omega), Memory.loadWord_storeWord]
  have hptr : ((uaInitAt m ua contiguous mallocd bootstrapped cap mem).loadWord (ua + 24)).toNat =
      mem := by
    simp only [uaInitAt, Memory.loadWord_storeWord]
    exact toNat_ofNat_of_lt_size hmem
  rw [loadArena, hflags, hcap, hcur, hptr]
  rfl

end Header

/-! ### One call -/

section CallAt

variable {m : Memory} {ua : ℕ} {c : Call}

theorem callAt_of_full (hfull : ¬ (loadArena m ua).cur + c.size ≤ (loadArena m ua).cap) :
    callAt m ua c = (none, m) := by
  cases c with
  | alloc size =>
    have halloc : uaAllocAt m ua size = (none, m) := if_neg hfull
    simp only [callAt, halloc]
    rfl
  | zalloc size =>
    have hzalloc : uaZallocAt m ua size = (none, m) := if_neg hfull
    simp only [callAt, hzalloc]
    rfl
  | reserve sz =>
    have hreserve : uaReserveAt m ua sz =
        ((loadArena m ua).cap - (loadArena m ua).cur, m) := if_neg hfull
    have hshort : ¬ (loadArena m ua).cap - (loadArena m ua).cur = sz := reserve_short hfull
    simp only [callAt, hreserve, if_neg hshort]

theorem callAt_alloc (size : UInt64) :
    callAt m ua (.alloc size) =
      ((uaAllocAt m ua size).1.map fun ptr => ⟨ptr, size.toNat⟩, (uaAllocAt m ua size).2) := rfl

theorem callAt_zalloc (size : UInt64) :
    callAt m ua (.zalloc size) =
      ((uaZallocAt m ua size).1.map fun ptr => ⟨ptr, size.toNat⟩, (uaZallocAt m ua size).2) := rfl

theorem clear_of_notMem {block : Span} {a : ℕ} (h : a ∉ block.cells) :
    c.clear block m a = m a := by
  cases c with
  | alloc _ | reserve _ => rfl
  | zalloc _ => exact Memory.fill_of_notMem h

/-- A call that fits stores the new cursor; a `zalloc` then clears the block. -/
theorem callAt_of_fits (hfit : (loadArena m ua).cur + c.size ≤ (loadArena m ua).cap) :
    callAt m ua c = (some ⟨(loadArena m ua).top, c.size.toNat⟩,
      c.clear ⟨(loadArena m ua).top, c.size.toNat⟩
        (storeCur m ua ((loadArena m ua).cur + c.size))) := by
  cases c with
  | alloc size =>
    simp only [Call.size] at hfit ⊢
    simp only [callAt, uaAllocAt, if_pos hfit, Option.map_some, Call.clear]
  | zalloc size =>
    simp only [Call.size] at hfit ⊢
    simp only [callAt, uaZallocAt, if_pos hfit, Option.map_some, Call.clear]
  | reserve sz =>
    simp only [Call.size] at hfit ⊢
    simp only [callAt, uaReserveAt, if_pos hfit, if_true, Call.clear]

/-- In memory a call hands out what it hands out by itself. -/
theorem callAt_fst : (callAt m ua c).1 = (Heap.call ⟨loadArena m ua, m⟩ c).1 := by
  by_cases hfit : (loadArena m ua).cur + c.size ≤ (loadArena m ua).cap
  · rw [callAt_of_fits hfit, (@call_of_fits ⟨loadArena m ua, m⟩ c hfit).1]
  · rw [callAt_of_full hfit, @call_of_full ⟨loadArena m ua, m⟩ c hfit]

/-- The bytes a call may change: the cursor and the block. -/
theorem callAt_frame {a : ℕ} (hcur : a < ua + 16 ∨ ua + 24 ≤ a)
    (hblock : a < (loadArena m ua).top ∨ (loadArena m ua).top + c.size.toNat ≤ a) :
    (callAt m ua c).2 a = m a := by
  by_cases hfit : (loadArena m ua).cur + c.size ≤ (loadArena m ua).cap
  · have hnot : a ∉ Span.cells ⟨(loadArena m ua).top, c.size.toNat⟩ := by
      simp only [Span.mem_cells, Span.stop]
      omega
    rw [callAt_of_fits hfit]
    exact (clear_of_notMem hnot).trans (storeCur_of_outside hcur)
  · rw [callAt_of_full hfit]

/-- If the arena is not in the block, it is as before with the new cursor. -/
theorem loadArena_callAt (hfit : (loadArena m ua).cur + c.size ≤ (loadArena m ua).cap)
    (hapart : Disjoint (Span.cells ⟨ua, arenaSize⟩)
      (Span.cells ⟨(loadArena m ua).top, c.size.toNat⟩)) :
    loadArena (callAt m ua c).2 ua =
      { loadArena m ua with cur := (loadArena m ua).cur + c.size } := by
  rw [callAt_of_fits hfit, ← loadArena_storeCur]
  refine loadArena_congr fun i hi => clear_of_notMem (Set.disjoint_left.mp hapart ?_)
  exact ⟨Nat.le_add_right _ _, Nat.add_lt_add_left hi ua⟩

end CallAt

end Lmalloc.Arena
