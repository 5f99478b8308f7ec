/-
  Lmalloc/Arena/UArenaBlocks.lean
  ===============================
  **The blocks a `UArena` hands out.**

  `ua_alloc`, `ua_zalloc` and `ua_reserve` share one capacity test,
  `cur + size <= cap`, in wrapping arithmetic.  As long as no call of a run makes
  that sum wrap, the run is one of the abstract `Bump` allocator and its blocks
  are stacked between the cursor and the capacity.  The first call that does wrap
  passes the test and hands out a block that reaches past the arena.
-/
import Lmalloc.Arena.UArena

namespace Lmalloc.Arena

open Lmalloc.Library

/-- The calls that hand out memory. -/
inductive Call where
  | alloc (size : UInt64)     -- `ua_alloc`
  | zalloc (size : UInt64)    -- `ua_zalloc`
  | reserve (sz : UInt64)     -- `ua_reserve`
deriving DecidableEq, Repr

def Call.size : Call → UInt64
  | .alloc size => size
  | .zalloc size => size
  | .reserve sz => sz

def Call.request : Call → Request
  | .alloc size => .take size.toNat
  | .zalloc size => .take size.toNat
  | .reserve sz => .reserve sz.toNat

/-- An arena together with the memory it lives in. -/
structure Heap where
  ua : UArena
  memory : Memory

/-- Run one call; the span is the block handed out, if the call succeeded.  A
    reserve succeeds when it returns the requested size, and hands out the bytes
    from the position it found the cursor at. -/
def Heap.call (h : Heap) : Call → Option Span × Heap
  | .alloc size =>
      let r := uaAlloc h.ua size
      (r.1.map fun ptr => ⟨ptr, size.toNat⟩, { h with ua := r.2 })
  | .zalloc size =>
      let r := uaZalloc h.ua size h.memory
      (r.1.map fun ptr => ⟨ptr, size.toNat⟩, { ua := r.2.1, memory := r.2.2 })
  | .reserve sz =>
      let r := uaReserve h.ua sz
      (if r.1 = sz then some ⟨h.ua.mem + h.ua.cur.toNat, sz.toNat⟩ else none,
        { h with ua := r.2 })

/-- The same as a machine: every call can be made in every state. -/
def Heap.step (h : Heap) (c : Call) : Option Heap := some (h.call c).2

def blocks : Heap → List Call → List Span
  | _, [] => []
  | h, c :: cs => (h.call c).1.toList ++ blocks (h.call c).2 cs

/-- The sum in the capacity test of the call fits into a `size_t`. -/
def NoWrap (h : Heap) (c : Call) : Prop := h.ua.cur.toNat + c.size.toNat < 2 ^ 64

instance (h : Heap) (c : Call) : Decidable (NoWrap h c) := by unfold NoWrap; infer_instance

/-- Every block lies inside the arena and no two of them share a byte. -/
def BlocksSound (ua : UArena) (ss : List Span) : Prop :=
  (∀ s ∈ ss, s.Within ua.mem (ua.mem + ua.cap.toNat)) ∧ Span.PairwiseDisjoint ss

/-! ### One call -/

theorem call_mem_cap (h : Heap) (c : Call) :
    (h.call c).2.ua.mem = h.ua.mem ∧ (h.call c).2.ua.cap = h.ua.cap := by
  cases c with
  | alloc size => simp only [Heap.call, uaAlloc]; split <;> exact ⟨rfl, rfl⟩
  | zalloc size => simp only [Heap.call, uaZalloc]; split <;> exact ⟨rfl, rfl⟩
  | reserve sz => simp only [Heap.call, uaReserve]; split <;> exact ⟨rfl, rfl⟩

/-- When the reserve does not fit, the number it returns is not the one asked for. -/
theorem reserve_short {ua : UArena} {sz : UInt64} (h : ¬ ua.cur + sz ≤ ua.cap) :
    ua.cap - ua.cur ≠ sz := by
  intro heq
  apply h
  rw [← heq]
  have hsum : ua.cur + (ua.cap - ua.cur) = ua.cap := by
    rw [UInt64.add_comm, UInt64.sub_add_cancel]
  exact UInt64.le_of_eq hsum

/-- **A call that does not wrap is the abstract request**: it hands out the same
    block, based at `mem`, and leaves the same cursor. -/
theorem call_refines {h : Heap} {b : Bump} (hr : b.InWords h.ua.cap h.ua.cur) {c : Call} (hw : NoWrap h c) :
    (h.call c).1 = (b.handOut c.request).map (Span.shift h.ua.mem) ∧
      (b.serve c.request).2.InWords (h.call c).2.ua.cap (h.call c).2.ua.cur := by
  cases c with
  | alloc size =>
    replace hw : h.ua.cur.toNat + size.toNat < 2 ^ 64 := hw
    simp only [Heap.call, uaAlloc_of_lt hw, Call.request, Bump.handOut, Bump.serve,
      hr.cap_eq, hr.cur_eq]
    by_cases hfit : b.cur + size.toNat ≤ b.cap
    · simpa [hfit, Span.shift] using hr.bump rfl hfit
    · simpa [hfit] using hr
  | zalloc size =>
    replace hw : h.ua.cur.toNat + size.toNat < 2 ^ 64 := hw
    simp only [Heap.call, uaZalloc_of_lt hw, Call.request, Bump.handOut, Bump.serve,
      hr.cap_eq, hr.cur_eq]
    by_cases hfit : b.cur + size.toNat ≤ b.cap
    · simpa [hfit, Span.shift] using hr.bump rfl hfit
    · simpa [hfit] using hr
  | reserve sz =>
    replace hw : h.ua.cur.toNat + sz.toNat < 2 ^ 64 := hw
    have hshort := @reserve_short h.ua sz
    rw [Word.add_le_iff_of_lt hw, hr.cap_eq, hr.cur_eq] at hshort
    simp only [Heap.call, uaReserve_of_lt hw, Call.request, Bump.handOut, Bump.serve,
      hr.cap_eq, hr.cur_eq]
    by_cases hfit : b.cur + sz.toNat ≤ b.cap
    · simpa [hfit, Span.shift] using hr.bump rfl hfit
    · simpa [hfit, hshort hfit] using hr

/-- A call whose test passes hands out the block at the cursor. -/
theorem call_of_fits {h : Heap} {c : Call} (hfit : h.ua.cur + c.size ≤ h.ua.cap) :
    (h.call c).1 = some ⟨h.ua.top, c.size.toNat⟩ ∧
      (h.call c).2.ua = { h.ua with cur := h.ua.cur + c.size } := by
  cases c with
  | alloc size =>
    have halloc : uaAlloc h.ua size = (some h.ua.top, _) := if_pos hfit
    simp only [Heap.call, halloc]
    exact ⟨rfl, rfl⟩
  | zalloc size =>
    have hzalloc : uaZalloc h.ua size h.memory = (some h.ua.top, _, _) := if_pos hfit
    simp only [Heap.call, hzalloc]
    exact ⟨rfl, rfl⟩
  | reserve sz =>
    have hreserve : uaReserve h.ua sz = (sz, _) := if_pos hfit
    simp only [Heap.call, hreserve, if_true]
    exact ⟨rfl, rfl⟩

/-- A call whose test fails changes nothing. -/
theorem call_of_full {h : Heap} {c : Call} (hfull : ¬ h.ua.cur + c.size ≤ h.ua.cap) :
    h.call c = (none, h) := by
  cases c with
  | alloc size =>
    have halloc : uaAlloc h.ua size = (none, h.ua) := if_neg hfull
    simp only [Heap.call, halloc]
    rfl
  | zalloc size =>
    have hzalloc : uaZalloc h.ua size h.memory = (none, h.ua, h.memory) := if_neg hfull
    simp only [Heap.call, hzalloc]
    rfl
  | reserve sz =>
    have hreserve : uaReserve h.ua sz = (h.ua.cap - h.ua.cur, h.ua) := if_neg hfull
    have hshort : ¬ h.ua.cap - h.ua.cur = sz := reserve_short hfull
    simp only [Heap.call, hreserve, if_neg hshort]

/-- No call changes a byte outside the block it hands out. -/
theorem call_frame {h : Heap} {c : Call} {a : ℕ}
    (ha : a < h.ua.top ∨ h.ua.top + c.size.toNat ≤ a) :
    (h.call c).2.memory a = h.memory a := by
  cases c with
  | alloc size => rfl
  | reserve sz => rfl
  | zalloc size =>
    simp only [Heap.call, uaZalloc]
    split
    · refine Memory.fill_of_notMem ?_
      rintro ⟨hlo, hhi⟩
      rcases ha with hbelow | habove
      · exact Nat.not_lt_of_le hlo hbelow
      · exact Nat.not_lt_of_le habove hhi
    · rfl

/-- A call that wraps hands out a block that starts at the cursor and has the
    full requested size. -/
theorem call_of_wraps {h : Heap} (hcur : h.ua.cur ≤ h.ua.cap) {c : Call} (hw : ¬ NoWrap h c) :
    (h.call c).1 = some ⟨h.ua.mem + h.ua.cur.toNat, c.size.toNat⟩ := by
  cases c with
  | alloc size =>
    have hwrap : 2 ^ 64 ≤ h.ua.cur.toNat + size.toNat := Nat.le_of_not_lt hw
    simp only [Heap.call, uaAlloc_of_wraps hcur hwrap, Option.map_some, Call.size]
  | zalloc size =>
    have hwrap : 2 ^ 64 ≤ h.ua.cur.toNat + size.toNat := Nat.le_of_not_lt hw
    simp only [Heap.call, uaZalloc_of_wraps hcur hwrap, Option.map_some, Call.size]
  | reserve sz =>
    have hwrap : 2 ^ 64 ≤ h.ua.cur.toNat + sz.toNat := Nat.le_of_not_lt hw
    simp only [Heap.call, uaReserve_of_wraps hcur hwrap, if_true, Call.size]

theorem not_within_of_wraps {h : Heap} {c : Call} (hw : ¬ NoWrap h c) :
    ¬ Span.Within h.ua.mem (h.ua.mem + h.ua.cap.toNat)
      ⟨h.ua.mem + h.ua.cur.toNat, c.size.toNat⟩ := by
  have hcap : h.ua.cap.toNat < 2 ^ 64 := h.ua.cap.toNat_lt
  have hcur : h.ua.cur.toNat < 2 ^ 64 := h.ua.cur.toNat_lt
  have hwrap : 2 ^ 64 ≤ h.ua.cur.toNat + c.size.toNat := Nat.le_of_not_lt hw
  intro hin
  have hstop := hin.stop_le (show 0 < c.size.toNat by omega)
  simp only [Span.stop] at hstop
  omega

/-! ### Whole runs -/

/-- A run without wrapping hands out the blocks of the abstract run. -/
theorem blocks_eq_of_noWrap {h : Heap} {b : Bump} (hr : b.InWords h.ua.cap h.ua.cur) {cs : List Call}
    (hw : Along Heap.step NoWrap h cs) :
    blocks h cs = (b.blocks (cs.map Call.request)).map (Span.shift h.ua.mem) := by
  induction cs generalizing h b with
  | nil => rfl
  | cons c cs ih =>
    obtain ⟨hblock, hrest⟩ := call_refines hr hw.1
    have htail := ih hrest (hw.2 _ rfl)
    rw [(call_mem_cap h c).1] at htail
    simp only [blocks, List.map_cons, Bump.blocks, List.map_append, htail, hblock]
    rcases b.handOut c.request with _ | s
    · rfl
    · rfl

theorem grows_request (c : Call) : Bump.Grows c.request := by
  cases c <;> exact trivial

/-- **Runs without wrapping are sound.** -/
theorem blocksSound_of_noWrap {h : Heap} (hcur : h.ua.cur ≤ h.ua.cap) {cs : List Call}
    (hw : Along Heap.step NoWrap h cs) : BlocksSound h.ua (blocks h cs) := by
  have hgrows : ∀ r ∈ cs.map Call.request, Bump.Grows r := by
    intro r hr
    obtain ⟨c, _, rfl⟩ := List.mem_map.mp hr
    exact grows_request c
  have hstack := ((h.ua.toBump hcur).blocks_stacked _ hgrows).shift h.ua.mem
  rw [← blocks_eq_of_noWrap (h.ua.inWords_toBump hcur) hw] at hstack
  exact ⟨(hstack.mono (Nat.le_add_right _ _)).within, hstack.pairwiseDisjoint⟩

/-- **Sound runs do not wrap**: the first call that wraps puts a block outside. -/
theorem noWrap_of_within {h : Heap} (hcur : h.ua.cur ≤ h.ua.cap) {cs : List Call}
    (hin : ∀ s ∈ blocks h cs, s.Within h.ua.mem (h.ua.mem + h.ua.cap.toNat)) :
    Along Heap.step NoWrap h cs := by
  induction cs generalizing h with
  | nil => exact trivial
  | cons c cs ih =>
    have hw : NoWrap h c := by
      by_contra hw
      refine not_within_of_wraps hw (hin _ ?_)
      simp only [blocks, call_of_wraps hcur hw, Option.toList_some, List.singleton_append,
        List.mem_cons, true_or]
    refine ⟨hw, ?_⟩
    rintro h' ⟨⟩
    obtain ⟨hmem, hcap⟩ := call_mem_cap h c
    have hrefines := (call_refines (h.ua.inWords_toBump hcur) hw).2
    refine ih hrefines.cur_le_cap ?_
    intro s hs
    rw [hmem, hcap]
    exact hin s (List.mem_append_right _ hs)

/-- **The blocks of a run lie inside the arena and are pairwise disjoint exactly
    when no call of the run makes `cur + size` wrap.** -/
theorem blocksSound_iff_noWrap (h : Heap) (hcur : h.ua.cur ≤ h.ua.cap) (cs : List Call) :
    BlocksSound h.ua (blocks h cs) ↔ Along Heap.step NoWrap h cs :=
  ⟨fun hs => noWrap_of_within hcur hs.1, blocksSound_of_noWrap hcur⟩

/-- A hundred bytes at address 1000, nothing allocated. -/
def hundred : Heap := ⟨uaInit true false false 100 1000, fun _ => 0⟩

theorem blocksSound_iff_noWrap_hundred :
    hundred.ua.cur ≤ hundred.ua.cap ∧
      (BlocksSound hundred.ua (blocks hundred [.alloc 40, .zalloc 60, .reserve 8]) ↔
        Along Heap.step NoWrap hundred [.alloc 40, .zalloc 60, .reserve 8]) :=
  ⟨by decide, blocksSound_iff_noWrap hundred (by decide) _⟩

/-- Sixteen bytes, then a size just below `2^64` that wraps the cursor back to 8,
    then eight more: every call succeeds, the second block leaves the arena and
    the third one repeats half of the first. -/
theorem blocks_overlap_after_wrap :
    blocks hundred [.alloc 16, .alloc (-8), .alloc 8] =
        [⟨1000, 16⟩, ⟨1016, 2 ^ 64 - 8⟩, ⟨1008, 8⟩] ∧
      ¬ BlocksSound hundred.ua (blocks hundred [.alloc 16, .alloc (-8), .alloc 8]) := by
  have hblocks : blocks hundred [.alloc 16, .alloc (-8), .alloc 8] =
      [⟨1000, 16⟩, ⟨1016, 2 ^ 64 - 8⟩, ⟨1008, 8⟩] := by decide
  refine ⟨hblocks, ?_⟩
  rintro ⟨_, hdisj⟩
  rw [hblocks] at hdisj
  have hpair := (List.pairwise_cons.mp hdisj).1 ⟨1008, 8⟩ (by decide)
  have hfirst : 1008 ∈ Span.cells ⟨1000, 16⟩ := by simp [Span.stop]
  have hthird : 1008 ∈ Span.cells ⟨1008, 8⟩ := by simp [Span.stop]
  exact Set.disjoint_left.mp hpair hfirst hthird

end Lmalloc.Arena
