/-
  Lmalloc/Poc/PageZalloc.lean
  ===========================
  **Clearing pages ahead of the cursor, in place of each block.**

  `u_arena_zalloc` keeps the memory between the cursor and the end of the current
  page zero, so that a block that ends in that page need not be cleared.  Four things
  break this:

    * the first allocation clears one page, however long the block is;
    * `u_arena_free` moves the cursor back and leaves `last_page_start` where it was;
    * the pages are cleared before the capacity is looked at, so a refused request
      moves `last_page_start`, and the last page may lie behind the arena;
    * the count of missing bytes is signed.

  `Harmless` is the condition on a request under which none of them shows.  A run of
  harmless requests keeps `Good`, which says how far the memory behind the cursor is
  zero (`zeroed`), whatever the program writes to its blocks in between.
-/
import Lmalloc.Library.Run
import Lmalloc.Poc.UArena

namespace Lmalloc.Poc

open Lmalloc.Library Lmalloc.Library.Word

/-! ### Runs -/

inductive Request where
  | zalloc (size : UInt64)
  | free
deriving DecidableEq, Repr

/-- The program's next step: a request to the arena, or a write to one of its blocks. -/
inductive Call where
  | request (r : Request)
  | write (a : ℕ) (v : UInt8)
deriving DecidableEq, Repr

/-- The arena, the memory, and the blocks given out since the last `u_arena_free`. -/
structure State where
  arena : UArena
  memory : Memory
  live : List Span

def explicitBzero (m : Memory) : Option Span → Memory
  | some s => m.fill s 0
  | none => m

/-- The block at the cursor. -/
def block (a : UArena) (size : UInt64) : Span := ⟨a.mem + a.cur.toNat, (alignedSz a size).toNat⟩

def serve (a : UArena) : Request → UArena
  | .zalloc size => (uArenaZalloc a size).arena
  | .free => uArenaFree a

/-- The state after a `u_arena_zalloc` that returned `r`. -/
def deliver (s : State) (size : UInt64) (r : Result) : State where
  arena := r.arena
  memory := explicitBzero s.memory r.cleared
  live := if r.ptr.isSome then block s.arena size :: s.live else s.live

def perform (s : State) : Request → State
  | .zalloc size => deliver s size (uArenaZalloc s.arena size)
  | .free => { s with arena := uArenaFree s.arena, live := [] }

def step (s : State) : Call → Option State
  | .request r => some (perform s r)
  | .write a v =>
      if ∃ b ∈ s.live, b.start ≤ a ∧ a < b.stop then
        some { s with memory := Function.update s.memory a v }
      else none

def requestStep (a : UArena) (r : Request) : Option UArena := some (serve a r)

def requestsOf (calls : List Call) : List Request :=
  calls.filterMap fun c => match c with
    | .request r => some r
    | .write _ _ => none

/-! ### What is claimed of a call, and the runs it is claimed for -/

/-- What an allocation that clears its block would do. -/
structure ZallocCorrect (s : State) (size : UInt64) : Prop where
  zero : ∀ p, (uArenaZalloc s.arena size).ptr = some p →
    p = (block s.arena size).start ∧
      ∀ i ∈ (block s.arena size).cells, (perform s (.zalloc size)).memory i = 0
  kept : ∀ b ∈ s.live, ∀ i ∈ b.cells, (perform s (.zalloc size)).memory i = s.memory i
  inside : ∀ c ∈ (uArenaZalloc s.arena size).cleared,
    c.Within s.arena.mem (s.arena.mem + s.arena.cap.toNat)
  refused : (uArenaZalloc s.arena size).ptr = none → (uArenaZalloc s.arena size).arena = s.arena

def Correct (s : State) : Call → Prop
  | .request (.zalloc size) => ZallocCorrect s size
  | _ => True

/-- Where the block would end. -/
def stop (a : UArena) (size : UInt64) : ℕ := a.cur.toNat + (alignedSz a size).toNat

def NoWrap (a : UArena) : Request → Prop
  | .zalloc size => RoundsUp a size ∧ stop a size < 2 ^ 64
  | .free => True

/-- An arena after `u_arena_init`, with pages of 4096 bytes. -/
structure Start (a : UArena) : Prop where
  power : lmIsPowerOfTwo a.alignment
  alignment_le : a.alignment ≤ 4096
  page : a.pageSz = 4096
  last : a.lastPageStart = 0
  cur : a.cur = 0

theorem start_uArenaInit {asserts : Bool} {old a : UArena} {alignment cap : UInt64} {mem : ℕ}
    (hpower : lmIsPowerOfTwo alignment) (hle : alignment ≤ 4096) (hlast : old.lastPageStart = 0)
    (h : uArenaInit asserts old alignment 4096 cap mem = some a) : Start a := by
  rw [uArenaInit_of_valid hpower hle] at h
  cases h
  exact ⟨hpower, hle, rfl, hlast, rfl⟩

/-- The condition.  The first page is cleared at every request on an empty arena; behind
    it a refused request must not clear anything, and a block that is served must end in
    memory that can be cleared, or on the first page once `last_page_start` is ahead of
    the cursor.  The bounds with `2^63` are those of the signed count. -/
def Harmless (a : UArena) : Request → Prop
  | .zalloc size =>
      if a.cur = 0 then 4096 ≤ a.cap.toNat ∧ (stop a size ≤ 4096 ∨ a.cap.toNat < stop a size)
      else if a.cap.toNat < stop a size then a.frontier + 2 ^ 63 ≤ stop a size
      else if a.lastPageStart.toNat < a.cur.toNat then
        alignUp (stop a size) 4096 ≤ a.cap.toNat ∧ stop a size < a.frontier + 2 ^ 63
      else stop a size ≤ 4096 ∧ a.frontier ≤ stop a size + 2 ^ 63
  | .free => True

instance (a : UArena) (r : Request) : Decidable (Harmless a r) :=
  match r with
  | .zalloc _ => inferInstanceAs (Decidable (ite _ _ _))
  | .free => isTrue trivial

instance (a : UArena) (r : Request) : Decidable (NoWrap a r) :=
  match r with
  | .zalloc _ => inferInstanceAs (Decidable (_ < _ ∧ _ < _))
  | .free => isTrue trivial

/-- A block that is served correctly is the block `u_arena_fzalloc` gives, with the same bytes. -/
theorem ZallocCorrect.eq_fzalloc {s : State} {size : UInt64} (h : ZallocCorrect s size) {p : ℕ}
    (hptr : (uArenaZalloc s.arena size).ptr = some p) :
    (uArenaFzalloc s.arena size).ptr = some p ∧
      ∀ i ∈ (block s.arena size).cells, (perform s (.zalloc size)).memory i =
        explicitBzero s.memory (uArenaFzalloc s.arena size).cleared i := by
  obtain ⟨hp, hzero⟩ := h.zero p hptr
  constructor
  · rw [hp]
    rfl
  · intro i hi
    have hfill : explicitBzero s.memory (uArenaFzalloc s.arena size).cleared i = 0 :=
      Memory.fill_of_mem hi
    rw [hzero i hi, hfill]

/-! ### A good arena -/

/-- The offset up to which the memory behind the cursor is zero. -/
def zeroed (a : UArena) : ℕ :=
  if a.lastPageStart.toNat < a.cur.toNat then a.frontier else 4096

structure Good (a : UArena) : Prop where
  page : a.pageSz = 4096
  aligned : 4096 ∣ a.lastPageStart.toNat
  frontier_le : a.cur ≠ 0 → a.frontier ≤ a.cap.toNat
  last_le : a.lastPageStart ≠ 0 → a.frontier ≤ a.cap.toNat
  cur_le : a.cur.toNat ≤ zeroed a

theorem Start.good {a : UArena} (h : Start a) : Good a where
  page := h.page
  aligned := by
    rw [h.last]
    exact Nat.dvd_zero 4096
  frontier_le := fun hcur => absurd h.cur hcur
  last_le := fun hlast => absurd h.last hlast
  cur_le := by
    rw [h.cur]
    exact Nat.zero_le _

/-! ### What a harmless request does -/

/-- The four ways in which a harmless `u_arena_zalloc` ends. -/
inductive Outcome (a : UArena) (size : UInt64) : Result → Prop
  /-- On an empty arena the first page is cleared, and the block ends in it. -/
  | first (hcur : a.cur = 0) (hcap : 4096 ≤ a.cap.toNat) (hstop : stop a size ≤ 4096) :
      Outcome a size
        ⟨some (a.mem + a.cur.toNat), { a with cur := a.cur + alignedSz a size },
          some ⟨a.mem, 4096⟩⟩
  /-- The request is refused; the first page has been cleared if the arena is empty. -/
  | refused {cleared : Option Span}
      (hcleared : cleared = none ∨ a.cur = 0 ∧ 4096 ≤ a.cap.toNat ∧ cleared = some ⟨a.mem, 4096⟩) :
      Outcome a size ⟨none, a, cleared⟩
  /-- The block ends in memory that is zero already. -/
  | within (hcur : a.cur ≠ 0) (hstop : stop a size ≤ zeroed a) :
      Outcome a size
        ⟨some (a.mem + a.cur.toNat), { a with cur := a.cur + alignedSz a size }, none⟩
  /-- The pages up to the end of the block are cleared. -/
  | grown {last : UInt64} (hcur : a.lastPageStart.toNat < a.cur.toNat) (hstop : a.frontier < stop a size)
      (hcap : alignUp (stop a size) 4096 ≤ a.cap.toNat)
      (hlast : last.toNat + 4096 = alignUp (stop a size) 4096) :
      Outcome a size
        ⟨some (a.mem + a.cur.toNat),
          { a with lastPageStart := last, cur := a.cur + alignedSz a size },
          some ⟨a.mem + a.frontier, alignUp (stop a size) 4096 - a.frontier⟩⟩

section Good

variable {a : UArena} {size : UInt64}

theorem uArenaZalloc_served (hnowrap : stop a size < 2 ^ 64) (hcap : stop a size ≤ a.cap.toNat) :
    uArenaZalloc a size =
      ⟨some (a.mem + a.cur.toNat),
        { (zeroNewPages a (alignedSz a size)).2 with cur := a.cur + alignedSz a size },
        (zeroNewPages a (alignedSz a size)).1⟩ := by
  rw [uArenaZalloc_of_lt hnowrap]
  exact if_pos hcap

theorem uArenaZalloc_refused (hnowrap : stop a size < 2 ^ 64) (hcap : a.cap.toNat < stop a size) :
    uArenaZalloc a size =
      ⟨none, (zeroNewPages a (alignedSz a size)).2, (zeroNewPages a (alignedSz a size)).1⟩ := by
  rw [uArenaZalloc_of_lt hnowrap]
  exact if_neg (Nat.not_le.mpr hcap)

theorem Good.page_toNat (h : Good a) : a.pageSz.toNat = 4096 := by
  rw [h.page]
  rfl

theorem Good.frontier_eq (h : Good a) : a.frontier = a.lastPageStart.toNat + 4096 := by
  rw [UArena.frontier, h.page_toNat]

theorem Good.dvd_frontier (h : Good a) : 4096 ∣ a.frontier := by
  rw [h.frontier_eq]
  exact Nat.dvd_add h.aligned (Nat.dvd_refl 4096)

theorem Good.frontier_lt (h : Good a) (hcur : a.cur ≠ 0) : a.frontier < 2 ^ 64 :=
  Nat.lt_of_le_of_lt (h.frontier_le hcur) a.cap.toNat_lt

/-- Behind a stale `last_page_start` there is at least one page. -/
theorem Good.frontier_of_stale (h : Good a) (hcur : a.cur ≠ 0) (hstale : ¬ a.lastPageStart.toNat < a.cur.toNat) :
    2 * 4096 ≤ a.frontier := by
  have hpos : 0 < a.cur.toNat := UInt64.pos_iff_ne_zero.mpr hcur
  have hpage : 4096 ≤ a.lastPageStart.toNat := Nat.le_of_dvd (by omega) h.aligned
  rw [h.frontier_eq]
  omega

theorem zeroNewPages_of_cur_eq (h : Good a) (hcur : a.cur = 0) (sz : UInt64) :
    zeroNewPages a sz = (some ⟨a.mem, 4096⟩, a) := by
  rw [zeroNewPages, if_pos hcur, h.page_toNat]

/-- Nothing is cleared when the count is zero or negative. -/
theorem zeroNewPages_quiet (h : Good a) (hcur : a.cur ≠ 0) (hstop : stop a size < 2 ^ 64)
    (hquiet : a.missing (stop a size) = 0 ∨ 2 ^ 63 ≤ a.missing (stop a size)) :
    zeroNewPages a (alignedSz a size) = (none, a) := by
  rw [zeroNewPages_of_cur_ne hcur (h.frontier_lt hcur) hstop]
  apply if_neg
  rw [← stop]
  omega

theorem zeroNewPages_clears (h : Good a) (hcur : a.cur ≠ 0) (hstop : stop a size < 2 ^ 64)
    (hpos : 0 < a.missing (stop a size)) (hlt : a.missing (stop a size) < 2 ^ 63) :
    zeroNewPages a (alignedSz a size) =
      (some ⟨a.mem + a.frontier, alignUp (a.missing (stop a size)) 4096⟩,
        { a with lastPageStart :=
            a.lastPageStart + UInt64.ofNat (alignUp (a.missing (stop a size)) 4096) }) := by
  rw [zeroNewPages_of_cur_ne hcur (h.frontier_lt hcur) hstop]
  exact if_pos ⟨hpos, hlt⟩

/-- Behind the frontier whole pages are missing. -/
theorem alignUp_missing (h : Good a) (hstop : a.frontier ≤ stop a size) :
    alignUp (a.missing (stop a size)) 4096 = alignUp (stop a size) 4096 - a.frontier := by
  have hsplit : stop a size = a.frontier + (stop a size - a.frontier) :=
    (Nat.add_sub_cancel' hstop).symm
  have hround : alignUp (stop a size) 4096 = a.frontier + alignUp (stop a size - a.frontier) 4096 := by
    nth_rewrite 1 [hsplit]
    exact alignUp_add_of_dvd h.dvd_frontier _
  rw [UArena.missing, if_pos hstop, hround, Nat.add_sub_cancel_left]

theorem outcome_of_cur_eq (h : Good a) (hcur : a.cur = 0) (hnowrap : stop a size < 2 ^ 64)
    (hcap : 4096 ≤ a.cap.toNat) (hstop : stop a size ≤ 4096 ∨ a.cap.toNat < stop a size) :
    Outcome a size (uArenaZalloc a size) := by
  rcases Nat.lt_or_ge a.cap.toNat (stop a size) with hbig | hfits
  · rw [uArenaZalloc_refused hnowrap hbig, zeroNewPages_of_cur_eq h hcur]
    exact Outcome.refused (.inr ⟨hcur, hcap, rfl⟩)
  · rw [uArenaZalloc_served hnowrap hfits, zeroNewPages_of_cur_eq h hcur]
    exact Outcome.first hcur hcap (hstop.resolve_right (Nat.not_lt.mpr hfits))

theorem outcome_of_refused (h : Good a) (hcur : a.cur ≠ 0) (hnowrap : stop a size < 2 ^ 64)
    (hcap : a.cap.toNat < stop a size) (hquiet : a.frontier + 2 ^ 63 ≤ stop a size) :
    Outcome a size (uArenaZalloc a size) := by
  have hmissing : 2 ^ 63 ≤ a.missing (stop a size) := by
    rw [UArena.missing, if_pos (by omega)]
    omega
  rw [uArenaZalloc_refused hnowrap hcap, zeroNewPages_quiet h hcur hnowrap (.inr hmissing)]
  exact Outcome.refused (.inl rfl)

theorem outcome_of_quiet (h : Good a) (hcur : a.cur ≠ 0) (hnowrap : stop a size < 2 ^ 64)
    (hcap : stop a size ≤ a.cap.toNat) (hstop : stop a size ≤ zeroed a)
    (hquiet : a.missing (stop a size) = 0 ∨ 2 ^ 63 ≤ a.missing (stop a size)) :
    Outcome a size (uArenaZalloc a size) := by
  rw [uArenaZalloc_served hnowrap hcap, zeroNewPages_quiet h hcur hnowrap hquiet]
  exact Outcome.within hcur hstop

theorem outcome_of_clears (h : Good a) (hcur : a.lastPageStart.toNat < a.cur.toNat)
    (hnowrap : stop a size < 2 ^ 64) (hstop : a.frontier < stop a size)
    (hlt : stop a size < a.frontier + 2 ^ 63) (hcap : alignUp (stop a size) 4096 ≤ a.cap.toNat) :
    Outcome a size (uArenaZalloc a size) := by
  have hne : a.cur ≠ 0 := UInt64.pos_iff_ne_zero.mp (Nat.lt_of_le_of_lt (Nat.zero_le _) hcur)
  have hcapLt : a.cap.toNat < 2 ^ 64 := a.cap.toNat_lt
  have hle : stop a size ≤ alignUp (stop a size) 4096 := le_alignUp _ _
  have hmissing : a.missing (stop a size) = stop a size - a.frontier := if_pos (Nat.le_of_lt hstop)
  have hround := alignUp_missing h (Nat.le_of_lt hstop)
  have hclears := zeroNewPages_clears h hne hnowrap (by omega) (by omega)
  rw [uArenaZalloc_served hnowrap (Nat.le_trans hle hcap), hclears, hround]
  apply Outcome.grown hcur hstop hcap
  have hword : (UInt64.ofNat (alignUp (stop a size) 4096 - a.frontier)).toNat =
      alignUp (stop a size) 4096 - a.frontier := toNat_ofNat_of_lt_size (by omega)
  have hfrontier := h.frontier_eq
  rw [toNat_add_of_lt]
  · rw [hword]
    omega
  · rw [hword]
    omega

theorem outcome_of_harmless (h : Good a) (hnowrap : NoWrap a (.zalloc size))
    (hharmless : Harmless a (.zalloc size)) : Outcome a size (uArenaZalloc a size) := by
  simp only [Harmless] at hharmless
  split at hharmless
  case isTrue hcur => exact outcome_of_cur_eq h hcur hnowrap.2 hharmless.1 hharmless.2
  case isFalse hcur =>
    split at hharmless
    case isTrue hcap => exact outcome_of_refused h hcur hnowrap.2 hcap hharmless
    case isFalse hcap =>
      split at hharmless
      case isTrue hlast =>
        rcases Nat.lt_or_ge a.frontier (stop a size) with hstop | hstop
        · exact outcome_of_clears h hlast hnowrap.2 hstop hharmless.2 hharmless.1
        · apply outcome_of_quiet h hcur hnowrap.2 (Nat.not_lt.mp hcap)
          · rw [zeroed, if_pos hlast]
            exact hstop
          · have hle : a.cur.toNat ≤ stop a size := Nat.le_add_right _ _
            have hfrontier := h.frontier_eq
            rw [UArena.missing]
            split <;> omega
      case isFalse hlast =>
        have hstale := h.frontier_of_stale hcur hlast
        apply outcome_of_quiet h hcur hnowrap.2 (Nat.not_lt.mp hcap)
        · rw [zeroed, if_neg hlast]
          exact hharmless.1
        · rw [UArena.missing, if_neg (by omega)]
          omega

end Good

/-! ### What a run of harmless requests keeps -/

section Kept

variable {a : UArena} {size : UInt64} {r : Result}

theorem toNat_cur_add (hnowrap : stop a size < 2 ^ 64) :
    (a.cur + alignedSz a size).toNat = stop a size :=
  toNat_add_of_lt hnowrap

/-- The first page is zero behind the cursor, wherever the cursor is. -/
theorem Good.page_le_zeroed (h : Good a) : 4096 ≤ zeroed a := by
  have hfrontier := h.frontier_eq
  rw [zeroed]
  split <;> omega

/-- The cursor moves within the memory that is zero: it stays on its side of
    `last_page_start`, or that is still 0. -/
theorem Good.zeroed_bump (h : Good a) (hnowrap : stop a size < 2 ^ 64)
    (hstop : stop a size ≤ zeroed a) :
    zeroed { a with cur := a.cur + alignedSz a size } = zeroed a := by
  have hcur := toNat_cur_add hnowrap
  have hle : a.cur.toNat ≤ stop a size := Nat.le_add_right _ _
  show (if a.lastPageStart.toNat < (a.cur + alignedSz a size).toNat then a.frontier else 4096) =
    zeroed a
  rw [hcur, zeroed]
  by_cases hlast : a.lastPageStart.toNat < a.cur.toNat
  · rw [if_pos hlast, if_pos (Nat.lt_of_lt_of_le hlast hle)]
  · rw [zeroed, if_neg hlast] at hstop
    rw [if_neg hlast, h.frontier_eq]
    by_cases hbehind : a.lastPageStart.toNat < stop a size
    · have hzero : a.lastPageStart.toNat = 0 := by
        rcases Nat.eq_zero_or_pos a.lastPageStart.toNat with hzero | hpos
        · exact hzero
        · have hpage : 4096 ≤ a.lastPageStart.toNat := Nat.le_of_dvd hpos h.aligned
          omega
      rw [if_pos hbehind, hzero]
    · rw [if_neg hbehind]

theorem Good.bump (h : Good a) (hnowrap : stop a size < 2 ^ 64) (hstop : stop a size ≤ zeroed a)
    (hcap : a.frontier ≤ a.cap.toNat) : Good { a with cur := a.cur + alignedSz a size } := by
  refine ⟨h.page, h.aligned, fun _ => hcap, fun _ => hcap, ?_⟩
  rw [h.zeroed_bump hnowrap hstop]
  show (a.cur + alignedSz a size).toNat ≤ _
  rw [toNat_cur_add hnowrap]
  exact hstop

theorem Good.frontier_le_of_page (h : Good a) (hcap : 4096 ≤ a.cap.toNat) :
    a.frontier ≤ a.cap.toNat := by
  by_cases hlast : a.lastPageStart = 0
  · rw [h.frontier_eq, hlast]
    exact hcap
  · exact h.last_le hlast

/-- A cursor on new pages: they are zero up to the end of the last one. -/
theorem zeroed_grown (h : Good a) {last : UInt64} (hnowrap : stop a size < 2 ^ 64)
    (hlast : last.toNat + 4096 = alignUp (stop a size) 4096) :
    zeroed { a with lastPageStart := last, cur := a.cur + alignedSz a size } =
      alignUp (stop a size) 4096 := by
  have hup : alignUp (stop a size) 4096 < stop a size + 4096 := alignUp_lt (by omega) _
  show (if last.toNat < (a.cur + alignedSz a size).toNat then last.toNat + a.pageSz.toNat
    else 4096) = _
  rw [toNat_cur_add hnowrap, if_pos (by omega), h.page_toNat, hlast]

theorem Good.grown (h : Good a) {last : UInt64} (hnowrap : stop a size < 2 ^ 64)
    (hcap : alignUp (stop a size) 4096 ≤ a.cap.toNat)
    (hlast : last.toNat + 4096 = alignUp (stop a size) 4096) :
    Good { a with lastPageStart := last, cur := a.cur + alignedSz a size } := by
  have hdvd : 4096 ∣ last.toNat + 4096 := by
    rw [hlast]
    exact dvd_alignUp (by omega) _
  have hfrontier : last.toNat + a.pageSz.toNat ≤ a.cap.toNat := by
    rw [h.page_toNat, hlast]
    exact hcap
  refine ⟨h.page, (Nat.dvd_add_left (Nat.dvd_refl 4096)).mp hdvd, fun _ => hfrontier,
    fun _ => hfrontier, ?_⟩
  rw [zeroed_grown h hnowrap hlast]
  show (a.cur + alignedSz a size).toNat ≤ _
  rw [toNat_cur_add hnowrap]
  exact le_alignUp _ _

theorem Good.free (h : Good a) : Good (uArenaFree a) where
  page := h.page
  aligned := h.aligned
  frontier_le := fun hne => absurd rfl hne
  last_le := h.last_le
  cur_le := Nat.zero_le _

theorem Good.outcome (h : Good a) (hnowrap : stop a size < 2 ^ 64) (hr : Outcome a size r) :
    Good r.arena := by
  cases hr with
  | refused hcleared => exact h
  | first hzero hcap hstop =>
    exact h.bump hnowrap (Nat.le_trans hstop h.page_le_zeroed) (h.frontier_le_of_page hcap)
  | within hne hstop => exact h.bump hnowrap hstop (h.frontier_le hne)
  | grown hlt hstop hcap hlast => exact h.grown hnowrap hcap hlast

end Kept

/-- Every block given out lies below the cursor, and the memory between the cursor and the
    end of the page is zero. -/
structure Clean (s : State) : Prop where
  good : Good s.arena
  zero : s.arena.cur ≠ 0 → ∀ i, s.arena.cur.toNat ≤ i → i < zeroed s.arena →
    s.memory (s.arena.mem + i) = 0
  below : ∀ b ∈ s.live, ∀ i ∈ b.cells, i < s.arena.mem + s.arena.cur.toNat

section Clean

variable {s : State} {a : UArena} {size : UInt64} {r : Result}

theorem mem_block {i : ℕ} :
    i ∈ (block a size).cells ↔ a.mem + a.cur.toNat ≤ i ∧ i < a.mem + stop a size := by
  have hstop : (block a size).stop = a.mem + stop a size := Nat.add_assoc _ _ _
  rw [Span.mem_cells, hstop, block]

/-- An offset behind the cursor and before the frontier is zero. -/
theorem Clean.zero_of_le (h : Clean s) (hcur : s.arena.cur ≠ 0) {i : ℕ}
    (hle : s.arena.mem + s.arena.cur.toNat ≤ i) (hlt : i < s.arena.mem + zeroed s.arena) :
    s.memory i = 0 := by
  have hzero := h.zero hcur (i - s.arena.mem) (by omega) (by omega)
  rwa [Nat.add_sub_cancel' (by omega)] at hzero

/-- A request that is served leaves the memory zero from the old cursor on. -/
theorem zero_of_outcome (h : Clean s) (hnowrap : stop s.arena size < 2 ^ 64)
    (hr : Outcome s.arena size r) (hptr : r.ptr ≠ none) {i : ℕ}
    (hle : s.arena.mem + s.arena.cur.toNat ≤ i) (hlt : i < s.arena.mem + zeroed r.arena) :
    explicitBzero s.memory r.cleared i = 0 := by
  cases hr with
  | refused hcleared => exact absurd rfl hptr
  | first hzero hcap hstop =>
    have hpage : zeroed s.arena = 4096 := by
      rw [zeroed, hzero]
      exact if_neg (Nat.not_lt_zero _)
    have hbump : i < s.arena.mem + 4096 := by
      rwa [h.good.zeroed_bump hnowrap (hpage ▸ hstop), hpage] at hlt
    apply Memory.fill_of_mem
    exact ⟨Nat.le_trans (Nat.le_add_right _ _) hle, hbump⟩
  | within hne hstop =>
    rw [h.good.zeroed_bump hnowrap hstop] at hlt
    exact h.zero_of_le hne hle hlt
  | grown hcur hstop hcap hlast =>
    rw [zeroed_grown h.good hnowrap hlast] at hlt
    by_cases hnew : s.arena.mem + s.arena.frontier ≤ i
    · apply Memory.fill_of_mem
      refine ⟨hnew, ?_⟩
      show i < s.arena.mem + s.arena.frontier + (alignUp (stop s.arena size) 4096 - s.arena.frontier)
      omega
    · have hold : explicitBzero s.memory (some ⟨s.arena.mem + s.arena.frontier,
          alignUp (stop s.arena size) 4096 - s.arena.frontier⟩) i = s.memory i :=
        Memory.fill_of_notMem fun hi => hnew hi.1
      have hne : s.arena.cur ≠ 0 :=
        UInt64.pos_iff_ne_zero.mp (Nat.lt_of_le_of_lt (Nat.zero_le _) hcur)
      have hzeroed : zeroed s.arena = s.arena.frontier := if_pos hcur
      rw [hold]
      apply h.zero_of_le hne hle
      omega

/-- What is cleared is the first page of an empty arena, or the pages behind the frontier. -/
theorem cleared_cases (h : Good a) (hr : Outcome a size r) {c : Span} (hc : c ∈ r.cleared) :
    (a.cur = 0 ∧ 4096 ≤ a.cap.toNat ∧ c = ⟨a.mem, 4096⟩ ∧ r.arena.frontier = a.frontier) ∨
      (r.ptr.isSome ∧ a.lastPageStart.toNat < a.cur.toNat ∧ a.frontier < stop a size ∧
        r.arena.frontier ≤ a.cap.toNat ∧ a.frontier < r.arena.frontier ∧
        c = ⟨a.mem + a.frontier, r.arena.frontier - a.frontier⟩) := by
  cases hr with
  | first hcur hcap hstop =>
    cases hc
    exact .inl ⟨hcur, hcap, rfl, rfl⟩
  | refused hcleared =>
    rcases hcleared with rfl | ⟨hcur, hcap, rfl⟩
    · cases hc
    · cases hc
      exact .inl ⟨hcur, hcap, rfl, rfl⟩
  | within hne hstop => cases hc
  | @grown last hcur hstop hcap hlast =>
    cases hc
    have hle : stop a size ≤ alignUp (stop a size) 4096 := le_alignUp _ _
    have hfrontier : last.toNat + a.pageSz.toNat = alignUp (stop a size) 4096 := by
      rw [h.page_toNat, hlast]
    rw [← hfrontier] at hcap hle ⊢
    exact .inr ⟨rfl, hcur, hstop, hcap, Nat.lt_of_lt_of_le hstop hle, rfl⟩

/-- What is cleared starts at the cursor or behind it. -/
theorem cursor_le_of_outcome (h : Good a) (hr : Outcome a size r) :
    ∀ c ∈ r.cleared, a.mem + a.cur.toNat ≤ c.start := by
  intro c hc
  rcases cleared_cases h hr hc with ⟨hcur, -, rfl, -⟩ | ⟨-, hlast, -, -, -, rfl⟩
  · rw [hcur]
    exact Nat.le_refl _
  · have hle := h.cur_le
    rw [zeroed, if_pos hlast] at hle
    exact Nat.add_le_add_left hle _

/-- It ends with the page in front of the new frontier, at the latest. -/
theorem le_frontier_of_outcome (h : Good a) (hr : Outcome a size r) :
    ∀ c ∈ r.cleared, c.stop ≤ a.mem + r.arena.frontier := by
  intro c hc
  rcases cleared_cases h hr hc with ⟨-, -, rfl, hsame⟩ | ⟨-, -, -, -, hgrown, rfl⟩
  · have hpage := h.frontier_eq
    show a.mem + 4096 ≤ a.mem + r.arena.frontier
    omega
  · show a.mem + a.frontier + (r.arena.frontier - a.frontier) ≤ a.mem + r.arena.frontier
    omega

theorem inside_of_outcome (h : Good a) (hr : Outcome a size r) :
    ∀ c ∈ r.cleared, c.Within a.mem (a.mem + a.cap.toNat) := by
  intro c hc
  have hstop := le_frontier_of_outcome h hr c hc
  rcases cleared_cases h hr hc with ⟨-, hcap, rfl, -⟩ | ⟨-, -, -, hcap, -, rfl⟩
  · exact Span.within_of_bounds (Nat.le_refl _) (Nat.add_le_add_left hcap _)
  · exact Span.within_of_bounds (Nat.le_add_right _ _)
      (Nat.le_trans hstop (Nat.add_le_add_left hcap _))

/-- The frontier never moves back. -/
theorem frontier_le_of_outcome (h : Good a) (hr : Outcome a size r) :
    a.frontier ≤ r.arena.frontier := by
  cases hr with
  | first hcur hcap hstop => exact Nat.le_refl _
  | refused hcleared => exact Nat.le_refl _
  | within hne hstop => exact Nat.le_refl _
  | @grown last hcur hstop hcap hlast =>
    have hle : stop a size ≤ alignUp (stop a size) 4096 := le_alignUp _ _
    show a.frontier ≤ last.toNat + a.pageSz.toNat
    rw [h.page_toNat, hlast]
    omega

theorem explicitBzero_of_notMem {m : Memory} {cleared : Option Span} {i : ℕ}
    (h : ∀ c ∈ cleared, i ∉ c.cells) : explicitBzero m cleared i = m i := by
  rcases cleared with _ | c
  · rfl
  · exact Memory.fill_of_notMem (h c rfl)

theorem kept_of_outcome (h : Clean s) (hr : Outcome s.arena size r) :
    ∀ b ∈ s.live, ∀ i ∈ b.cells, explicitBzero s.memory r.cleared i = s.memory i := by
  intro b hb i hi
  apply explicitBzero_of_notMem
  intro c hc hmem
  have hbelow := h.below b hb i hi
  have hstart := cursor_le_of_outcome h.good hr c hc
  have hle : c.start ≤ i := hmem.1
  omega

theorem arena_of_refused (hr : Outcome a size r) (hptr : r.ptr = none) : r.arena = a := by
  cases hr with
  | refused hcleared => rfl
  | first hcur hcap hstop => cases hptr
  | within hne hstop => cases hptr
  | grown hcur hstop hcap hlast => cases hptr

theorem served_of_outcome (hr : Outcome a size r) {p : ℕ} (hptr : r.ptr = some p) :
    p = (block a size).start ∧ r.arena.mem = a.mem ∧ r.arena.cur = a.cur + alignedSz a size := by
  cases hr with
  | refused hcleared => cases hptr
  | first hcur hcap hstop => exact ⟨(Option.some.inj hptr).symm, rfl, rfl⟩
  | within hne hstop => exact ⟨(Option.some.inj hptr).symm, rfl, rfl⟩
  | grown hcur hstop hcap hlast => exact ⟨(Option.some.inj hptr).symm, rfl, rfl⟩

theorem zallocCorrect_of_outcome (h : Clean s) (hnowrap : stop s.arena size < 2 ^ 64)
    (hr : Outcome s.arena size (uArenaZalloc s.arena size)) : ZallocCorrect s size := by
  refine ⟨?_, kept_of_outcome h hr, inside_of_outcome h.good hr, arena_of_refused hr⟩
  intro p hptr
  obtain ⟨hp, hmem, hcur⟩ := served_of_outcome hr hptr
  refine ⟨hp, ?_⟩
  intro i hi
  rw [mem_block] at hi
  have hreach := (h.good.outcome hnowrap hr).cur_le
  rw [hcur, toNat_cur_add hnowrap] at hreach
  have hsome : (uArenaZalloc s.arena size).ptr ≠ none := by
    rw [hptr]
    exact Option.some_ne_none p
  apply zero_of_outcome h hnowrap hr hsome hi.1
  exact Nat.lt_of_lt_of_le hi.2 (Nat.add_le_add_left hreach _)

/-- The cursor only moves up, in the same memory. -/
theorem bounds_of_outcome (hnowrap : stop a size < 2 ^ 64) (hr : Outcome a size r) :
    r.arena.mem = a.mem ∧ a.cur.toNat ≤ r.arena.cur.toNat := by
  rcases hptr : r.ptr with _ | p
  · rw [arena_of_refused hr hptr]
    exact ⟨rfl, Nat.le_refl _⟩
  · obtain ⟨-, hmem, hcur⟩ := served_of_outcome hr hptr
    rw [hcur, toNat_cur_add hnowrap]
    exact ⟨hmem, Nat.le_add_right _ _⟩

/-- A refusal on an arena that is not empty clears nothing. -/
theorem cleared_of_refused (h : Good a) (hr : Outcome a size r) (hptr : r.ptr = none)
    (hcur : a.cur ≠ 0) : r.cleared = none := by
  by_contra hsome
  obtain ⟨c, hc⟩ := Option.ne_none_iff_exists'.mp hsome
  rcases cleared_cases h hr hc with ⟨hzero, -⟩ | ⟨hserved, -⟩
  · exact hcur hzero
  · rw [hptr] at hserved
    exact Bool.false_ne_true hserved

theorem Clean.deliver (h : Clean s) (hnowrap : stop s.arena size < 2 ^ 64)
    (hr : Outcome s.arena size r) : Clean (deliver s size r) := by
  obtain ⟨hmem, hcur⟩ := bounds_of_outcome hnowrap hr
  refine ⟨h.good.outcome hnowrap hr, ?_, ?_⟩
  · intro hne i hle hlt
    show explicitBzero s.memory r.cleared (r.arena.mem + i) = 0
    rw [hmem]
    change r.arena.cur.toNat ≤ i at hle
    change i < zeroed r.arena at hlt
    by_cases hptr : r.ptr = none
    · have harena := arena_of_refused hr hptr
      change r.arena.cur ≠ 0 at hne
      rw [harena] at hne hle hlt
      rw [cleared_of_refused h.good hr hptr hne]
      exact h.zero hne i hle hlt
    · apply zero_of_outcome h hnowrap hr hptr
      · exact Nat.add_le_add_left (Nat.le_trans hcur hle) _
      · exact Nat.add_lt_add_left hlt _
  · intro b hb i hi
    show i < r.arena.mem + r.arena.cur.toNat
    rw [hmem]
    rcases hptr : r.ptr with _ | p
    · have hlive : (Poc.deliver s size r).live = s.live := by
        simp only [Poc.deliver, hptr, Option.isSome_none, Bool.false_eq_true, if_false]
      rw [hlive] at hb
      exact Nat.lt_of_lt_of_le (h.below b hb i hi) (Nat.add_le_add_left hcur _)
    · have hlive : (Poc.deliver s size r).live = block s.arena size :: s.live := by
        simp only [Poc.deliver, hptr, Option.isSome_some, if_true]
      rw [hlive] at hb
      rcases List.mem_cons.mp hb with rfl | hb
      · have hnew := (served_of_outcome hr hptr).2.2
        rw [hnew, toNat_cur_add hnowrap]
        exact (mem_block.mp hi).2
      · exact Nat.lt_of_lt_of_le (h.below b hb i hi) (Nat.add_le_add_left hcur _)

/-- After `u_arena_free` the arena is empty, and nothing is promised of its memory. -/
theorem Clean.free (h : Clean s) : Clean (perform s .free) where
  good := h.good.free
  zero := fun hne => absurd rfl hne
  below := fun _ hb => absurd hb List.not_mem_nil

theorem Clean.write (h : Clean s) {x : ℕ} {v : UInt8} {b : Span} (hb : b ∈ s.live)
    (hx : x ∈ b.cells) : Clean { s with memory := Function.update s.memory x v } where
  good := h.good
  zero := fun hne i hle hlt => by
    have hbelow : x < s.arena.mem + s.arena.cur.toNat := h.below b hb x hx
    have hkeep : s.memory (s.arena.mem + i) = 0 := h.zero hne i hle hlt
    have hother : s.arena.mem + i ≠ x := by
      have hcur : s.arena.cur.toNat ≤ i := hle
      omega
    exact (Function.update_of_ne hother v s.memory).trans hkeep
  below := h.below

end Clean

/-! ### Harmless requests are served correctly -/

/-- A condition on requests, as a condition on calls. -/
def OnRequests (P : UArena → Request → Prop) (s : State) : Call → Prop
  | .request r => P s.arena r
  | .write _ _ => True

section Runs

variable {s s' : State}

theorem perform_arena (s : State) (r : Request) : (perform s r).arena = serve s.arena r := by
  cases r with
  | zalloc size => rfl
  | free => rfl

theorem step_write {x : ℕ} {v : UInt8} (h : step s (.write x v) = some s') :
    (∃ b ∈ s.live, x ∈ b.cells) ∧ s' = { s with memory := Function.update s.memory x v } := by
  obtain ⟨hlive, hs'⟩ := Option.ite_none_right_eq_some.mp h
  exact ⟨hlive, (Option.some.inj hs').symm⟩

theorem along_onRequests {P : UArena → Request → Prop} {calls : List Call}
    (h : Along requestStep P s.arena (requestsOf calls)) : Along step (OnRequests P) s calls := by
  induction calls generalizing s with
  | nil => exact trivial
  | cons c calls ih =>
    cases c with
    | request r =>
      refine ⟨h.1, ?_⟩
      intro s' hs'
      have hperform : perform s r = s' := Option.some.inj hs'
      apply ih
      rw [← hperform, perform_arena]
      exact h.2 _ rfl
    | write x v =>
      refine ⟨trivial, ?_⟩
      intro s' hs'
      obtain ⟨-, rfl⟩ := step_write hs'
      exact ih h

theorem Clean.step (h : Clean s) {c : Call} (hnowrap : OnRequests NoWrap s c)
    (hharmless : OnRequests Harmless s c) (hs' : step s c = some s') : Clean s' := by
  cases c with
  | request r =>
    have hperform : perform s r = s' := Option.some.inj hs'
    rw [← hperform]
    cases r with
    | zalloc size => exact h.deliver hnowrap.2 (outcome_of_harmless h.good hnowrap hharmless)
    | free => exact h.free
  | write x v =>
    obtain ⟨⟨b, hb, hx⟩, rfl⟩ := step_write hs'
    exact h.write hb hx

theorem correct_of_harmless (h : Clean s) {c : Call} (hnowrap : OnRequests NoWrap s c)
    (hharmless : OnRequests Harmless s c) : Correct s c := by
  cases c with
  | request r =>
    cases r with
    | zalloc size =>
      exact zallocCorrect_of_outcome h hnowrap.2 (outcome_of_harmless h.good hnowrap hharmless)
    | free => exact trivial
  | write x v => exact trivial

/-- **A run of harmless requests is correct**, whatever is in the memory before and whatever
    the program writes in between. -/
theorem along_correct (h : Clean s) {calls : List Call}
    (hnowrap : Along requestStep NoWrap s.arena (requestsOf calls))
    (hharmless : Along requestStep Harmless s.arena (requestsOf calls)) :
    Along step Correct s calls :=
  along_of_along (fun _ _ _ hI hP hs' => hI.step hP.1 hP.2 hs')
    (fun _ _ hI hP => correct_of_harmless hI hP.1 hP.2) h
    ((along_onRequests hnowrap).and (along_onRequests hharmless))

end Runs

theorem Start.clean {a : UArena} (h : Start a) (memory : Memory) : Clean ⟨a, memory, []⟩ where
  good := h.good
  zero := fun hcur => absurd h.cur hcur
  below := fun _ hb => absurd hb List.not_mem_nil

/-! ### A request that is not harmless -/

/-- What the program can leave in the memory: the byte behind the first page is not zero, and
    none of those that were never cleared is. -/
structure Dirty (s : State) : Prop where
  page : s.memory (s.arena.mem + 4096) ≠ 0
  behind : ∀ i, s.arena.frontier ≤ i → s.memory (s.arena.mem + i) ≠ 0

section Refuted

variable {s : State} {size : UInt64} {r : Result}

/-- A byte of a block that is correct has been cleared, or was zero. -/
theorem cleared_of_dirty (h : ZallocCorrect s size) (hnowrap : stop s.arena size < 2 ^ 64)
    (hcap : stop s.arena size ≤ s.arena.cap.toNat) {i : ℕ} (hle : s.arena.cur.toNat ≤ i)
    (hlt : i < stop s.arena size) (hdirty : s.memory (s.arena.mem + i) ≠ 0) :
    ∃ c ∈ (uArenaZalloc s.arena size).cleared, s.arena.mem + i ∈ c.cells := by
  have hserved : (uArenaZalloc s.arena size).ptr = some (s.arena.mem + s.arena.cur.toNat) := by
    rw [uArenaZalloc_served hnowrap hcap]
  have hzero := (h.zero _ hserved).2 (s.arena.mem + i)
    (mem_block.mpr ⟨Nat.add_le_add_left hle _, Nat.add_lt_add_left hlt _⟩)
  by_contra hnone
  apply hdirty
  rw [← hzero]
  refine (explicitBzero_of_notMem ?_).symm
  intro c hc hi
  exact hnone ⟨c, hc, hi⟩

theorem cleared_eq (hnowrap : stop s.arena size < 2 ^ 64) :
    (uArenaZalloc s.arena size).cleared =
      (zeroNewPages s.arena (alignedSz s.arena size)).1 := by
  rcases Nat.lt_or_ge s.arena.cap.toNat (stop s.arena size) with hbig | hfits
  · rw [uArenaZalloc_refused hnowrap hbig]
  · rw [uArenaZalloc_served hnowrap hfits]

/-- On an empty arena. -/
theorem harmless_of_cur_eq (hgood : Good s.arena) (hdirty : Dirty s) (hcur : s.arena.cur = 0)
    (hnowrap : stop s.arena size < 2 ^ 64) (h : ZallocCorrect s size) :
    4096 ≤ s.arena.cap.toNat ∧
      (stop s.arena size ≤ 4096 ∨ s.arena.cap.toNat < stop s.arena size) := by
  have hcleared : (uArenaZalloc s.arena size).cleared = some ⟨s.arena.mem, 4096⟩ := by
    rw [cleared_eq hnowrap, zeroNewPages_of_cur_eq hgood hcur]
  have hinside := (h.inside _ hcleared).stop_le (Nat.zero_lt_succ 4095)
  refine ⟨Nat.le_of_add_le_add_left hinside, ?_⟩
  by_contra hlong
  obtain ⟨hpage, hcap⟩ := not_or.mp hlong
  have hzero : s.arena.cur.toNat ≤ 4096 := by
    rw [hcur]
    exact Nat.zero_le _
  obtain ⟨c, hc, hi⟩ := cleared_of_dirty h hnowrap (Nat.not_lt.mp hcap) hzero
    (Nat.not_le.mp hpage) hdirty.page
  rw [hcleared] at hc
  cases hc
  exact Nat.lt_irrefl _ hi.2

/-- What is cleared for the missing bytes lies inside the arena. -/
theorem inside_of_clears (hgood : Good s.arena) (hcur : s.arena.cur ≠ 0)
    (hnowrap : stop s.arena size < 2 ^ 64) (h : ZallocCorrect s size)
    (hpos : 0 < s.arena.missing (stop s.arena size))
    (hlt : s.arena.missing (stop s.arena size) < 2 ^ 63) :
    s.arena.frontier + alignUp (s.arena.missing (stop s.arena size)) 4096 ≤ s.arena.cap.toNat := by
  have hle : s.arena.missing (stop s.arena size) ≤
      alignUp (s.arena.missing (stop s.arena size)) 4096 := le_alignUp _ _
  have hcleared : (uArenaZalloc s.arena size).cleared =
      some ⟨s.arena.mem + s.arena.frontier,
        alignUp (s.arena.missing (stop s.arena size)) 4096⟩ := by
    rw [cleared_eq hnowrap, zeroNewPages_clears hgood hcur hnowrap hpos hlt]
  have hinside := (h.inside _ hcleared).stop_le (Nat.lt_of_lt_of_le hpos hle)
  rw [Span.stop, Nat.add_assoc] at hinside
  exact Nat.le_of_add_le_add_left hinside

/-- A refusal that changes nothing has cleared nothing. -/
theorem harmless_of_refused (hgood : Good s.arena) (hcur : s.arena.cur ≠ 0)
    (hnowrap : stop s.arena size < 2 ^ 64) (hcap : s.arena.cap.toNat < stop s.arena size)
    (h : ZallocCorrect s size) : s.arena.frontier + 2 ^ 63 ≤ stop s.arena size := by
  have hfrontier := hgood.frontier_le hcur
  have hmissing : s.arena.missing (stop s.arena size) = stop s.arena size - s.arena.frontier :=
    if_pos (by omega)
  by_contra hlt
  have hinside := inside_of_clears hgood hcur hnowrap h (by omega) (by omega)
  have hle : s.arena.missing (stop s.arena size) ≤
      alignUp (s.arena.missing (stop s.arena size)) 4096 := le_alignUp _ _
  omega

/-- A block that reaches the frontier needs the pages up to its end. -/
theorem harmless_of_fresh (hgood : Good s.arena) (hdirty : Dirty s)
    (hlast : s.arena.lastPageStart.toNat < s.arena.cur.toNat)
    (hnowrap : stop s.arena size < 2 ^ 64) (hcap : stop s.arena size ≤ s.arena.cap.toNat)
    (h : ZallocCorrect s size) :
    alignUp (stop s.arena size) 4096 ≤ s.arena.cap.toNat ∧
      stop s.arena size < s.arena.frontier + 2 ^ 63 := by
  have hne : s.arena.cur ≠ 0 :=
    UInt64.pos_iff_ne_zero.mp (Nat.lt_of_le_of_lt (Nat.zero_le _) hlast)
  rcases Nat.lt_or_ge s.arena.frontier (stop s.arena size) with hbehind | hwithin
  · have hmissing : s.arena.missing (stop s.arena size) = stop s.arena size - s.arena.frontier :=
      if_pos (Nat.le_of_lt hbehind)
    have hcur : s.arena.cur.toNat ≤ s.arena.frontier := by
      have hle := hgood.cur_le
      rwa [zeroed, if_pos hlast] at hle
    have hlt : stop s.arena size < s.arena.frontier + 2 ^ 63 := by
      by_contra hlong
      have hquiet := zeroNewPages_quiet hgood hne hnowrap (.inr (by omega))
      obtain ⟨c, hc, -⟩ := cleared_of_dirty h hnowrap hcap hcur hbehind
        (hdirty.behind s.arena.frontier (Nat.le_refl _))
      rw [cleared_eq hnowrap, hquiet] at hc
      cases hc
    have hinside := inside_of_clears hgood hne hnowrap h (by omega) (by omega)
    have hround := alignUp_missing hgood (Nat.le_of_lt hbehind)
    exact ⟨by omega, hlt⟩
  · have hround : alignUp (stop s.arena size) 4096 ≤ s.arena.frontier :=
      alignUp_le (by omega) hwithin hgood.dvd_frontier
    exact ⟨Nat.le_trans hround (hgood.frontier_le hne), by omega⟩

/-- Behind a stale `last_page_start` only the first page is zero. -/
theorem harmless_of_stale (hgood : Good s.arena) (hdirty : Dirty s) (hcur : s.arena.cur ≠ 0)
    (hlast : ¬ s.arena.lastPageStart.toNat < s.arena.cur.toNat)
    (hnowrap : stop s.arena size < 2 ^ 64) (hcap : stop s.arena size ≤ s.arena.cap.toNat)
    (h : ZallocCorrect s size) :
    stop s.arena size ≤ 4096 ∧ s.arena.frontier ≤ stop s.arena size + 2 ^ 63 := by
  have hstale := hgood.frontier_of_stale hcur hlast
  have hle : s.arena.cur.toNat ≤ 4096 := by
    have hle := hgood.cur_le
    rwa [zeroed, if_neg hlast] at hle
  have hpage : stop s.arena size ≤ 4096 := by
    by_contra hlong
    obtain ⟨c, hc, hi⟩ := cleared_of_dirty h hnowrap hcap hle (Nat.not_le.mp hlong) hdirty.page
    rw [cleared_eq hnowrap, zeroNewPages_of_cur_ne hcur (hgood.frontier_lt hcur) hnowrap] at hc
    simp only at hc
    split at hc
    · cases hc
      -- the pages that are cleared lie behind the second one
      have hstart : s.arena.mem + s.arena.frontier ≤ s.arena.mem + 4096 := hi.1
      omega
    · cases hc
  refine ⟨hpage, ?_⟩
  by_contra hfar
  have hmissing : s.arena.missing (stop s.arena size) =
      stop s.arena size + 2 ^ 64 - s.arena.frontier := if_neg (by omega)
  have hfrontier := hgood.frontier_lt hcur
  have hinside := inside_of_clears hgood hcur hnowrap h (by omega) (by omega)
  have hround : s.arena.missing (stop s.arena size) ≤
      alignUp (s.arena.missing (stop s.arena size)) 4096 := le_alignUp _ _
  have hcap' := s.arena.cap.toNat_lt
  omega

theorem harmless_of_correct (hgood : Good s.arena) (hdirty : Dirty s)
    (hnowrap : NoWrap s.arena (.zalloc size)) (h : ZallocCorrect s size) :
    Harmless s.arena (.zalloc size) := by
  simp only [Harmless]
  split
  case isTrue hcur => exact harmless_of_cur_eq hgood hdirty hcur hnowrap.2 h
  case isFalse hcur =>
    split
    case isTrue hcap => exact harmless_of_refused hgood hcur hnowrap.2 hcap h
    case isFalse hcap =>
      have hcap' := Nat.not_lt.mp hcap
      split
      case isTrue hlast => exact harmless_of_fresh hgood hdirty hlast hnowrap.2 hcap' h
      case isFalse hlast => exact harmless_of_stale hgood hdirty hcur hlast hnowrap.2 hcap' h

/-- A harmless request clears nothing behind the new frontier. -/
theorem behind_of_outcome (hgood : Good s.arena) (hdirty : Dirty s)
    (hr : Outcome s.arena size r) {i : ℕ} (hi : r.arena.frontier ≤ i) :
    explicitBzero s.memory r.cleared (s.arena.mem + i) ≠ 0 := by
  rw [explicitBzero_of_notMem]
  · exact hdirty.behind i (Nat.le_trans (frontier_le_of_outcome hgood hr) hi)
  · intro c hc hmem
    have hstop := le_frontier_of_outcome hgood hr c hc
    have hlt : s.arena.mem + i < c.stop := hmem.2
    omega

/-- The byte behind the first page is cleared only for a block that it belongs to. -/
theorem page_of_outcome (hgood : Good s.arena) (hdirty : Dirty s) (hr : Outcome s.arena size r) :
    explicitBzero s.memory r.cleared (s.arena.mem + 4096) ≠ 0 ∨
      r.ptr.isSome ∧ s.arena.mem + 4096 ∈ (block s.arena size).cells := by
  by_cases hcleared : ∃ c ∈ r.cleared, s.arena.mem + 4096 ∈ c.cells
  · right
    obtain ⟨c, hc, hlo, hhi⟩ := hcleared
    rcases cleared_cases hgood hr hc with ⟨-, -, rfl, -⟩ | ⟨hserved, hlast, hstop, -, -, rfl⟩
    · exact absurd hhi (Nat.lt_irrefl _)
    · have hle := hgood.cur_le
      rw [zeroed, if_pos hlast] at hle
      have hpage := hgood.frontier_eq
      change s.arena.mem + s.arena.frontier ≤ s.arena.mem + 4096 at hlo
      exact ⟨hserved, mem_block.mpr ⟨by omega, by omega⟩⟩
  · left
    rw [explicitBzero_of_notMem]
    · exact hdirty.page
    · intro c hc hmem
      exact hcleared ⟨c, hc, hmem⟩

/-- The program writes to the byte behind the first page. -/
theorem Dirty.write {t : State} {x : ℕ} (hx : x = t.arena.mem + 4096)
    (hlive : ∃ b ∈ t.live, x ∈ b.cells)
    (hbehind : ∀ i, t.arena.frontier ≤ i → t.memory (t.arena.mem + i) ≠ 0) :
    ∃ t', step t (.write x 7) = some t' ∧ t'.arena = t.arena ∧ Dirty t' := by
  have hdirt : (7 : UInt8) ≠ 0 := by decide
  have hupdate : ∀ y, y = x ∨ t.memory y ≠ 0 → Function.update t.memory x 7 y ≠ 0 := by
    intro y hy
    rw [Function.update_apply]
    split
    case isTrue => exact hdirt
    case isFalse hne => exact hy.resolve_left hne
  refine ⟨_, if_pos hlive, rfl, ?_, ?_⟩
  · exact hupdate _ (.inl hx.symm)
  · intro i hi
    exact hupdate _ (.inr (hbehind i hi))

/-- The program dirties what the arena has cleared, as far as it is given it. -/
theorem Dirty.deliver (hgood : Good s.arena) (hdirty : Dirty s)
    (hnowrap : stop s.arena size < 2 ^ 64) (hr : Outcome s.arena size r) :
    Dirty (deliver s size r) ∨
      ∃ s', step (deliver s size r) (.write (s.arena.mem + 4096) 7) = some s' ∧
        s'.arena = r.arena ∧ Dirty s' := by
  obtain ⟨hmem, -⟩ := bounds_of_outcome hnowrap hr
  have hbehind : ∀ i, r.arena.frontier ≤ i →
      explicitBzero s.memory r.cleared (r.arena.mem + i) ≠ 0 := by
    intro i hi
    rw [hmem]
    exact behind_of_outcome hgood hdirty hr hi
  rcases page_of_outcome hgood hdirty hr with hpage | ⟨hserved, hblock⟩
  · left
    refine ⟨?_, hbehind⟩
    show explicitBzero s.memory r.cleared (r.arena.mem + 4096) ≠ 0
    rw [hmem]
    exact hpage
  · right
    have hlive : (Poc.deliver s size r).live = block s.arena size :: s.live := if_pos hserved
    have hmine : ∃ b ∈ (Poc.deliver s size r).live, s.arena.mem + 4096 ∈ b.cells := by
      rw [hlive]
      exact ⟨_, List.mem_cons_self, hblock⟩
    have hx : s.arena.mem + 4096 = (Poc.deliver s size r).arena.mem + 4096 := by
      rw [← hmem]
      rfl
    exact Dirty.write hx hmine hbehind

end Refuted

/-- If nothing the program can do makes a run of these requests go wrong, they are harmless. -/
theorem along_harmless {s : State} (hgood : Good s.arena) (hdirty : Dirty s)
    {requests : List Request} (hnowrap : Along requestStep NoWrap s.arena requests)
    (h : ∀ calls, requestsOf calls = requests → Along step Correct s calls) :
    Along requestStep Harmless s.arena requests := by
  induction requests generalizing s with
  | nil => exact trivial
  | cons r requests ih =>
    have hhead : Correct s (.request r) := by
      have hall := h (.request r :: requests.map .request) (by simp [requestsOf])
      exact hall.1
    have hrest : ∀ calls, requestsOf calls = requests → Along step Correct (perform s r) calls := by
      intro calls hcalls
      have hall := h (.request r :: calls) (by rw [requestsOf, ← hcalls]; rfl)
      exact hall.2 _ rfl
    have hnext : Along requestStep NoWrap (perform s r).arena requests := by
      rw [perform_arena]
      exact hnowrap.2 _ rfl
    have hgoal : Harmless s.arena r ∧ Along requestStep Harmless (perform s r).arena requests := by
      cases r with
      | free =>
        have hdirty' : Dirty (perform s .free) := ⟨hdirty.page, hdirty.behind⟩
        exact ⟨trivial, ih hgood.free hdirty' hnext hrest⟩
      | zalloc size =>
        have hharmless := harmless_of_correct hgood hdirty hnowrap.1 hhead
        have hr := outcome_of_harmless hgood hnowrap.1 hharmless
        have hgood' := hgood.outcome hnowrap.1.2 hr
        refine ⟨hharmless, ?_⟩
        rcases hdirty.deliver hgood hnowrap.1.2 hr with hdirty' | ⟨s', hs', harena, hdirty'⟩
        · exact ih hgood' hdirty' hnext hrest
        · have hkeep : (perform s (.zalloc size)).arena = s'.arena := harena.symm
          rw [hkeep] at hnext ⊢
          apply ih (harena ▸ hgood') hdirty' hnext
          intro calls hcalls
          have hall := hrest (.write (s.arena.mem + 4096) 7 :: calls) hcalls
          exact hall.2 s' hs'
    refine ⟨hgoal.1, ?_⟩
    intro a ha
    have harena : serve s.arena r = a := Option.some.inj ha
    rw [← harena, ← perform_arena]
    exact hgoal.2

theorem dirty_filled (a : UArena) : Dirty ⟨a, fun _ => 7, []⟩ := by
  have hdirt : (7 : UInt8) ≠ 0 := by decide
  exact ⟨hdirt, fun _ _ => hdirt⟩

/-- **The condition is exact.**  A list of requests on a new arena is served as by an allocator
    that clears each block, for every residual memory and whatever the program writes to its
    blocks in between, if and only if each request is harmless where it is made. -/
theorem page_zalloc_correct_iff {a : UArena} (hstart : Start a) {requests : List Request}
    (hnowrap : Along requestStep NoWrap a requests) :
    (∀ memory calls, requestsOf calls = requests → Along step Correct ⟨a, memory, []⟩ calls) ↔
      Along requestStep Harmless a requests := by
  constructor
  · intro h
    exact along_harmless hstart.good (dirty_filled a) hnowrap (h fun _ => 7)
  · rintro h memory calls rfl
    exact along_correct (hstart.clean memory) hnowrap h

/-- An arena of two pages. -/
def twoPages : UArena where
  alignment := 16
  pageSz := 4096
  lastPageStart := 0
  cap := 8192
  cur := 0
  mem := 65536

theorem start_twoPages : Start twoPages :=
  ⟨by decide, by decide, rfl, rfl, rfl⟩

/-- Two blocks in the first page, and a third that ends in the second. -/
theorem page_zalloc_correct_three :
    Along requestStep Harmless twoPages [.zalloc 100, .zalloc 3000, .zalloc 5000] ∧
      ∀ memory calls, requestsOf calls = [.zalloc 100, .zalloc 3000, .zalloc 5000] →
        Along step Correct ⟨twoPages, memory, []⟩ calls := by
  have hharmless : Along requestStep Harmless twoPages [.zalloc 100, .zalloc 3000, .zalloc 5000] := by
    decide +kernel
  have hnowrap : Along requestStep NoWrap twoPages [.zalloc 100, .zalloc 3000, .zalloc 5000] := by
    decide +kernel
  exact ⟨hharmless, (page_zalloc_correct_iff start_twoPages hnowrap).mpr hharmless⟩

/-- The first block takes the whole arena, and its second page is as dirty as before. -/
theorem first_block_not_zero :
    Start twoPages ∧ Along requestStep NoWrap twoPages [.zalloc 8192] ∧
      ¬ Along step Correct ⟨twoPages, fun _ => 7, []⟩ [.request (.zalloc 8192)] := by
  refine ⟨start_twoPages, by decide +kernel, ?_⟩
  rintro ⟨hcorrect, -⟩
  have hserved : (uArenaZalloc twoPages 8192).ptr = some 65536 := by decide +kernel
  have hsecond : 69632 ∈ (block twoPages 8192).cells := by
    rw [Span.mem_cells]
    decide +kernel
  have hzero := (hcorrect.zero 65536 hserved).2 69632 hsecond
  have hdirty : (perform ⟨twoPages, fun _ => 7, []⟩ (.zalloc 8192)).memory 69632 = 7 := by
    decide +kernel
  rw [hdirty] at hzero
  exact absurd hzero (by decide)

end Lmalloc.Poc
