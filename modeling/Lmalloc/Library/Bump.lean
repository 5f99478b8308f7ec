/-
  Lmalloc/Library/Bump.lean
  =========================
  **What a bump allocator is for.**

  A bump allocator owns `cap` cells and a cursor `cur ≤ cap`; the cells below the
  cursor are in use.  The bound is a field of the state, so no request can leave
  it.  The arithmetic is that of `ℕ`: nothing here wraps, and an implementation
  over machine words refines this model exactly as far as its own additions do
  not wrap.
-/
import Lmalloc.Library.Run
import Lmalloc.Library.Span

namespace Lmalloc.Library

structure Bump where
  cap : ℕ
  cur : ℕ
  cur_le : cur ≤ cap

inductive Request where
  | take (n : ℕ)      -- allocate `n` cells
  | drop (n : ℕ)      -- give back the last `n` cells
  | reserve (n : ℕ)   -- claim `n` cells, or report how many are left
  | seek (p : ℕ)      -- move the cursor
  | reset             -- give everything back
  | position
  | capacity
deriving DecidableEq, Repr

inductive Reply where
  | slot (offset : Option ℕ)
  | size (n : ℕ)
  | done
deriving DecidableEq, Repr

namespace Bump

def moveTo (b : Bump) (p : ℕ) (h : p ≤ b.cap) : Bump := ⟨b.cap, p, h⟩

@[simp] theorem cap_moveTo (b : Bump) (p : ℕ) (h : p ≤ b.cap) : (b.moveTo p h).cap = b.cap := rfl
@[simp] theorem cur_moveTo (b : Bump) (p : ℕ) (h : p ≤ b.cap) : (b.moveTo p h).cur = p := rfl

def serve (b : Bump) : Request → Reply × Bump
  | .take n =>
      if h : b.cur + n ≤ b.cap then (.slot (some b.cur), b.moveTo (b.cur + n) h)
      else (.slot none, b)
  | .drop n =>
      if n ≤ b.cur then (.done, b.moveTo (b.cur - n) (Nat.le_trans (Nat.sub_le _ _) b.cur_le))
      else (.done, b)
  | .reserve n =>
      if h : b.cur + n ≤ b.cap then (.size n, b.moveTo (b.cur + n) h)
      else (.size (b.cap - b.cur), b)
  | .seek p =>
      if h : p ≤ b.cap then (.slot (some p), b.moveTo p h) else (.slot none, b)
  | .reset => (.done, b.moveTo 0 (Nat.zero_le _))
  | .position => (.size b.cur, b)
  | .capacity => (.size b.cap, b)

@[simp] theorem cap_serve (b : Bump) (r : Request) : (b.serve r).2.cap = b.cap := by
  cases r with
  | take n => by_cases h : b.cur + n ≤ b.cap <;> simp [serve, h]
  | drop n => by_cases h : n ≤ b.cur <;> simp [serve, h]
  | reserve n => by_cases h : b.cur + n ≤ b.cap <;> simp [serve, h]
  | seek p => by_cases h : p ≤ b.cap <;> simp [serve, h]
  | reset => rfl
  | position => rfl
  | capacity => rfl

/-! ### The blocks handed out -/

/-- The block a request hands out: the cells a successful `take` or `reserve`
    moves the cursor over. -/
def handOut (b : Bump) : Request → Option Span
  | .take n => if b.cur + n ≤ b.cap then some ⟨b.cur, n⟩ else none
  | .reserve n => if b.cur + n ≤ b.cap then some ⟨b.cur, n⟩ else none
  | _ => none

/-- A request that never moves the cursor down. -/
def Grows : Request → Prop
  | .take _ | .reserve _ | .position | .capacity => True
  | _ => False

def blocks : Bump → List Request → List Span
  | _, [] => []
  | b, r :: rs => (b.handOut r).toList ++ blocks (b.serve r).2 rs

/-- One growing request either hands out nothing and stays put, or hands out the
    span between the old and the new cursor. -/
theorem handOut_cases (b : Bump) {r : Request} (hr : Grows r) :
    (b.handOut r = none ∧ (b.serve r).2 = b) ∨
      ∃ n, b.handOut r = some ⟨b.cur, n⟩ ∧ (b.serve r).2.cur = b.cur + n := by
  cases r with
  | take n =>
    by_cases h : b.cur + n ≤ b.cap
    · exact Or.inr ⟨n, by simp [handOut, h], by simp [serve, h]⟩
    · exact Or.inl ⟨by simp [handOut, h], by simp [serve, h]⟩
  | reserve n =>
    by_cases h : b.cur + n ≤ b.cap
    · exact Or.inr ⟨n, by simp [handOut, h], by simp [serve, h]⟩
    · exact Or.inl ⟨by simp [handOut, h], by simp [serve, h]⟩
  | position => exact Or.inl ⟨rfl, rfl⟩
  | capacity => exact Or.inl ⟨rfl, rfl⟩
  | drop n => exact hr.elim
  | seek p => exact hr.elim
  | reset => exact hr.elim

/-- **The blocks of a growing run are stacked** between the cursor and the
    capacity, hence inside the arena and pairwise disjoint. -/
theorem blocks_stacked (b : Bump) (rs : List Request) (hrs : ∀ r ∈ rs, Grows r) :
    Span.Stacked b.cap b.cur (b.blocks rs) := by
  induction rs generalizing b with
  | nil => exact b.cur_le
  | cons r rs ih =>
    have hrest := ih (b.serve r).2 (fun q hq => hrs q (List.mem_cons_of_mem r hq))
    rw [cap_serve] at hrest
    rcases handOut_cases b (hrs r List.mem_cons_self) with ⟨hnone, hsame⟩ | ⟨n, hsome, hcur⟩
    · rw [hsame] at hrest
      simpa [blocks, hnone, hsame] using hrest
    · rw [hcur] at hrest
      simp only [blocks, hsome, Option.toList_some, List.singleton_append]
      exact ⟨Nat.le_refl _, hrest⟩

end Bump

end Lmalloc.Library
