/-
  Lmalloc/Library/Span.lean
  =========================
  **Half-open spans of addresses, and lists of spans stacked on one another.**

  A span is a start and a size; its cells are the addresses in
  `[start, start + size)`.  An allocator that only moves a cursor upwards hands
  out spans that are `Stacked`: each one starts at or above the end of the one
  before.  Being stacked is what an induction over the calls can carry; that the
  spans lie inside the bounds and are pairwise disjoint follows from it once and
  for all.
-/
import Mathlib

namespace Lmalloc.Library

/-- The addresses `start, …, start + size - 1`. -/
structure Span where
  start : ℕ
  size : ℕ
deriving DecidableEq, Repr

namespace Span

def stop (s : Span) : ℕ := s.start + s.size

def cells (s : Span) : Set ℕ := Set.Ico s.start s.stop

def shift (base : ℕ) (s : Span) : Span := ⟨base + s.start, s.size⟩

/-- Every address of `s` lies in `[lo, hi)`. -/
def Within (lo hi : ℕ) (s : Span) : Prop := s.cells ⊆ Set.Ico lo hi

def PairwiseDisjoint (ss : List Span) : Prop := ss.Pairwise fun s t => Disjoint s.cells t.cells

@[simp] theorem mem_cells {s : Span} {a : ℕ} : a ∈ s.cells ↔ s.start ≤ a ∧ a < s.stop := Iff.rfl

@[simp] theorem stop_shift (base : ℕ) (s : Span) : (s.shift base).stop = base + s.stop := by
  simp only [stop, shift]
  omega

theorem within_of_bounds {lo hi : ℕ} {s : Span} (hlo : lo ≤ s.start) (hhi : s.stop ≤ hi) :
    s.Within lo hi := by
  rintro a ⟨ha, ha'⟩
  exact ⟨Nat.le_trans hlo ha, Nat.lt_of_lt_of_le ha' hhi⟩

/-- A nonempty span inside `[lo, hi)` ends at or below `hi`. -/
theorem Within.stop_le {lo hi : ℕ} {s : Span} (h : s.Within lo hi) (hpos : 0 < s.size) :
    s.stop ≤ hi := by
  have hlast : s.stop - 1 ∈ s.cells := by
    simp only [mem_cells, stop]
    omega
  have hlt : s.stop - 1 < hi := (h hlast).2
  simp only [stop] at hlt ⊢
  omega

theorem disjoint_of_stop_le {s t : Span} (h : s.stop ≤ t.start) : Disjoint s.cells t.cells := by
  refine Set.disjoint_left.mpr ?_
  rintro a ⟨_, hs⟩ ⟨ht, _⟩
  omega

theorem disjoint_iff {s t : Span} :
    Disjoint s.cells t.cells ↔ min s.stop t.stop ≤ max s.start t.start :=
  Set.Ico_disjoint_Ico

instance (s t : Span) : Decidable (Disjoint s.cells t.cells) :=
  decidable_of_iff _ disjoint_iff.symm

theorem ne_of_disjoint {s t : Span} (h : Disjoint s.cells t.cells) (hpos : 0 < s.size) : s ≠ t := by
  rintro rfl
  have hfirst : s.start ∈ s.cells := ⟨Nat.le_refl _, Nat.lt_add_of_pos_right hpos⟩
  exact Set.disjoint_left.mp h hfirst hfirst

/-! ### Stacked spans -/

/-- Each span starts at or above the end of the span before it, the first one at
    or above `lo`, and the last one ends at or below `hi`. -/
def Stacked (hi : ℕ) : ℕ → List Span → Prop
  | lo, [] => lo ≤ hi
  | lo, s :: ss => lo ≤ s.start ∧ Stacked hi s.stop ss

theorem Stacked.mono {hi lo lo' : ℕ} (hle : lo' ≤ lo) {ss : List Span} (h : Stacked hi lo ss) :
    Stacked hi lo' ss := by
  cases ss with
  | nil => exact Nat.le_trans hle h
  | cons s ss => exact ⟨Nat.le_trans hle h.1, h.2⟩

theorem Stacked.le {hi lo : ℕ} {ss : List Span} (h : Stacked hi lo ss) : lo ≤ hi := by
  induction ss generalizing lo with
  | nil => exact h
  | cons s ss ih =>
    have hstop : s.stop ≤ hi := ih h.2
    have hstart : s.start ≤ s.stop := Nat.le_add_right _ _
    exact Nat.le_trans h.1 (Nat.le_trans hstart hstop)

theorem Stacked.bounds {hi lo : ℕ} {ss : List Span} (h : Stacked hi lo ss) :
    ∀ s ∈ ss, lo ≤ s.start ∧ s.stop ≤ hi := by
  induction ss generalizing lo with
  | nil =>
    intro s hs
    cases hs
  | cons t ss ih =>
    intro s hs
    rcases List.mem_cons.mp hs with rfl | hs
    · exact ⟨h.1, h.2.le⟩
    · have hts : t.stop ≤ s.start := (ih h.2 s hs).1
      have htt : t.start ≤ t.stop := Nat.le_add_right _ _
      exact ⟨Nat.le_trans h.1 (Nat.le_trans htt hts), (ih h.2 s hs).2⟩

theorem Stacked.within {hi lo : ℕ} {ss : List Span} (h : Stacked hi lo ss) :
    ∀ s ∈ ss, s.Within lo hi := fun s hs =>
  within_of_bounds (h.bounds s hs).1 (h.bounds s hs).2

theorem Stacked.pairwiseDisjoint {hi lo : ℕ} {ss : List Span} (h : Stacked hi lo ss) :
    PairwiseDisjoint ss := by
  induction ss generalizing lo with
  | nil => exact List.Pairwise.nil
  | cons s ss ih =>
    refine List.pairwise_cons.mpr ⟨?_, ih h.2⟩
    intro t ht
    exact disjoint_of_stop_le (h.2.bounds t ht).1

theorem Stacked.shift {hi lo : ℕ} (base : ℕ) {ss : List Span} (h : Stacked hi lo ss) :
    Stacked (base + hi) (base + lo) (ss.map (Span.shift base)) := by
  induction ss generalizing lo with
  | nil => exact Nat.add_le_add_left h base
  | cons s ss ih =>
    refine ⟨Nat.add_le_add_left h.1 base, ?_⟩
    rw [stop_shift]
    exact ih h.2

end Span

end Lmalloc.Library
