/-
  Lmalloc/Library/Tiling.lean
  ===========================
  **Ranges that fill an interval without overlap.**

  A range is its start and its width.  A list of ranges tiles the interval from 0
  to a total when none is empty, all are inside, every point is in one, and no two
  overlap.  Laying the next range where the last one ends keeps a tiling.
-/
import Mathlib.Algebra.Order.Group.Defs

namespace Lmalloc.Library

variable {α : Type*} [AddCommGroup α] [LinearOrder α]

structure Tiles (total : α) (ranges : List (α × α)) : Prop where
  total_nonneg : 0 ≤ total
  positive : ∀ r ∈ ranges, 0 < r.2
  inside : ∀ r ∈ ranges, 0 ≤ r.1 ∧ r.1 + r.2 ≤ total
  covers : ∀ p, 0 ≤ p → p < total → ∃ r ∈ ranges, r.1 ≤ p ∧ p < r.1 + r.2
  apart : ranges.Pairwise fun r s => r.1 + r.2 ≤ s.1 ∨ s.1 + s.2 ≤ r.1

namespace Tiles

theorem nil : Tiles (0 : α) [] where
  total_nonneg := le_refl 0
  positive := fun _ h => absurd h List.not_mem_nil
  inside := fun _ h => absurd h List.not_mem_nil
  covers := fun _ hp hlt => absurd (lt_of_le_of_lt hp hlt) (lt_irrefl 0)
  apart := List.Pairwise.nil

theorem append [IsOrderedAddMonoid α] {total w : α} {ranges : List (α × α)}
    (h : Tiles total ranges) (hw : 0 < w) : Tiles (total + w) (ranges ++ [(total, w)]) := by
  have hgrows : total ≤ total + w := le_add_of_nonneg_right (le_of_lt hw)
  constructor
  · exact le_trans h.total_nonneg hgrows
  · intro r hr
    rcases List.mem_append.mp hr with hold | hnew
    · exact h.positive r hold
    · rw [List.mem_singleton.mp hnew]
      exact hw
  · intro r hr
    rcases List.mem_append.mp hr with hold | hnew
    · exact ⟨(h.inside r hold).1, le_trans (h.inside r hold).2 hgrows⟩
    · rw [List.mem_singleton.mp hnew]
      exact ⟨h.total_nonneg, le_refl _⟩
  · intro p hp hlt
    rcases lt_or_ge p total with hbefore | hafter
    · obtain ⟨r, hr, hin⟩ := h.covers p hp hbefore
      exact ⟨r, List.mem_append_left _ hr, hin⟩
    · exact ⟨(total, w), List.mem_append_right _ List.mem_cons_self, hafter, hlt⟩
  · apply List.pairwise_append.mpr
    refine ⟨h.apart, List.pairwise_singleton _ _, ?_⟩
    intro r hr s hs
    rw [List.mem_singleton.mp hs]
    exact Or.inl (h.inside r hr).2

end Tiles

end Lmalloc.Library
