/-
  Lmalloc/Library/Chain.lean
  ==========================
  **Linked lists, given by the link of each cell.**

  `Chain next nil p xs` says that following `next` from `p` visits the cells `xs`
  and then comes to `nil`.  A chain is finite, and what lies on it is fixed by
  where it starts, so it visits no cell twice.
-/
import Mathlib.Data.List.Nodup

namespace Lmalloc.Library

section

variable {α : Type*} (next : α → α) (nil : α)

def Chain : α → List α → Prop
  | p, [] => p = nil
  | p, x :: xs => p = x ∧ x ≠ nil ∧ Chain (next x) xs

variable {next nil} {p : α} {xs ys : List α}

namespace Chain

theorem eq_nil (h : Chain next nil nil xs) : xs = [] := by
  cases xs with
  | nil => rfl
  | cons x xs => exact absurd h.1.symm h.2.1

/-- What is ahead of a cell is the cell itself, and what is ahead of its link. -/
theorem exists_cons (hp : p ≠ nil) (h : Chain next nil p xs) :
    ∃ ys, xs = p :: ys ∧ Chain next nil (next p) ys := by
  cases xs with
  | nil => exact absurd h hp
  | cons x ys =>
    obtain ⟨rfl, -, htail⟩ := h
    exact ⟨ys, rfl, htail⟩

theorem unique (h : Chain next nil p xs) (h' : Chain next nil p ys) : xs = ys := by
  induction xs generalizing p ys with
  | nil =>
    have hnil : p = nil := h
    subst hnil
    exact h'.eq_nil.symm
  | cons x xs ih =>
    obtain ⟨rfl, hne, htail⟩ := h
    obtain ⟨zs, rfl, htail'⟩ := h'.exists_cons hne
    rw [ih htail htail']

/-- A chain leads on from each of its cells. -/
theorem exists_suffix {x : α} (hx : x ∈ xs) (h : Chain next nil p xs) :
    ∃ zs, Chain next nil x (x :: zs) ∧ zs.length < xs.length := by
  induction xs generalizing p with
  | nil => exact absurd hx List.not_mem_nil
  | cons y ys ih =>
    obtain ⟨rfl, hne, htail⟩ := h
    rcases List.mem_cons.mp hx with rfl | hrest
    · exact ⟨ys, ⟨rfl, hne, htail⟩, Nat.lt_succ_self _⟩
    · obtain ⟨zs, hchain, hlen⟩ := ih hrest htail
      exact ⟨zs, hchain, Nat.lt_trans hlen (Nat.lt_succ_self _)⟩

/-- **A chain has no cycle**: a cell met twice would have two lists ahead of it. -/
theorem nodup (h : Chain next nil p xs) : xs.Nodup := by
  induction xs generalizing p with
  | nil => exact List.nodup_nil
  | cons x xs ih =>
    obtain ⟨rfl, hne, htail⟩ := h
    refine List.nodup_cons.mpr ⟨?_, ih htail⟩
    intro hmem
    obtain ⟨zs, hchain, hlen⟩ := htail.exists_suffix hmem
    have hsame : zs = xs := List.tail_eq_of_cons_eq (hchain.unique ⟨rfl, hne, htail⟩)
    rw [hsame] at hlen
    exact Nat.lt_irrefl _ hlen

/-- Only the links of its own cells matter to a chain. -/
theorem congr {next' : α → α} (hsame : ∀ x ∈ xs, next' x = next x) (h : Chain next nil p xs) :
    Chain next' nil p xs := by
  induction xs generalizing p with
  | nil => exact h
  | cons x xs ih =>
    obtain ⟨heq, hne, htail⟩ := h
    refine ⟨heq, hne, ?_⟩
    rw [hsame x List.mem_cons_self]
    exact ih (fun y hy => hsame y (List.mem_cons_of_mem x hy)) htail

end Chain

end

end Lmalloc.Library
