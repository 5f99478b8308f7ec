/-
  Lmalloc/Library/Table.lean
  ==========================
  **Lists as tables.**

  An entry of a table that has been extended or updated is the new entry or one of
  the old ones.  A property that is counted once in a table without repetitions holds
  of one entry only.
-/
import Mathlib.Data.List.Basic
import Mathlib.Data.List.Nodup

namespace Lmalloc.Library

variable {α : Type*} {as : List α} {a b : α} {i j : ℕ}

theorem getElem?_concat_cases (h : (as ++ [a])[i]? = some b) :
    as[i]? = some b ∨ (i = as.length ∧ b = a) := by
  rcases Nat.lt_or_ge i as.length with hlt | hge
  · rw [List.getElem?_append_left hlt] at h
    exact Or.inl h
  · rw [List.getElem?_append_right hge, List.getElem?_singleton] at h
    split at h
    · cases h
      exact Or.inr ⟨by omega, rfl⟩
    · cases h

theorem getElem?_concat_of_some (h : as[i]? = some b) : (as ++ [a])[i]? = some b := by
  have hlt := (List.getElem?_eq_some_iff.mp h).1
  rw [List.getElem?_append_left hlt, h]

theorem getElem?_set_cases (h : (as.set i a)[j]? = some b) :
    (j = i ∧ b = a) ∨ (j ≠ i ∧ as[j]? = some b) := by
  by_cases hj : j = i
  · rw [hj, List.getElem?_set_self'] at h
    obtain ⟨_, _, hb⟩ := Option.map_eq_some_iff.mp h
    exact Or.inl ⟨hj, hb.symm⟩
  · rw [List.getElem?_set_ne (Ne.symm hj)] at h
    exact Or.inr ⟨hj, h⟩

theorem set_of_getElem? (h : as[i]? = some a) : as.set i a = as := by
  refine List.ext_getElem? fun k => ?_
  by_cases hk : k = i
  · rw [hk, List.getElem?_set_self (List.getElem?_eq_some_iff.mp h).1, h]
  · rw [List.getElem?_set_ne (Ne.symm hk)]

section Count

variable {p : α → Bool}

theorem countP_eq_one [DecidableEq α] (h : as.Nodup) (ha : a ∈ as) (hp : p a = true)
    (honly : ∀ b ∈ as, p b = true → b = a) : as.countP p = 1 := by
  have hsame : as.countP p = as.count a := by
    apply List.countP_congr
    intro b hb
    constructor
    · intro hpb
      exact beq_iff_eq.mpr (honly b hb hpb)
    · intro hba
      rw [beq_iff_eq.mp hba]
      exact hp
  rw [hsame]
  exact List.count_eq_one_of_mem h ha

theorem eq_of_countP_eq_one (h : as.countP p = 1) (ha : a ∈ as) (hb : b ∈ as)
    (hpa : p a = true) (hpb : p b = true) : a = b := by
  rw [List.countP_eq_length_filter, List.length_eq_one_iff] at h
  obtain ⟨m, hm⟩ := h
  have hone : ∀ c ∈ as, p c = true → c = m := by
    intro c hc hpc
    have hmem : c ∈ as.filter p := List.mem_filter.mpr ⟨hc, hpc⟩
    rw [hm] at hmem
    exact List.mem_singleton.mp hmem
  exact (hone a ha hpa).trans (hone b hb hpb).symm

end Count

end Lmalloc.Library
