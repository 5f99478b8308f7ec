/-
  Lmalloc/Library/Provenance.lean
  ===============================
  **Memory whose cells remember their writer, in two runs.**

  A step of the machine changes its control state and makes one `Update` of the
  memory; what it does to the control state does not depend on the memory.  A cell
  holds a value and the writer it comes from; a cleared cell comes from nobody.

  Two memories are the same but for the writers in `S` when every cell comes from
  the same writer in both and, unless that one is in `S`, holds the same value.  Two
  runs that differ only in what the writers in `S` write end in such memories
  (`run_sameBut`).  And what is the same before a common run is the same after it
  (`run_agree`).
-/
import Mathlib.Logic.Function.Basic
import Lmalloc.Library.Run

namespace Lmalloc.Library

structure Cell (β ω : Type*) where
  value : β
  writer : Option ω

abbrev Store (ι β ω : Type*) := ι → Cell β ω

inductive Update (ι β ω : Type*) where
  | keep
  | write (i : ι) (v : β) (w : ω)
  | clear (cleared : ι → Bool)

variable {ι β ω κ α : Type*}

def Update.apply [DecidableEq ι] [Zero β] (m : Store ι β ω) : Update ι β ω → Store ι β ω
  | keep => m
  | write i v w => Function.update m i ⟨v, some w⟩
  | clear cleared => fun i => if cleared i then ⟨0, none⟩ else m i

/-! ### Memories that differ in the values of some writers -/

/-- The value of the cell does not come from a writer in `S`. -/
def Cell.Clean (S : ω → Prop) (x : Cell β ω) : Prop := ∀ w, x.writer = some w → ¬ S w

structure Store.SameBut (S : ω → Prop) (m₁ m₂ : Store ι β ω) : Prop where
  writer : ∀ i, (m₁ i).writer = (m₂ i).writer
  value : ∀ i, (m₁ i).Clean S → (m₁ i).value = (m₂ i).value

/-- The same update, or one that writes another value for a writer in `S`. -/
def Update.SameBut (S : ω → Prop) (u₁ u₂ : Update ι β ω) : Prop :=
  u₁ = u₂ ∨ ∃ i v₁ v₂ w, u₁ = write i v₁ w ∧ u₂ = write i v₂ w ∧ S w

section SameBut

variable {S : ω → Prop} {m₁ m₂ : Store ι β ω}

theorem Store.SameBut.refl (S : ω → Prop) (m : Store ι β ω) : Store.SameBut S m m :=
  ⟨fun _ => rfl, fun _ _ => rfl⟩

theorem Store.SameBut.eq_of_clean (h : Store.SameBut S m₁ m₂) {i : ι} (hi : (m₁ i).Clean S) :
    m₁ i = m₂ i := by
  have hwriter := h.writer i
  have hvalue := h.value i hi
  cases h₁ : m₁ i
  cases h₂ : m₂ i
  simp_all

variable [DecidableEq ι] [Zero β]

theorem Update.apply_agree (u : Update ι β ω) {i : ι} (h : m₁ i = m₂ i) :
    u.apply m₁ i = u.apply m₂ i := by
  cases u with
  | keep => exact h
  | write j v w =>
    by_cases hj : i = j
    · subst hj
      simp only [apply, Function.update_self]
    · simp only [apply, Function.update_of_ne hj, h]
  | clear cleared => simp only [apply, h]

theorem Store.SameBut.write (h : Store.SameBut S m₁ m₂) (i : ι) {v₁ v₂ : β} {w : ω}
    (hv : v₁ = v₂ ∨ S w) :
    Store.SameBut S ((Update.write i v₁ w).apply m₁) ((Update.write i v₂ w).apply m₂) := by
  constructor
  · intro j
    by_cases hj : j = i
    · subst hj
      simp only [Update.apply, Function.update_self]
    · simp only [Update.apply, Function.update_of_ne hj, h.writer j]
  · intro j hclean
    by_cases hj : j = i
    · subst hj
      simp only [Update.apply, Function.update_self] at hclean ⊢
      exact hv.resolve_right (hclean w rfl)
    · simp only [Update.apply, Function.update_of_ne hj] at hclean ⊢
      exact h.value j hclean

theorem Store.SameBut.clear (h : Store.SameBut S m₁ m₂) (cleared : ι → Bool) :
    Store.SameBut S ((Update.clear cleared).apply m₁) ((Update.clear cleared).apply m₂) := by
  constructor
  · intro i
    simp only [Update.apply]
    split
    · rfl
    · exact h.writer i
  · intro i hclean
    simp only [Update.apply] at hclean ⊢
    split
    · rfl
    · rename_i hi
      rw [if_neg hi] at hclean
      exact h.value i hclean

theorem Store.SameBut.apply (h : Store.SameBut S m₁ m₂) {u₁ u₂ : Update ι β ω}
    (hu : u₁.SameBut S u₂) : Store.SameBut S (u₁.apply m₁) (u₂.apply m₂) := by
  rcases hu with rfl | ⟨i, v₁, v₂, w, rfl, rfl, hw⟩
  · cases u₁ with
    | keep => exact h
    | write i v w => exact h.write i (Or.inl rfl)
    | clear cleared => exact h.clear cleared
  · exact h.write i (Or.inr hw)

end SameBut

/-! ### Machines that do not look at their memory -/

variable (next : κ → α → Option (κ × Update ι β ω))

def storeStep [DecidableEq ι] [Zero β] (s : κ × Store ι β ω) (a : α) : Option (κ × Store ι β ω) :=
  (next s.1 a).map fun r => (r.1, r.2.apply s.2)

/-- The same label, or two that write different values for one writer in `S`. -/
def LabelSameBut (S : ω → Prop) (k : κ) (a₁ a₂ : α) : Prop :=
  a₁ = a₂ ∨ ∃ k' u₁ u₂, next k a₁ = some (k', u₁) ∧ next k a₂ = some (k', u₂) ∧ u₁.SameBut S u₂

/-- Two lists of labels that differ, from the control state on, only in the values that
    writers in `S` write. -/
def DifferOnlyIn (S : ω → Prop) : κ → List α → List α → Prop
  | _, [], [] => True
  | k, a₁ :: as₁, a₂ :: as₂ =>
      LabelSameBut next S k a₁ a₂ ∧ ∀ k' u, next k a₁ = some (k', u) → DifferOnlyIn S k' as₁ as₂
  | _, _, _ => False

section Runs

variable {next} {S : ω → Prop} {k k' : κ} {m₁ m₁' m₂ : Store ι β ω}

theorem differOnlyIn_refl (S : ω → Prop) (k : κ) (as : List α) :
    DifferOnlyIn next S k as as := by
  induction as generalizing k with
  | nil => exact trivial
  | cons a as ih => exact ⟨Or.inl rfl, fun k' _ _ => ih k'⟩

variable [DecidableEq ι] [Zero β]

theorem storeStep_of_next {a : α} {u : Update ι β ω} (h : next k a = some (k', u))
    (m : Store ι β ω) : storeStep next (k, m) a = some (k', u.apply m) := by
  simp only [storeStep, h, Option.map_some]

theorem storeStep_eq_some {s : κ × Store ι β ω} {a : α} :
    storeStep next (k, m₁) a = some s ↔
      ∃ k' u, next k a = some (k', u) ∧ s = (k', u.apply m₁) := by
  simp only [storeStep, Option.map_eq_some_iff, Prod.exists]
  exact exists_congr fun k' => exists_congr fun u => and_congr_right fun _ => eq_comm

/-- Two lists that differ in one label. -/
theorem differOnlyIn_one {as bs : List α} {a₁ a₂ : α}
    (h : run (storeStep next) (k, m₁) as = some (k', m₁'))
    (ha : LabelSameBut next S k' a₁ a₂) :
    DifferOnlyIn next S k (as ++ a₁ :: bs) (as ++ a₂ :: bs) := by
  induction as generalizing k m₁ with
  | nil =>
    obtain ⟨rfl, -⟩ : k = k' ∧ m₁ = m₁' := by simpa using h
    exact ⟨ha, fun k'' _ _ => differOnlyIn_refl S k'' bs⟩
  | cons a as ih =>
    obtain ⟨s, hstep, hrun⟩ := run_cons_eq_some.mp h
    obtain ⟨k₁, u, hnext, rfl⟩ := storeStep_eq_some.mp hstep
    refine ⟨Or.inl rfl, ?_⟩
    intro k₂ u₂ h₂
    obtain ⟨rfl, rfl⟩ : k₁ = k₂ ∧ u = u₂ := by simpa using hnext.symm.trans h₂
    exact ih hrun

theorem storeStep_sameBut {a₁ a₂ : α} (ha : LabelSameBut next S k a₁ a₂)
    (hm : Store.SameBut S m₁ m₂) (h : storeStep next (k, m₁) a₁ = some (k', m₁')) :
    ∃ m₂', storeStep next (k, m₂) a₂ = some (k', m₂') ∧ Store.SameBut S m₁' m₂' := by
  obtain ⟨k₁, u, hnext, heq⟩ := storeStep_eq_some.mp h
  cases heq
  rcases ha with rfl | ⟨k'', u₁, u₂, h₁, h₂, hu⟩
  · exact ⟨_, storeStep_of_next hnext m₂, hm.apply (Or.inl rfl)⟩
  · obtain ⟨rfl, rfl⟩ : k'' = k' ∧ u₁ = u := by simpa using h₁.symm.trans hnext
    exact ⟨_, storeStep_of_next h₂ m₂, hm.apply hu⟩

/-- **Runs that differ only in what the writers in `S` write end in memories that are the
    same but for those writers.** -/
theorem run_sameBut {as₁ as₂ : List α} (has : DifferOnlyIn next S k as₁ as₂)
    (hm : Store.SameBut S m₁ m₂) (h : run (storeStep next) (k, m₁) as₁ = some (k', m₁')) :
    ∃ m₂', run (storeStep next) (k, m₂) as₂ = some (k', m₂') ∧ Store.SameBut S m₁' m₂' := by
  induction as₁ generalizing as₂ k m₁ m₂ with
  | nil =>
    cases as₂ with
    | nil =>
      obtain ⟨rfl, rfl⟩ : k = k' ∧ m₁ = m₁' := by simpa using h
      exact ⟨m₂, rfl, hm⟩
    | cons a₂ as₂ => exact has.elim
  | cons a₁ as₁ ih =>
    cases as₂ with
    | nil => exact has.elim
    | cons a₂ as₂ =>
      obtain ⟨s, hstep, hrun⟩ := run_cons_eq_some.mp h
      obtain ⟨k'', u, hnext, rfl⟩ := storeStep_eq_some.mp hstep
      obtain ⟨m₂'', hstep₂, hm''⟩ := storeStep_sameBut has.1 hm hstep
      obtain ⟨m₂', hrun₂, hm'⟩ := ih (has.2 k'' u hnext) hm'' hrun
      exact ⟨m₂', by rw [run_cons_of_step hstep₂, hrun₂], hm'⟩

/-- **Cells that are the same before a common run are the same after it.** -/
theorem run_agree {I : Set ι} {as : List α} (hm : ∀ i ∈ I, m₁ i = m₂ i)
    (h : run (storeStep next) (k, m₁) as = some (k', m₁')) :
    ∃ m₂', run (storeStep next) (k, m₂) as = some (k', m₂') ∧ ∀ i ∈ I, m₁' i = m₂' i := by
  induction as generalizing k m₁ m₂ with
  | nil =>
    obtain ⟨rfl, rfl⟩ : k = k' ∧ m₁ = m₁' := by simpa using h
    exact ⟨m₂, rfl, hm⟩
  | cons a as ih =>
    obtain ⟨s, hstep, hrun⟩ := run_cons_eq_some.mp h
    obtain ⟨k'', u, hnext, rfl⟩ := storeStep_eq_some.mp hstep
    obtain ⟨m₂', hrun₂, hm'⟩ := ih (fun i hi => u.apply_agree (hm i hi)) hrun
    exact ⟨m₂', by rw [run_cons_of_step (storeStep_of_next hnext m₂), hrun₂], hm'⟩

/-- After a run a cell is as it was, whatever it held, or its writer could have written any
    other value. -/
theorem run_untouched_or_changed {i : ι} {w : ω} {v : β} (hw : S w)
    (hany : ∀ k a k' v w, next k a = some (k', .write i v w) →
      ∀ v', ∃ a', next k a' = some (k', .write i v' w))
    {as : List α} (h : run (storeStep next) (k, m₁) as = some (k', m₁'))
    (hwriter : (m₁' i).writer = some w) :
    (∀ m, ∃ m', run (storeStep next) (k, m) as = some (k', m') ∧ m' i = m i) ∨
      ∃ as' m', DifferOnlyIn next S k as as' ∧
        run (storeStep next) (k, m₁) as' = some (k', m') ∧ (m' i).value = v := by
  induction as generalizing k m₁ with
  | nil =>
    obtain ⟨rfl, rfl⟩ : k = k' ∧ m₁ = m₁' := by simpa using h
    exact Or.inl fun m => ⟨m, rfl, rfl⟩
  | cons a as ih =>
    obtain ⟨s, hstep, hrun⟩ := run_cons_eq_some.mp h
    obtain ⟨k₁, u, hnext, rfl⟩ := storeStep_eq_some.mp hstep
    rcases ih hrun with hrest | ⟨as', m', hdiff, hrun', hvalue⟩
    · have huntouched : (∀ m : Store ι β ω, u.apply m i = m i) →
          ∀ m, ∃ m', run (storeStep next) (k, m) (a :: as) = some (k', m') ∧ m' i = m i := by
        intro hkeep m
        obtain ⟨m', hrun', hi⟩ := hrest (u.apply m)
        exact ⟨m', by rw [run_cons_of_step (storeStep_of_next hnext m), hrun'],
          hi.trans (hkeep m)⟩
      cases u with
      | keep => exact Or.inl (huntouched fun _ => rfl)
      | write j x w' =>
        by_cases hj : i = j
        · subst hj
          -- this is the last write to the cell: `w` writes `v` instead
          obtain ⟨m₃, hrun₃, hi₃⟩ := hrest ((Update.write i x w').apply m₁)
          obtain rfl : m₁' = m₃ := by simpa using hrun.symm.trans hrun₃
          obtain rfl : w' = w := by simpa [hi₃, Update.apply] using hwriter
          obtain ⟨a', ha'⟩ := hany k a k₁ x w' hnext v
          obtain ⟨m', hrun', hi'⟩ := hrest ((Update.write i v w').apply m₁)
          refine Or.inr ⟨a' :: as, m', ⟨?_, fun k₂ _ _ => ?_⟩, ?_, ?_⟩
          · exact Or.inr ⟨k₁, _, _, hnext, ha', Or.inr ⟨i, x, v, w', rfl, rfl, hw⟩⟩
          · exact differOnlyIn_refl S k₂ as
          · rw [run_cons_of_step (storeStep_of_next ha' m₁), hrun']
          · simp [hi', Update.apply]
        · exact Or.inl (huntouched fun m => by simp only [Update.apply, Function.update_of_ne hj])
      | clear cleared =>
        rcases hc : cleared i with _ | _
        · exact Or.inl (huntouched fun m => by simp [Update.apply, hc])
        · obtain ⟨m₃, hrun₃, hi₃⟩ := hrest ((Update.clear cleared).apply m₁)
          obtain rfl : m₁' = m₃ := by simpa using hrun.symm.trans hrun₃
          simp [hi₃, Update.apply, hc] at hwriter
    · refine Or.inr ⟨a :: as', m', ⟨Or.inl rfl, ?_⟩, ?_, hvalue⟩
      · intro k₂ u₂ h₂
        obtain ⟨rfl, rfl⟩ : k₁ = k₂ ∧ u = u₂ := by simpa using hnext.symm.trans h₂
        exact hdiff
      · rw [run_cons_of_step hstep, hrun']

end Runs

end Lmalloc.Library
