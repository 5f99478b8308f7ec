/-
  Lmalloc/Karena/Slots.lean
  =========================
  **What each entry point of the module does to the slot table.**

  One lemma for each outcome of a handler: the slot it writes, what it writes
  there, and that every other slot keeps its contents.  The later files argue
  with these lemmas and unfold none of the handlers.
-/
import Lmalloc.Karena.Module

namespace Lmalloc.Karena

/-! ### Slots and their indices -/

@[simp] theorem slot?_slotIndex (i : Slot) : slot? (slotIndex i) = some i := by
  have hi : i.val < 100 := i.isLt
  have hval : (UInt64.ofNat i.val).toNat = i.val := by
    rw [UInt64.toNat_ofNat']
    omega
  simp [slot?, slotIndex, hval]

section SetSlot

variable (k : Kernel) (i : Slot) (a : KArena)

@[simp] theorem karenas_setSlot_same : (k.setSlot i a).karenas i = a := by
  simp only [Kernel.setSlot, Function.update_self]

theorem karenas_setSlot_other {i j : Slot} (h : j ≠ i) :
    (k.setSlot i a).karenas j = k.karenas j := by
  simp only [Kernel.setSlot, Function.update_of_ne h]

@[simp] theorem regions_setSlot : (k.setSlot i a).regions = k.regions := rfl
@[simp] theorem vfreed_setSlot : (k.setSlot i a).vfreed = k.vfreed := rfl
@[simp] theorem currentArenaIndex_setSlot :
    (k.setSlot i a).currentArenaIndex = k.currentArenaIndex := rfl

@[simp] theorem setSlot_setSlot (b : KArena) : (k.setSlot i a).setSlot i b = k.setSlot i b := by
  simp [Kernel.setSlot]

end SetSlot

/-! ### `find_open_slot` -/

/-- The scan with `left` slots to go returns the first free slot from there on. -/
theorem openSlotLoop_eq_some_iff (t : SlotTable) (left : ℕ) (h : left ≤ 100) (i : Slot) :
    openSlotLoop t left h = some i ↔
      (t i).uaddr = 0 ∧ 100 - left ≤ i.val ∧
        ∀ j : Slot, 100 - left ≤ j.val → j < i → (t j).uaddr ≠ 0 := by
  have hi : i.val < 100 := i.isLt
  induction left with
  | zero =>
    simp only [openSlotLoop]
    constructor
    · rintro ⟨⟩
    · rintro ⟨_, hle, _⟩
      omega
  | succ left ih =>
    simp only [openSlotLoop]
    by_cases hfree : (t ⟨100 - (left + 1), by omega⟩).uaddr = 0
    · rw [if_neg (not_not.mpr hfree), Option.some.injEq]
      constructor
      · rintro rfl
        refine ⟨hfree, Nat.le_refl _, ?_⟩
        intro j hj hlt
        exact absurd hlt (Nat.not_lt.mpr hj)
      · rintro ⟨_, hle, hbefore⟩
        by_contra hne
        have hlt : (⟨100 - (left + 1), by omega⟩ : Slot) < i := by
          rcases Nat.lt_or_ge (100 - (left + 1)) i.val with hlt | hge
          · exact hlt
          · exact absurd (Fin.ext (Nat.le_antisymm hle hge)) hne
        exact hbefore _ (Nat.le_refl _) hlt hfree
    · rw [if_pos hfree]
      refine (ih (by omega)).trans ?_
      -- the slot just passed over is taken, so starting one later changes nothing
      constructor
      · rintro ⟨hu, hle, hbefore⟩
        refine ⟨hu, by omega, ?_⟩
        intro j hj hlt
        by_cases hj' : j.val = 100 - (left + 1)
        · have hjeq : j = ⟨100 - (left + 1), by omega⟩ := Fin.ext hj'
          rw [hjeq]
          exact hfree
        · exact hbefore j (by omega) hlt
      · rintro ⟨hu, hle, hbefore⟩
        have hne : i.val ≠ 100 - (left + 1) := by
          intro heq
          have hieq : i = ⟨100 - (left + 1), by omega⟩ := Fin.ext heq
          rw [hieq] at hu
          exact hfree hu
        exact ⟨hu, by omega, fun j hj hlt => hbefore j (by omega) hlt⟩

/-- **The open slot is the lowest one whose `uaddr` is 0.** -/
theorem openSlot_eq_some_iff {t : SlotTable} {i : Slot} :
    openSlot t = some i ↔ (t i).uaddr = 0 ∧ ∀ j < i, (t j).uaddr ≠ 0 := by
  rw [openSlot, openSlotLoop_eq_some_iff]
  simp

theorem uaddr_of_openSlot {t : SlotTable} {i : Slot} (h : openSlot t = some i) :
    (t i).uaddr = 0 :=
  (openSlot_eq_some_iff.mp h).1

/-- The search reads nothing but the `uaddr` fields. -/
theorem openSlot_congr {t t' : SlotTable} (h : ∀ i, (t i).uaddr = (t' i).uaddr) :
    openSlot t = openSlot t' := by
  refine Option.ext ?_
  intro i
  simp only [openSlot_eq_some_iff, h]

/-! ### `KARENA_CREATE` -/

/-- The state after CREATE has put a new arena of `size` bytes into slot `i`. -/
def Kernel.created (k : Kernel) (pid : Pid) (i : Slot) (size : UInt64) : Kernel :=
  { k.setSlot i ⟨size, 0, 0, false, some k.regions.length, pid⟩ with
    currentArenaIndex := slotIndex i, regions := k.regions ++ [size] }

@[simp] theorem created_same (k : Kernel) (pid : Pid) (i : Slot) (size : UInt64) :
    (k.created pid i size).karenas i = ⟨size, 0, 0, false, some k.regions.length, pid⟩ := by
  simp [Kernel.created, Kernel.setSlot]

theorem created_other (k : Kernel) (pid : Pid) {i j : Slot} (size : UInt64) (h : j ≠ i) :
    (k.created pid i size).karenas j = k.karenas j := by
  simp [Kernel.created, Kernel.setSlot, h]

section Create

variable {k : Kernel} {pid : Pid} {size arena : UInt64} {env : Env} {i : Slot}

theorem handleArenaCreate_full (h : openSlot k.karenas = none) :
    handleArenaCreate k pid ⟨size, arena⟩ env = (-eFAULT, k, ⟨size, arena⟩) := by
  simp [handleArenaCreate, findOpenSlot, h]

/-- A size that `PAGE_ALIGN` takes to 0: the slot stays free. -/
theorem handleArenaCreate_zero (h : openSlot k.karenas = some i)
    (hsize : pageAlign size = 0) :
    handleArenaCreate k pid ⟨size, arena⟩ env =
      (-eINVAL,
        { k.setSlot i ⟨0, 0, 0, false, (k.karenas i).kaddr, pid⟩ with
          currentArenaIndex := slotIndex i, kfreed := k.kfreed ++ [i] },
        ⟨size, slotIndex i⟩) := by
  simp [handleArenaCreate, findOpenSlot, h, hsize, Kernel.setSlot]

/-- `vmalloc` fails: the slot keeps the size and no memory. -/
theorem handleArenaCreate_noMemory (h : openSlot k.karenas = some i)
    (hsize : pageAlign size ≠ 0) (hv : env.vmalloc = false) :
    handleArenaCreate k pid ⟨size, arena⟩ env =
      (-eNOMEM,
        { k.setSlot i ⟨pageAlign size, 0, 0, false, none, pid⟩ with
          currentArenaIndex := slotIndex i, kfreed := k.kfreed ++ [i] },
        ⟨pageAlign size, slotIndex i⟩) := by
  simp [handleArenaCreate, findOpenSlot, h, hsize, hv, vmalloc, Kernel.setSlot]

/-- Success: the slot gets a fresh region, and its `uaddr` is 0 again. -/
theorem handleArenaCreate_ok (h : openSlot k.karenas = some i)
    (hsize : pageAlign size ≠ 0) (hv : env.vmalloc = true) :
    handleArenaCreate k pid ⟨size, arena⟩ env =
      (0, k.created pid i (pageAlign size), ⟨pageAlign size, slotIndex i⟩) := by
  simp [handleArenaCreate, findOpenSlot, h, hsize, hv, vmalloc, Kernel.setSlot, Kernel.created]

/-- **CREATE finds no slot and changes nothing, fails and leaves the open slot free, or fills
    it.** -/
theorem handleArenaCreate_cases (k : Kernel) (pid : Pid) (d : KaData) (env : Env) :
    (openSlot k.karenas = none ∧ handleArenaCreate k pid d env = (-eFAULT, k, d)) ∨
      (∃ i a ret out, openSlot k.karenas = some i ∧ a.uaddr = 0 ∧
        (a.kaddr = (k.karenas i).kaddr ∨ a.kaddr = none) ∧ ret ≠ 0 ∧
        handleArenaCreate k pid d env =
          (ret,
            { k.setSlot i a with
              currentArenaIndex := slotIndex i, kfreed := k.kfreed ++ [i] },
            out)) ∨
      ∃ i, openSlot k.karenas = some i ∧ pageAlign d.size ≠ 0 ∧ env.vmalloc = true ∧
        handleArenaCreate k pid d env =
          (0, k.created pid i (pageAlign d.size), ⟨pageAlign d.size, slotIndex i⟩) := by
  have hinval : -eINVAL ≠ 0 := by decide
  have hnomem : -eNOMEM ≠ 0 := by decide
  obtain ⟨size, arena⟩ := d
  rcases hopen : openSlot k.karenas with _ | i
  · exact Or.inl ⟨rfl, handleArenaCreate_full hopen⟩
  by_cases hsize : pageAlign size = 0
  · exact Or.inr (Or.inl ⟨i, ⟨0, 0, 0, false, (k.karenas i).kaddr, pid⟩, _, _, rfl, rfl, Or.inl rfl,
      hinval, handleArenaCreate_zero hopen hsize⟩)
  cases hv : env.vmalloc with
  | false =>
    exact Or.inr (Or.inl ⟨i, ⟨pageAlign size, 0, 0, false, none, pid⟩, _, _, rfl, rfl, Or.inr rfl,
      hnomem, handleArenaCreate_noMemory hopen hsize hv⟩)
  | true => exact Or.inr (Or.inr ⟨i, rfl, hsize, rfl, handleArenaCreate_ok hopen hsize hv⟩)

end Create

/-! ### `KARENA_BOOTSTRAP` -/

section Bootstrap

variable {k : Kernel} {size arena : UInt64} {i j : Slot}

/-- The state after the cursor of the parent `i` has moved. -/
def Kernel.claim (k : Kernel) (i : Slot) (size : UInt64) : Kernel :=
  k.setSlot i { k.karenas i with cur := (k.karenas i).cur + size }

@[simp] theorem uaddr_claim (k : Kernel) (i : Slot) (size : UInt64) (j : Slot) :
    ((k.claim i size).karenas j).uaddr = (k.karenas j).uaddr := by
  by_cases hj : j = i
  · simp [Kernel.claim, hj]
  · rw [Kernel.claim, karenas_setSlot_other _ _ hj]

theorem openSlot_claim (k : Kernel) (i : Slot) (size : UInt64) :
    openSlot (k.claim i size).karenas = openSlot k.karenas :=
  openSlot_congr (uaddr_claim k i size)

theorem handleArenaBootstrap_short
    (h : (k.karenas i).size - (k.karenas i).cur < size) :
    handleArenaBootstrap k i ⟨size, arena⟩ = (-eFAULT, k, ⟨size, arena⟩) := by
  simp [handleArenaBootstrap, h]

/-- No slot is free: the cursor of the parent has moved all the same. -/
theorem handleArenaBootstrap_full (h : ¬ (k.karenas i).size - (k.karenas i).cur < size)
    (hopen : openSlot k.karenas = none) :
    handleArenaBootstrap k i ⟨size, arena⟩ = (-eFAULT, k.claim i size, ⟨size, arena⟩) := by
  have hopen' := openSlot_claim k i size
  rw [hopen] at hopen'
  simp only [Kernel.claim] at hopen'
  simp [handleArenaBootstrap, h, findOpenSlot, hopen', Kernel.claim]

/-- Success: the child's `uaddr` is the parent's plus its cursor, wrapping. -/
theorem handleArenaBootstrap_ok (h : ¬ (k.karenas i).size - (k.karenas i).cur < size)
    (hopen : openSlot k.karenas = some j) :
    handleArenaBootstrap k i ⟨size, arena⟩ =
      (0,
        (k.claim i size).setSlot j
          ⟨size, 0, (k.karenas i).uaddr + (k.karenas i).cur, true,
            (k.karenas i).kaddr, (k.karenas i).ownerPid⟩,
        ⟨size, slotIndex j⟩) := by
  have hopen' := openSlot_claim k i size
  rw [hopen] at hopen'
  simp only [Kernel.claim] at hopen'
  by_cases hij : i = j
  · subst hij
    simp [handleArenaBootstrap, h, findOpenSlot, hopen', Kernel.claim]
  · simp [handleArenaBootstrap, h, findOpenSlot, hopen', Kernel.claim,
      karenas_setSlot_other _ _ hij]

/-- The state after BOOTSTRAP has filled slot `j` with a child of the arena in `i`. -/
def Kernel.bootstrapped (k : Kernel) (i : Slot) (size : UInt64) (j : Slot) : Kernel :=
  (k.claim i size).setSlot j
    ⟨size, 0, (k.karenas i).uaddr + (k.karenas i).cur, true, (k.karenas i).kaddr,
      (k.karenas i).ownerPid⟩

/-- **BOOTSTRAP refuses and changes nothing, finds no slot and has moved the
    cursor, or fills the open slot.** -/
theorem handleArenaBootstrap_cases (k : Kernel) (i : Slot) (d : KaData) :
    ((k.karenas i).size - (k.karenas i).cur < d.size ∧
        handleArenaBootstrap k i d = (-eFAULT, k, d)) ∨
      (d.size ≤ (k.karenas i).size - (k.karenas i).cur ∧ openSlot k.karenas = none ∧
        handleArenaBootstrap k i d = (-eFAULT, k.claim i d.size, d)) ∨
      ∃ j, d.size ≤ (k.karenas i).size - (k.karenas i).cur ∧ openSlot k.karenas = some j ∧
        handleArenaBootstrap k i d = (0, k.bootstrapped i d.size j, ⟨d.size, slotIndex j⟩) := by
  by_cases hshort : (k.karenas i).size - (k.karenas i).cur < d.size
  · exact Or.inl ⟨hshort, handleArenaBootstrap_short hshort⟩
  · have hroom : d.size ≤ (k.karenas i).size - (k.karenas i).cur := UInt64.not_lt.mp hshort
    rcases hopen : openSlot k.karenas with _ | j
    · exact Or.inr (Or.inl ⟨hroom, rfl, handleArenaBootstrap_full hshort hopen⟩)
    · exact Or.inr (Or.inr ⟨j, hroom, rfl, handleArenaBootstrap_ok hshort hopen⟩)

end Bootstrap

/-! ### `KARENA_DESTROY` and `dev_release` -/

def KArena.destroyed (a : KArena) : KArena :=
  { a with uaddr := 0, cur := 0, size := 0, ownerPid := 0, bootstrapped := false }

/-- A slot after `dev_release` has cleaned it up: only an arena with memory of
    its own loses its `kaddr`. -/
def KArena.released (a : KArena) : KArena :=
  { a.destroyed with kaddr := if a.bootstrapped then a.kaddr else none }

def KArena.freedRegion (a : KArena) : List Region :=
  if a.bootstrapped then [] else a.kaddr.toList

theorem handleArenaDestroy_state (k : Kernel) (i : Slot) (alloc : KaData) :
    (handleArenaDestroy k i alloc).2.1 =
      { k.setSlot i (k.karenas i).destroyed with
        vfreed := k.vfreed ++ (k.karenas i).freedRegion } := by
  by_cases hb : (k.karenas i).bootstrapped
  · simp [handleArenaDestroy, hb, KArena.destroyed, KArena.freedRegion, Kernel.setSlot]
  · simp [handleArenaDestroy, hb, KArena.destroyed, KArena.freedRegion, Kernel.setSlot]

/-- The module state after one slot has been cleaned up by `dev_release`. -/
def Kernel.cleanUp (k : Kernel) (i : Slot) : Kernel :=
  { k.setSlot i (k.karenas i).released with
    vfreed := k.vfreed ++ (k.karenas i).freedRegion }

/-- The slot holds a live arena of the process. -/
def Kernel.Mine (k : Kernel) (pid : Pid) (i : Slot) : Prop :=
  (k.karenas i).uaddr ≠ 0 ∧ (k.karenas i).ownerPid = pid

instance (k : Kernel) (pid : Pid) (i : Slot) : Decidable (k.Mine pid i) := by
  unfold Kernel.Mine
  infer_instance

theorem releaseSlot_mine {k : Kernel} {pid : Pid} {i : Slot} (h : k.Mine pid i) :
    releaseSlot k pid i = (k.cleanUp i, (k.karenas i).bootstrapped) := by
  rcases hb : (k.karenas i).bootstrapped with _ | _
  · simp [releaseSlot, show _ ∧ _ from h, hb, Kernel.cleanUp, KArena.released,
      KArena.destroyed, KArena.freedRegion]
  · simp [releaseSlot, show _ ∧ _ from h, hb, Kernel.cleanUp, KArena.released,
      KArena.destroyed, KArena.freedRegion, Kernel.setSlot]

theorem releaseSlot_other {k : Kernel} {pid : Pid} {i : Slot} (h : ¬ k.Mine pid i) :
    releaseSlot k pid i = (k, false) := by
  simp only [releaseSlot, if_neg (show ¬ (_ ∧ _) from h)]

theorem releaseSlot_state (k : Kernel) (pid : Pid) (i : Slot) :
    (releaseSlot k pid i).1 = k ∨
      (k.karenas i).uaddr ≠ 0 ∧ (k.karenas i).ownerPid = pid ∧
        (releaseSlot k pid i).1 = k.cleanUp i := by
  by_cases hmine : k.Mine pid i
  · exact Or.inr ⟨hmine.1, hmine.2, by rw [releaseSlot_mine hmine]⟩
  · exact Or.inl (by rw [releaseSlot_other hmine])

/-- **Release rule.**  What cleaning up any one slot of the process preserves,
    `dev_release` preserves. -/
theorem devRelease_invariant {I : Kernel → Prop} {pid : Pid}
    (hclean : ∀ k i, I k → (k.karenas i).uaddr ≠ 0 → (k.karenas i).ownerPid = pid →
      I (k.cleanUp i))
    {k : Kernel} (hk : I k) : I (devRelease k pid) := by
  have hslot : ∀ k i, I k → I (releaseSlot k pid i).1 := by
    intro k i hk
    rcases releaseSlot_state k pid i with hsame | ⟨hu, hown, hclear⟩
    · rw [hsame]
      exact hk
    · rw [hclear]
      exact hclean k i hk hu hown
  have hloop : ∀ left h k, I k → I (releaseLoop k pid left h) := by
    intro left
    induction left with
    | zero => exact fun h k hk => hk
    | succ left ih =>
      intro h k hk
      simp only [releaseLoop]
      split
      · exact hslot k _ hk
      · exact ih _ _ (hslot k _ hk)
  exact hloop 100 _ k hk

/-- `dev_release` leaves a slot alone or cleans it up. -/
theorem karenas_devRelease (k : Kernel) (pid : Pid) (i : Slot) :
    (devRelease k pid).karenas i = k.karenas i ∨
      (k.karenas i).uaddr ≠ 0 ∧ (k.karenas i).ownerPid = pid ∧
        (devRelease k pid).karenas i = (k.karenas i).released := by
  refine devRelease_invariant
    (I := fun k' => k'.karenas i = k.karenas i ∨
      (k.karenas i).uaddr ≠ 0 ∧ (k.karenas i).ownerPid = pid ∧
        k'.karenas i = (k.karenas i).released) ?_ (Or.inl rfl)
  rintro k' j hI hu hown
  by_cases hij : i = j
  · subst hij
    rcases hI with hsame | ⟨_, _, hrel⟩
    · rw [hsame] at hu hown
      exact Or.inr ⟨hu, hown, by simp [Kernel.cleanUp, hsame]⟩
    · rw [hrel] at hu
      exact absurd rfl hu
  · simpa [Kernel.cleanUp, karenas_setSlot_other _ _ hij] using hI

end Lmalloc.Karena
