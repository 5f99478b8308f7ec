/-
  Lmalloc/Karena/Indices.lean
  ===========================
  **The indices the module uses into its slot table.**

  `karenas` has 100 elements.  An index comes from the user's `ka_data`, from the
  scan of `find_open_slot` with its `-1` in an `unsigned int`, from the counter of
  `dev_release`, or from `current_arena_index`, which `dev_open` sets to `-1`.
  `accesses` lists, for each entry point, every index whose element is read or
  written.  The scan, the slots it returns and the counter are always good; the
  other two sources are not checked.
-/
import Mathlib
import Lmalloc.Karena.System

namespace Lmalloc.Karena

open Lmalloc.Library

/-! ### The scan as the code runs it -/

/-- The `uaddr` field at index `n`; behind the table stands whatever memory holds. -/
def uaddrAt (beyond : ℕ → UInt64) (t : SlotTable) (n : ℕ) : UInt64 :=
  if h : n < 100 then (t ⟨n, h⟩).uaddr else beyond n

/-- The loop of `find_open_slot` from `index` on: the indices read and the index
    returned; `none` if the loop has not ended after `fuel` rounds. -/
def scan (field : ℕ → UInt64) : (fuel : ℕ) → (index : UInt32) → Option (List ℕ × UInt32)
  | 0, _ => none
  | fuel + 1, index =>
      if field index.toNat ≠ 0 then
        let next := index + 1
        if next > 99 then some ([index.toNat], -1)
        else (scan field fuel next).map fun r => (index.toNat :: r.1, r.2)
      else some ([index.toNat], index)

/-- The scan with `left` slots to go ends in time, reads slots of the table only,
    and returns the open slot or `-1`. -/
theorem scan_eq (beyond : ℕ → UInt64) (t : SlotTable) (left : ℕ) (h : left ≤ 100)
    (hpos : 0 < left) :
    ∃ seen, scan (uaddrAt beyond t) left (UInt32.ofNat (100 - left)) =
        some (seen, ((openSlotLoop t left h).map fun i => UInt32.ofNat i.val).getD (-1)) ∧
      ∀ n ∈ seen, n < 100 := by
  induction left with
  | zero => exact absurd hpos (Nat.lt_irrefl 0)
  | succ left ih =>
    have hindex : (UInt32.ofNat (100 - (left + 1))).toNat = 100 - (left + 1) := by
      rw [UInt32.toNat_ofNat']
      omega
    have hlt : 100 - (left + 1) < 100 := by omega
    have hfield : uaddrAt beyond t (100 - (left + 1)) = (t ⟨100 - (left + 1), hlt⟩).uaddr := by
      simp only [uaddrAt, dif_pos hlt]
    simp only [scan, openSlotLoop, hindex, hfield]
    by_cases hfree : (t ⟨100 - (left + 1), hlt⟩).uaddr = 0
    · simp only [hfree, ne_eq, not_true_eq_false, if_false]
      exact ⟨_, rfl, by simpa using hlt⟩
    · simp only [hfree, ne_eq, not_false_eq_true, if_true]
      have hnext : UInt32.ofNat (100 - (left + 1)) + 1 = UInt32.ofNat (100 - left) := by
        apply UInt32.toNat_inj.mp
        rw [UInt32.toNat_add, hindex, UInt32.toNat_ofNat', UInt32.toNat_one]
        omega
      have hend : UInt32.ofNat (100 - left) > 99 ↔ left = 0 := by
        rw [gt_iff_lt, UInt32.lt_iff_toNat_lt, UInt32.toNat_ofNat']
        show 99 < _ ↔ _
        omega
      rw [hnext]
      by_cases hleft : left = 0
      · subst hleft
        rw [if_pos (hend.mpr rfl)]
        exact ⟨_, rfl, by simp⟩
      · rw [if_neg (fun hgt => hleft (hend.mp hgt))]
        obtain ⟨seen, hscan, hseen⟩ := ih (by omega) (Nat.pos_of_ne_zero hleft)
        rw [hscan]
        refine ⟨_, rfl, ?_⟩
        intro n hn
        rcases List.mem_cons.mp hn with rfl | hn
        · exact hlt
        · exact hseen n hn

/-- `find_open_slot` and the slot its caller fills: the scan reads, and the index
    it returns is used unless it is `-1`. -/
def searchAccesses (beyond : ℕ → UInt64) (k : Kernel) : List ℕ :=
  match scan (uaddrAt beyond k.karenas) 100 0 with
  | none => []
  | some (seen, index) => if index = -1 then seen else seen ++ [index.toNat]

/-- **The search stays inside the table.** -/
theorem searchAccesses_lt (beyond : ℕ → UInt64) (k : Kernel) :
    ∀ n ∈ searchAccesses beyond k, n < 100 := by
  obtain ⟨seen, hscan, hseen⟩ := scan_eq beyond k.karenas 100 (Nat.le_refl 100) (by decide)
  replace hscan : scan (uaddrAt beyond k.karenas) 100 0 = some (seen, _) := hscan
  intro n hn
  simp only [searchAccesses, hscan] at hn
  rcases hopen : openSlotLoop k.karenas 100 (Nat.le_refl 100) with _ | i
  · simp only [hopen, Option.map_none, Option.getD_none, if_true] at hn
    exact hseen n hn
  · have hi : i.val < 100 := i.isLt
    have hval : (UInt32.ofNat i.val).toNat = i.val := by
      rw [UInt32.toNat_ofNat']
      omega
    simp only [hopen, Option.map_some, Option.getD_some] at hn
    split at hn
    · exact hseen n hn
    · rcases List.mem_append.mp hn with hn | hn
      · exact hseen n hn
      · rw [List.mem_singleton.mp hn, hval]
        exact hi

/-! ### The accesses of each entry point -/

/-- `karenas[i]` in `karena_ioctl` and its handlers.  An unknown command forms the
    address of the element and leaves it at that. -/
def ioctlAccesses (beyond : ℕ → UInt64) (k : Kernel) (cmd : Cmd) (alloc : KaData) (env : Env) :
    List ℕ :=
  if env.copyFromUser = false then []
  else match cmd with
    | .create => searchAccesses beyond k
    | .alloc | .seek | .pop | .pos | .reserve | .destroy | .size | .base => [alloc.arena.toNat]
    | .bootstrap =>
        alloc.arena.toNat ::
          match slot? alloc.arena with
          | none => []
          | some i =>
              if (k.karenas i).size - (k.karenas i).cur < alloc.size then []
              else searchAccesses beyond (k.claim i alloc.size)
    | .other _ => []

theorem visited_lt (left : ℕ) : 100 - (left + 1) < 100 :=
  Nat.sub_lt (Nat.succ_pos 99) (Nat.succ_pos left)

theorem left_le {left : ℕ} (h : left + 1 ≤ 100) : left ≤ 100 := Nat.le_of_succ_le h

theorem all_left : 100 ≤ 100 := Nat.le_refl 100

/-- The loop of `dev_release` with `left` slots still to visit. -/
def releaseAccesses (k : Kernel) (pid : Pid) : (left : ℕ) → left ≤ 100 → List ℕ
  | 0, _ => []
  | left + 1, h =>
      let r := releaseSlot k pid ⟨100 - (left + 1), visited_lt left⟩
      (100 - (left + 1)) :: if r.2 then [] else releaseAccesses r.1 pid left (left_le h)

def accesses (beyond : ℕ → UInt64) (w : World) : Action → List ℕ
  | .devOpen => []
  | .ioctl _ cmd alloc env => ioctlAccesses beyond w.kernel cmd alloc env
  | .mmap _ => [w.kernel.currentArenaIndex.toNat]
  | .fault m _ => (w.mappings[m]?).toList.map fun mapping => mapping.slot.val
  | .munmap _ => []
  | .release pid => releaseAccesses w.kernel pid 100 all_left

/-- Every element the step touches is one of the 100. -/
def World.InTable (beyond : ℕ → UInt64) (w : World) (a : Action) : Prop :=
  ∀ n ∈ accesses beyond w a, n < 100

/-- The step is not a known command, other than CREATE, that has read an arena
    number from 100 on, and not an `mmap` while `current_arena_index` is the `-1`
    of `dev_open`. -/
def World.Indexed (w : World) : Action → Prop
  | .ioctl _ cmd alloc env =>
      env.copyFromUser = true →
        match cmd with
        | .create | .other _ => True
        | _ => alloc.arena.toNat < 100
  | .mmap _ => w.kernel.currentArenaIndex ≠ -1
  | _ => True

theorem releaseAccesses_lt (k : Kernel) (pid : Pid) (left : ℕ) (h : left ≤ 100) :
    ∀ n ∈ releaseAccesses k pid left h, n < 100 := by
  induction left generalizing k with
  | zero =>
    intro n hn
    cases hn
  | succ left ih =>
    intro n hn
    simp only [releaseAccesses, List.mem_cons] at hn
    rcases hn with rfl | hn
    · omega
    · split at hn
      · cases hn
      · exact ih _ _ n hn

/-! ### `current_arena_index` -/

/-- The index is the `-1` of `dev_open` or the number of a slot. -/
def IndexKnown (k : Kernel) : Prop :=
  k.currentArenaIndex = -1 ∨ ∃ i, k.currentArenaIndex = slotIndex i

theorem IndexKnown.of_eq {k k' : Kernel} (h : IndexKnown k)
    (heq : k'.currentArenaIndex = k.currentArenaIndex) : IndexKnown k' := by
  simp only [IndexKnown, heq]
  exact h

theorem IndexKnown.lt_iff {k : Kernel} (h : IndexKnown k) :
    k.currentArenaIndex.toNat < 100 ↔ k.currentArenaIndex ≠ -1 := by
  rcases h with hneg | ⟨i, hi⟩
  · rw [hneg]
    decide
  · have hlt : i.val < 100 := i.isLt
    have hval : (slotIndex i).toNat = i.val := by
      rw [slotIndex, UInt64.toNat_ofNat']
      omega
    rw [hi, hval]
    constructor
    · intro _ hneg
      rw [hneg] at hval
      have hbig : (-1 : UInt64).toNat = 2 ^ 64 - 1 := by decide
      omega
    · exact fun _ => hlt

theorem indexKnown_create {k : Kernel} (h : IndexKnown k) (pid : Pid) (d : KaData) (env : Env) :
    IndexKnown (handleArenaCreate k pid d env).2.1 := by
  rcases handleArenaCreate_cases k pid d env with
    ⟨_, heq⟩ | ⟨i, _, _, _, _, _, _, _, heq⟩ | ⟨i, _, _, _, heq⟩
  · rw [heq]
    exact h
  · rw [heq]
    exact Or.inr ⟨i, rfl⟩
  · rw [heq]
    exact Or.inr ⟨i, rfl⟩

theorem currentArenaIndex_bootstrap (k : Kernel) (i : Slot) (d : KaData) :
    (handleArenaBootstrap k i d).2.1.currentArenaIndex = k.currentArenaIndex := by
  rcases handleArenaBootstrap_cases k i d with ⟨_, heq⟩ | ⟨_, _, heq⟩ | ⟨j, _, _, heq⟩
  · rw [heq]
  · rw [heq]
    rfl
  · rw [heq]
    rfl

theorem indexKnown_ioctl {k : Kernel} {pid : Pid} {cmd : Cmd} {d : KaData} {env : Env}
    {r : Int × Kernel × Option KaData} (h : IndexKnown k)
    (hcall : karenaIoctl k pid cmd d env = some r) : IndexKnown r.2.1 := by
  rcases karenaIoctl_cases hcall with
    ⟨_, hk⟩ | ⟨i, _, _, _, _, rfl⟩ | ⟨_, _, rfl⟩ | ⟨i, _, _, _, rfl⟩ | ⟨i, _, _, _, rfl⟩
  · rw [hk]
    exact h
  · rw [state_copyBack]
    exact h.of_eq rfl
  · rw [state_copyBack]
    exact indexKnown_create h pid d env
  · rw [state_copyBack]
    exact h.of_eq (currentArenaIndex_bootstrap k i d)
  · rw [state_copyBack, handleArenaDestroy_state]
    exact h.of_eq rfl

theorem indexKnown_step (w : World) (a : Action) (w' : World) (h : IndexKnown w.kernel)
    (hs : w.step a = some w') : IndexKnown w'.kernel := by
  cases a with
  | devOpen =>
    cases hs
    exact Or.inl rfl
  | ioctl pid cmd d env =>
    obtain ⟨r, hcall, rfl⟩ := Option.map_eq_some_iff.mp hs
    exact indexKnown_ioctl h hcall
  | mmap area =>
    obtain ⟨⟨ret, k', mapped⟩, hcall, rfl⟩ := Option.map_eq_some_iff.mp hs
    rcases karenaMmap_cases hcall with ⟨_, _, rfl⟩ | ⟨i, _, _, _, rfl⟩
    · exact h
    · exact h.of_eq rfl
  | fault m pgoff =>
    obtain ⟨_, _, rfl⟩ := Option.map_eq_some_iff.mp hs
    exact h
  | munmap m =>
    cases hs
    exact h
  | release pid =>
    cases hs
    exact devRelease_invariant (fun k i hk _ _ => hk.of_eq rfl) h

/-! ### Whole runs -/

/-- In a state whose `current_arena_index` is known, a step stays inside the table
    exactly when its index has been checked by someone. -/
theorem inTable_iff_indexed (beyond : ℕ → UInt64) (w : World) (a : Action)
    (h : IndexKnown w.kernel) : w.InTable beyond a ↔ w.Indexed a := by
  cases a with
  | devOpen => simp [World.InTable, World.Indexed, accesses]
  | ioctl pid cmd d env =>
    simp only [World.InTable, World.Indexed, accesses, ioctlAccesses]
    rcases hcopy : env.copyFromUser with _ | _
    · simp
    · cases cmd with
      | create => simpa using searchAccesses_lt beyond w.kernel
      | alloc | seek | pop | pos | reserve | destroy | size | base => simp
      | bootstrap =>
        simp only [Bool.true_eq_false, if_false, List.forall_mem_cons, forall_true_left]
        constructor
        · exact fun hall => hall.1
        · intro harena
          refine ⟨harena, ?_⟩
          split
          · simp
          · split
            · simp
            · exact searchAccesses_lt beyond _
      | other n => simp
  | mmap area => simpa [World.InTable, World.Indexed, accesses] using h.lt_iff
  | fault m pgoff =>
    simp only [World.InTable, World.Indexed, accesses, List.mem_map, iff_true]
    rintro n ⟨mapping, _, rfl⟩
    exact mapping.slot.isLt
  | munmap m => simp [World.InTable, World.Indexed, accesses]
  | release pid =>
    simp only [World.InTable, World.Indexed, iff_true]
    exact releaseAccesses_lt _ _ _ _

/-- **Every element of `karenas` that a run touches is one of the 100 exactly when
    no command reads an arena number from 100 on and no `mmap` finds the index of
    `dev_open` in place.** -/
theorem inTable_iff (beyond : ℕ → UInt64) (as : List Action) :
    Along World.step (World.InTable beyond) World.boot as ↔
      Along World.step World.Indexed World.boot as :=
  along_congr indexKnown_step (inTable_iff_indexed beyond) (Or.inr ⟨0, rfl⟩)

/-- A process opens the device and maps it without a CREATE: `karena_mmap` reads
    the element at index `2^64 - 1`. -/
theorem mmap_before_create :
    ∃ w, run World.step World.boot [.devOpen] = some w ∧
      accesses (fun _ => 0) w (.mmap ⟨0x10000, 0x11000, 0, by decide, by decide⟩) =
        [2 ^ 64 - 1] ∧
      ¬ Along World.step (World.InTable fun _ => 0) World.boot
        [.devOpen, .mmap ⟨0x10000, 0x11000, 0, by decide, by decide⟩] := by
  refine ⟨_, rfl, rfl, ?_⟩
  intro h
  have hbad := (h.2 _ rfl).1 (2 ^ 64 - 1) (by decide)
  omega

end Lmalloc.Karena
