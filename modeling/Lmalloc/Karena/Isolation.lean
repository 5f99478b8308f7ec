/-
  Lmalloc/Karena/Isolation.lean
  =============================
  **Which memory a page fault can reach.**

  A mapping keeps a pointer to the slot of its arena, and the fault handler reads
  the memory and the size from there.  After `KARENA_DESTROY` the size is 0 and
  every late fault is refused.  But the slot is free again: the next CREATE that
  takes it puts a new region behind the old mapping.  So faults stay inside the
  region a mapping was made for exactly as long as no CREATE takes a slot that a
  mapping still points to.
-/
import Lmalloc.Karena.System

namespace Lmalloc.Karena

open Lmalloc.Library

/-- The steps in the life of an arena and of the mappings onto it. -/
inductive MapStep where
  | devOpen
  | create (pid : Pid) (size : UInt64) (env : Env)
  | mmap (area : VmArea)
  | destroy (pid : Pid) (arena : UInt64) (env : Env)
  | fault (m : ℕ) (pgoff : UInt64)
  | munmap (m : ℕ)
  | release (pid : Pid)

def MapStep.action : MapStep → Action
  | .devOpen => .devOpen
  | .create pid size env => .ioctl pid .create ⟨size, 0⟩ env
  | .mmap area => .mmap area
  | .destroy pid arena env => .ioctl pid .destroy ⟨0, arena⟩ env
  | .fault m pgoff => .fault m pgoff
  | .munmap m => .munmap m
  | .release pid => .release pid

namespace World

def mapStep (w : World) (s : MapStep) : Option World := w.step s.action

/-- Whatever offset is touched, a fault on a mapping made for region `r` maps a
    page of `r` or fails. -/
def Isolated (w : World) : Prop :=
  ∀ m ∈ w.mappings, ∀ r, m.region = some r →
    ∀ pgoff p, karenaVmFault w.kernel m.slot pgoff = some p → p.region = r

/-- The step is not a CREATE that obtains memory while the lowest free slot is
    one a mapping points to. -/
def Vacant (w : World) : MapStep → Prop
  | .create _ size env =>
      env.copyFromUser = true → env.vmalloc = true → pageAlign size ≠ 0 →
        ∀ m ∈ w.mappings, m.region ≠ none → (w.kernel.karenas m.slot).uaddr = 0 →
          ∃ j < m.slot, (w.kernel.karenas j).uaddr = 0
  | _ => True

end World

/-! ### Steps that give no slot new memory -/

/-- No slot gains memory from `k` to `k'`, and `vfree` is called only on the
    memory of a slot. -/
structure Recedes (k k' : Kernel) : Prop where
  regions_eq : k'.regions = k.regions
  kaddr : ∀ i, (k'.karenas i).kaddr = (k.karenas i).kaddr ∨ (k'.karenas i).kaddr = none
  vfreed : ∀ r ∈ k'.vfreed, r ∈ k.vfreed ∨ ∃ i, (k.karenas i).kaddr = some r

theorem Recedes.refl (k : Kernel) : Recedes k k :=
  ⟨rfl, fun _ => Or.inl rfl, fun _ hr => Or.inl hr⟩

theorem Recedes.kaddr_eq {k k' : Kernel} (h : Recedes k k') {i : Slot} {r : Region}
    (hr : (k'.karenas i).kaddr = some r) : (k.karenas i).kaddr = some r := by
  rcases h.kaddr i with hsame | hnone
  · rw [← hsame, hr]
  · rw [hnone] at hr
    cases hr

theorem Recedes.setSlot {k k' : Kernel} (h : Recedes k k') (i : Slot) {a : KArena}
    (ha : a.kaddr = (k'.karenas i).kaddr ∨ a.kaddr = none) : Recedes k (k'.setSlot i a) where
  regions_eq := h.regions_eq
  kaddr := by
    intro j
    by_cases hj : j = i
    · subst hj
      rw [karenas_setSlot_same]
      rcases ha with ha | ha
      · rw [ha]
        exact h.kaddr j
      · exact Or.inr ha
    · rw [karenas_setSlot_other _ _ hj]
      exact h.kaddr j
  vfreed := h.vfreed

theorem Recedes.free {k k' : Kernel} (h : Recedes k k') {rs : List Region}
    (hrs : ∀ r ∈ rs, ∃ i, (k.karenas i).kaddr = some r) (vs : List Region)
    (hvs : vs = k'.vfreed ++ rs) : Recedes k { k' with vfreed := vs } where
  regions_eq := h.regions_eq
  kaddr := h.kaddr
  vfreed := by
    intro r hr
    simp only [hvs, List.mem_append] at hr
    rcases hr with hr | hr
    · exact h.vfreed r hr
    · exact Or.inr (hrs r hr)

theorem mem_freedRegion {a : KArena} {r : Region} (h : r ∈ a.freedRegion) : a.kaddr = some r := by
  rcases hb : a.bootstrapped with _ | _
  · simpa [KArena.freedRegion, hb] using h
  · simp [KArena.freedRegion, hb] at h

theorem recedes_destroy (k : Kernel) (i : Slot) (alloc : KaData) :
    Recedes k (handleArenaDestroy k i alloc).2.1 := by
  rw [handleArenaDestroy_state]
  have hset : Recedes k (k.setSlot i (k.karenas i).destroyed) :=
    (Recedes.refl k).setSlot i (Or.inl rfl)
  exact hset.free (fun r hr => ⟨i, mem_freedRegion hr⟩) _ rfl

theorem recedes_release (k : Kernel) (pid : Pid) : Recedes k (devRelease k pid) := by
  refine devRelease_invariant ?_ (Recedes.refl k)
  intro k' i h _ _
  have hkaddr : (k'.karenas i).released.kaddr = (k'.karenas i).kaddr ∨
      (k'.karenas i).released.kaddr = none := by
    rcases hb : (k'.karenas i).bootstrapped with _ | _
    · exact Or.inr (by simp [KArena.released, hb])
    · exact Or.inl (by simp [KArena.released, hb])
  exact (h.setSlot i hkaddr).free (fun r hr => ⟨i, h.kaddr_eq (mem_freedRegion hr)⟩) _ rfl

/-- CREATE puts a fresh region into the open slot, or no slot gains memory. -/
theorem create_cases {k k' : Kernel} {pid : Pid} {size : UInt64} {env : Env} {ret : Int}
    {out : Option KaData}
    (h : karenaIoctl k pid .create ⟨size, 0⟩ env = some (ret, k', out)) :
    Recedes k k' ∨
      ∃ i, env.copyFromUser = true ∧ env.vmalloc = true ∧ pageAlign size ≠ 0 ∧
        openSlot k.karenas = some i ∧ k' = k.created pid i (pageAlign size) := by
  rcases karenaIoctl_cases h with
    ⟨_, hk⟩ | ⟨_, _, hcmd, _⟩ | ⟨_, hcopy, hr⟩ | ⟨_, hcmd, _⟩ | ⟨_, hcmd, _⟩
  · rw [show k' = k from hk]
    exact Or.inl (Recedes.refl k)
  · cases hcmd
  · have hk : k' = (handleArenaCreate k pid ⟨size, 0⟩ env).2.1 := by
      rw [← state_copyBack .create env, ← hr]
    rcases handleArenaCreate_cases k pid ⟨size, 0⟩ env with
      ⟨_, heq⟩ | ⟨i, a, _, _, _, _, hkaddr, _, heq⟩ | ⟨i, hopen, hsize, hv, heq⟩
    · rw [hk, heq]
      exact Or.inl (Recedes.refl k)
    · have hset : Recedes k (k.setSlot i a) := (Recedes.refl k).setSlot i hkaddr
      rw [hk, heq]
      exact Or.inl ⟨hset.regions_eq, hset.kaddr, hset.vfreed⟩
    · rw [heq] at hk
      exact Or.inr ⟨i, hcopy, hv, hsize, hopen, hk⟩
  · cases hcmd
  · cases hcmd

/-! ### What one step does -/

namespace World

/-- **A step either gives no slot new memory, and maps at most the memory a slot
    has, or it is a CREATE that puts a fresh region into the open slot.** -/
theorem mapStep_cases {w w' : World} {s : MapStep} (hs : w.mapStep s = some w') :
    (Recedes w.kernel w'.kernel ∧ ∀ m ∈ w'.mappings,
        m ∈ w.mappings ∨ m.region = (w.kernel.karenas m.slot).kaddr) ∨
      ∃ pid size env i, s = .create pid size env ∧ env.copyFromUser = true ∧
        env.vmalloc = true ∧ pageAlign size ≠ 0 ∧ openSlot w.kernel.karenas = some i ∧
        w' = { w with kernel := w.kernel.created pid i (pageAlign size) } := by
  cases s with
  | devOpen =>
    simp only [mapStep, MapStep.action, step, Option.some.injEq] at hs
    subst hs
    have hrefl := Recedes.refl w.kernel
    exact Or.inl ⟨⟨hrefl.regions_eq, hrefl.kaddr, hrefl.vfreed⟩, fun _ hm => Or.inl hm⟩
  | create pid size env =>
    simp only [mapStep, MapStep.action, step, Option.map_eq_some_iff] at hs
    obtain ⟨⟨ret, k', out⟩, hcall, rfl⟩ := hs
    rcases create_cases hcall with hrec | ⟨i, hcopy, hv, hsize, hopen, rfl⟩
    · exact Or.inl ⟨hrec, fun _ hm => Or.inl hm⟩
    · exact Or.inr ⟨pid, size, env, i, rfl, hcopy, hv, hsize, hopen, rfl⟩
  | mmap area =>
    simp only [mapStep, MapStep.action, step, Option.map_eq_some_iff] at hs
    obtain ⟨⟨ret, k', mapped⟩, hcall, rfl⟩ := hs
    rcases karenaMmap_cases hcall with ⟨_, rfl, rfl⟩ | ⟨i, rfl, _, _, rfl⟩
    · exact Or.inl ⟨Recedes.refl _, fun _ hm => Or.inl (by simpa using hm)⟩
    · refine Or.inl ⟨(Recedes.refl _).setSlot i (Or.inl rfl), ?_⟩
      intro m hm
      simp only [Option.toList_some, List.map_cons, List.map_nil, List.mem_append,
        List.mem_singleton] at hm
      exact hm.imp_right (fun hnew => by rw [hnew])
  | destroy pid arena env =>
    simp only [mapStep, MapStep.action, step, Option.map_eq_some_iff] at hs
    obtain ⟨⟨ret, k', out⟩, hcall, rfl⟩ := hs
    refine Or.inl ⟨?_, fun _ hm => Or.inl hm⟩
    rcases karenaIoctl_cases hcall with
      ⟨_, hk⟩ | ⟨_, _, hcmd, _⟩ | ⟨hcmd, _⟩ | ⟨_, hcmd, _⟩ | ⟨i, _, _, _, hr⟩
    · rw [show k' = w.kernel from hk]
      exact Recedes.refl _
    · cases hcmd
    · cases hcmd
    · cases hcmd
    · have hk : k' = (handleArenaDestroy w.kernel i ⟨0, arena⟩).2.1 := by
        rw [← state_copyBack .destroy env, ← hr]
      exact hk ▸ recedes_destroy w.kernel i ⟨0, arena⟩
  | fault m pgoff =>
    simp only [mapStep, MapStep.action, step, Option.map_eq_some_iff] at hs
    obtain ⟨_, _, rfl⟩ := hs
    exact Or.inl ⟨Recedes.refl _, fun _ hm => Or.inl hm⟩
  | munmap m =>
    simp only [mapStep, MapStep.action, step, Option.some.injEq] at hs
    subst hs
    exact Or.inl ⟨Recedes.refl _, fun _ hm => Or.inl (List.mem_of_mem_eraseIdx hm)⟩
  | release pid =>
    simp only [mapStep, MapStep.action, step, Option.some.injEq] at hs
    subst hs
    exact Or.inl ⟨recedes_release w.kernel pid, fun _ hm => Or.inl hm⟩

/-! ### The invariants -/

/-- Every region in use has been returned by `vmalloc`. -/
structure Bounded (w : World) : Prop where
  slot_lt : ∀ i r, (w.kernel.karenas i).kaddr = some r → r < w.kernel.regions.length
  vfreed_lt : ∀ r ∈ w.kernel.vfreed, r < w.kernel.regions.length
  mapping_lt : ∀ m ∈ w.mappings, ∀ r, m.region = some r → r < w.kernel.regions.length

theorem bounded_boot : Bounded boot where
  slot_lt := by
    intro i r h
    cases h
  vfreed_lt := by
    intro r h
    cases h
  mapping_lt := by
    intro m h
    cases h

theorem bounded_step (w : World) (s : MapStep) (w' : World) (h : Bounded w)
    (hs : w.mapStep s = some w') : Bounded w' := by
  rcases mapStep_cases hs with ⟨hrec, hmap⟩ | ⟨pid, size, env, i, rfl, _, _, _, _, rfl⟩
  · refine ⟨?_, ?_, ?_⟩
    · intro i r hr
      rw [hrec.regions_eq]
      exact h.slot_lt i r (hrec.kaddr_eq hr)
    · intro r hr
      rw [hrec.regions_eq]
      rcases hrec.vfreed r hr with hold | ⟨i, hi⟩
      · exact h.vfreed_lt r hold
      · exact h.slot_lt i r hi
    · intro m hm r hr
      rw [hrec.regions_eq]
      rcases hmap m hm with hold | hnew
      · exact h.mapping_lt m hold r hr
      · exact h.slot_lt m.slot r (by rw [← hnew, hr])
  · have hlen : w.kernel.regions.length <
        (w.kernel.created pid i (pageAlign size)).regions.length := by
      simp [Kernel.created]
    refine ⟨?_, ?_, ?_⟩
    · intro j r hr
      by_cases hj : j = i
      · subst hj
        rw [created_same, Option.some.injEq] at hr
        exact hr ▸ hlen
      · rw [created_other _ _ _ hj] at hr
        exact Nat.lt_trans (h.slot_lt j r hr) hlen
    · exact fun r hr => Nat.lt_trans (h.vfreed_lt r hr) hlen
    · exact fun m hm r hr => Nat.lt_trans (h.mapping_lt m hm r hr) hlen

/-- A slot a mapping points to still holds the region the mapping was made for,
    or nothing. -/
def Bound (w : World) : Prop :=
  ∀ m ∈ w.mappings, ∀ r, m.region = some r →
    (w.kernel.karenas m.slot).kaddr = some r ∨ (w.kernel.karenas m.slot).kaddr = none

theorem bound_step (w : World) (s : MapStep) (w' : World) (h : Bound w) (hv : Vacant w s)
    (hs : w.mapStep s = some w') : Bound w' := by
  rcases mapStep_cases hs with
    ⟨hrec, hmap⟩ | ⟨pid, size, env, i, rfl, hcopy, hvm, hsize, hopen, rfl⟩
  · intro m hm r hr
    have hbefore : (w.kernel.karenas m.slot).kaddr = some r ∨
        (w.kernel.karenas m.slot).kaddr = none := by
      rcases hmap m hm with hold | hnew
      · exact h m hold r hr
      · exact Or.inl (by rw [← hnew, hr])
    rcases hrec.kaddr m.slot with hsame | hnone
    · rw [hsame]
      exact hbefore
    · exact Or.inr hnone
  · intro m hm r hr
    have hne : m.slot ≠ i := by
      intro heq
      obtain ⟨hzero, hlow⟩ := openSlot_eq_some_iff.mp hopen
      subst heq
      obtain ⟨j, hlt, hj⟩ := hv hcopy hvm hsize m hm (by rw [hr]; simp) hzero
      exact hlow j hlt hj
    rw [created_other _ _ _ hne]
    exact h m hm r hr

/-- A fault reaches no region but the one the slot holds. -/
theorem region_of_fault {k : Kernel} {i : Slot} {pgoff : UInt64} {p : Page}
    (h : karenaVmFault k i pgoff = some p) : (k.karenas i).kaddr = some p.region := by
  simp only [karenaVmFault] at h
  split at h
  · cases h
  · simp only [vmallocToPage, Option.bind_eq_some_iff] at h
    obtain ⟨r, hr, size, _, h⟩ := h
    split at h
    · cases h
      exact hr
    · cases h

theorem isolated_of_bound {w : World} (h : Bound w) : Isolated w := by
  intro m hm r hr pgoff p hp
  have hk := region_of_fault hp
  rcases h m hm r hr with hsame | hnone
  · rw [hsame, Option.some.injEq] at hk
    exact hk.symm
  · rw [hnone] at hk
    cases hk

/-- The first page of an arena that has just been created can be touched. -/
theorem fault_created {k : Kernel} (hfreed : ∀ r ∈ k.vfreed, r < k.regions.length) (pid : Pid)
    (i : Slot) {size : UInt64} (hsize : size ≠ 0) :
    karenaVmFault (k.created pid i size) i 0 = some ⟨k.regions.length, 0⟩ := by
  have hpos : (0 : UInt64) < size := UInt64.pos_iff_ne_zero.mpr hsize
  have hoff : (0 : UInt64) <<< 12 = 0 := by decide
  have hfresh : k.regions.length ∉ k.vfreed := fun hmem => Nat.lt_irrefl _ (hfreed _ hmem)
  have hget : (k.created pid i size).regions[k.regions.length]? = some size := by
    simp [Kernel.created]
  have hvf : (k.created pid i size).vfreed = k.vfreed := rfl
  simp [karenaVmFault, vmallocToPage, hget, hvf, hfresh, hoff, hpos, hsize]

/-- A CREATE that takes a slot a mapping points to lets the mapping fault into the
    new region. -/
theorem exposed_of_not_vacant (w : World) (s : MapStep) (h : Bounded w) (hv : ¬ Vacant w s) :
    ∃ w', w.mapStep s = some w' ∧ ¬ Isolated w' := by
  cases s with
  | create pid size env =>
    simp only [Vacant, not_forall] at hv
    obtain ⟨hcopy, hvm, hsize, m, hm, hreg, hzero, hlow⟩ := hv
    have hopen : openSlot w.kernel.karenas = some m.slot :=
      openSlot_eq_some_iff.mpr ⟨hzero, fun j hlt hj => hlow ⟨j, hlt, hj⟩⟩
    obtain ⟨r, hr⟩ := Option.ne_none_iff_exists'.mp hreg
    refine ⟨{ w with kernel := w.kernel.created pid m.slot (pageAlign size) }, ?_, ?_⟩
    · simp [mapStep, MapStep.action, step, karenaIoctl_create hcopy,
        handleArenaCreate_ok hopen hsize hvm]
    · intro hiso
      have hfault := fault_created h.vfreed_lt pid m.slot hsize
      have hregion : w.kernel.regions.length = r := hiso m hm r hr 0 _ hfault
      exact Nat.ne_of_gt (h.mapping_lt m hm r hr) hregion
  | devOpen => exact absurd trivial hv
  | mmap area => exact absurd trivial hv
  | destroy pid arena env => exact absurd trivial hv
  | fault m pgoff => exact absurd trivial hv
  | munmap m => exact absurd trivial hv
  | release pid => exact absurd trivial hv

end World

/-! ### Whole runs -/

/-- **Faults stay inside the region their mapping was made for, throughout a run
    of any processes, exactly when no CREATE of the run takes a slot that a
    mapping still points to.** -/
theorem isolated_iff_vacant (ss : List MapStep) :
    Throughout World.mapStep World.Isolated World.boot ss ↔
      Along World.mapStep World.Vacant World.boot ss := by
  constructor
  · exact along_of_throughout World.bounded_step World.exposed_of_not_vacant World.bounded_boot
  · refine throughout_of_along World.bound_step (fun _ => World.isolated_of_bound) ?_
    intro m hm
    cases hm

/-- One page at address `0x10000`. -/
def onePage : VmArea := ⟨0x10000, 0x11000, 0, by decide, by decide⟩

/-- Process 1 creates and maps an arena and destroys it; process 2 creates one.
    The old mapping of process 1 now reaches the memory of process 2. -/
theorem mapping_reaches_later_arena :
    ∃ w, run World.mapStep World.boot
        [.devOpen, .create 1 4096 Env.ok, .mmap onePage, .destroy 1 0 Env.ok,
          .create 2 4096 Env.ok] = some w ∧
      w.mappings.map (fun m => (m.slot, m.region)) = [(0, some 0)] ∧
      karenaVmFault w.kernel 0 0 = some ⟨1, 0⟩ ∧ ¬ World.Isolated w := by
  refine ⟨_, rfl, by decide, by decide, ?_⟩
  intro hiso
  have hpage := hiso ⟨onePage, 0, some 0⟩ (List.mem_singleton.mpr rfl) 0 rfl 0 ⟨1, 0⟩ (by decide)
  exact absurd hpage (by decide)

end Lmalloc.Karena
