/-
  Lmalloc/Karena/Destroy.lean
  ===========================
  **`ka_destroy` and the mapping of the arena.**

  `ka_destroy` makes the DESTROY ioctl and unmaps as many bytes as the module has
  written into its `struct ka_data`.  For DESTROY the module writes nothing back,
  so that the size is the 0 it was before, and the mapping of the arena stays.

  What a process has mapped is kept by the page.  In a run the process creates,
  bootstraps, uses and destroys arenas, maps and unmaps other memory, and anything
  may happen elsewhere.
-/
import Lmalloc.Karena.FailedCreate
import Lmalloc.Karena.NullHandle
import Lmalloc.Library.Span

namespace Lmalloc.Karena

open Lmalloc.Library

/-! ### Address spaces -/

/-- The mapping that each page of a process belongs to, if any. -/
abbrev AddressSpace := ℕ → Option ℕ

/-- The pages of the bytes `addr, …, addr + len - 1`. -/
def pages (addr len : UInt64) : Span :=
  ⟨addr.toNat / 4096, (addr.toNat + len.toNat + 4095) / 4096 - addr.toNat / 4096⟩

def AddressSpace.map (mm : AddressSpace) (area : Span) (mapping : ℕ) : AddressSpace := fun n =>
  if area.start ≤ n ∧ n < area.stop then some mapping else mm n

/-- `munmap(addr, len)`; an address that is not at the start of a page is refused. -/
def AddressSpace.munmap (mm : AddressSpace) (addr len : UInt64) : AddressSpace :=
  if addr.toNat % 4096 = 0 then fun n =>
    if (pages addr len).start ≤ n ∧ n < (pages addr len).stop then none else mm n
  else mm

/-! ### The process -/

def kaDestroy (c : Client) (mm : AddressSpace) (arena : UInt64) (env : Env) :
    Option (Client × AddressSpace) :=
  (c.ioctl .destroy ⟨0, arena⟩ env).map fun r =>
    (r.2.2, if r.2.1.size > 0 then mm.munmap arena r.2.1.size else mm)

/-- An arena that the process has.  One from `ka_create` has a mapping, with a base and a
    size; a bootstrapped one has none of its own. -/
structure Held where
  handle : UInt64
  mapping : Option (UInt64 × UInt64)

structure Process where
  client : Client
  mm : AddressSpace
  arenas : List Held

inductive Event where
  | create (size : UInt64) (os : Os) (mapping : ℕ)
  | bootstrap (parent size : UInt64) (env : Env)
  | operate (arena : UInt64) (op : KaOp) (env : Env)
  | destroy (n : ℕ) (env : Env)                        -- of the arena number `n`
  | mmap (addr len : UInt64) (mapping : ℕ)             -- of something else
  | munmap (addr len : UInt64)                         -- of something else
  | elsewhere (a : Action)

/-- None of the pages is mapped. -/
def AddressSpace.Vacant (mm : AddressSpace) (area : Span) : Prop :=
  ∀ n < area.stop, area.start ≤ n → mm n = none

instance (mm : AddressSpace) (area : Span) : Decidable (mm.Vacant area) := by
  unfold AddressSpace.Vacant
  infer_instance

/-- The pages belong to no arena of the process. -/
def Process.SpareArenas (p : Process) (area : Span) : Prop :=
  ∀ a ∈ p.arenas, ∀ m ∈ a.mapping, Disjoint area.cells (pages m.1 m.2).cells

instance (p : Process) (area : Span) : Decidable (p.SpareArenas area) := by
  unfold Process.SpareArenas
  infer_instance

/-- One step.  The system puts a mapping at the start of a page where nothing is mapped. -/
def Process.step (p : Process) : Event → Option Process
  | .create size os mapping =>
      (kaCreate p.client size os).bind fun r =>
        match r.1 with
        | none => some { p with client := r.2 }
        | some arena =>
            let area := pages os.addr (pageAlign size)
            if os.addr.toNat % 4096 = 0 ∧ p.mm.Vacant area then
              some ⟨r.2, p.mm.map area mapping,
                p.arenas ++ [⟨arena, some (os.addr, pageAlign size)⟩]⟩
            else none
  | .bootstrap parent size env =>
      (kaBootstrap p.client parent size env).map fun r =>
        { p with client := r.2, arenas := p.arenas ++ r.1.toList.map fun arena => ⟨arena, none⟩ }
  | .operate arena op env =>
      (kaOp p.client arena env op).map fun r => { p with client := r.2 }
  | .destroy n env =>
      (p.arenas[n]?).bind fun a =>
        (kaDestroy p.client p.mm a.handle env).map fun r => ⟨r.1, r.2, p.arenas.eraseIdx n⟩
  | .mmap addr len mapping =>
      if addr.toNat % 4096 = 0 ∧ p.mm.Vacant (pages addr len) then
        some { p with mm := p.mm.map (pages addr len) mapping }
      else none
  | .munmap addr len =>
      if p.SpareArenas (pages addr len) then some { p with mm := p.mm.munmap addr len } else none
  | .elsewhere a =>
      (p.client.world.step a).map fun w => { p with client := { p.client with world := w } }

/-- What is expected of `ka_destroy`: the pages of the arena, and no others, are unmapped. -/
def Held.Unmapped (a : Held) (before after : AddressSpace) : Prop :=
  match a.mapping with
  | none => after = before
  | some (base, size) =>
      (∀ n ∈ (pages base size).cells, after n = none) ∧
        ∀ n, n ∉ (pages base size).cells → after n = before n

/-! ### Destroying an arena -/

section Destroy

variable {c : Client} {mm : AddressSpace} {arena : UInt64} {env : Env}

/-- The size that DESTROY leaves in the `struct ka_data` of the caller is the one the caller
    has put there. -/
theorem size_ioctl_destroy {alloc out : KaData} {ret : Int} {c' : Client}
    (h : c.ioctl .destroy alloc env = some (ret, out, c')) : out = alloc := by
  unfold Client.ioctl at h
  split at h
  · obtain ⟨r, hr, heq⟩ := Option.map_eq_some_iff.mp h
    have hout : r.2.2 = none := by
      cases henv : env.copyFromUser with
      | false =>
        rw [karenaIoctl_noCopy _ henv] at hr
        cases hr
        rfl
      | true =>
        rw [karenaIoctl_destroy henv] at hr
        obtain ⟨i, _, rfl⟩ := Option.map_eq_some_iff.mp hr
        unfold copyBack
        split
        · rfl
        · rfl
    rw [hout] at heq
    cases heq
    rfl
  · cases h
    rfl
  · cases h
    rfl

theorem ioctl_destroy_isSome {alloc : KaData} (h : (slot? alloc.arena).isSome) :
    (c.ioctl .destroy alloc env).isSome := by
  obtain ⟨i, hi⟩ := Option.isSome_iff_exists.mp h
  unfold Client.ioctl
  split
  · rw [Option.isSome_map]
    cases henv : env.copyFromUser with
    | false =>
      rw [karenaIoctl_noCopy _ henv]
      rfl
    | true =>
      rw [karenaIoctl_destroy henv, hi]
      rfl
  · rfl
  · rfl

/-- **`ka_destroy` changes no mapping**, whatever arena it destroys. -/
theorem kaDestroy_keeps {r : Client × AddressSpace} (h : kaDestroy c mm arena env = some r) :
    r.2 = mm := by
  obtain ⟨⟨ret, out, c'⟩, hioctl, rfl⟩ := Option.map_eq_some_iff.mp h
  have hsize : out.size = 0 := congrArg KaData.size (size_ioctl_destroy hioctl)
  simp only [hsize, gt_iff_lt, UInt64.lt_irrefl, if_false]

theorem kaDestroy_isSome (h : (slot? arena).isSome) : (kaDestroy c mm arena env).isSome := by
  rw [kaDestroy, Option.isSome_map]
  exact ioctl_destroy_isSome h

end Destroy

/-! ### The arenas of a process are mapped -/

/-- The arena is one of the table, and all of its pages are mapped. -/
structure Held.Sound (mm : AddressSpace) (a : Held) : Prop where
  handle_valid : (slot? a.handle).isSome
  size_pos : ∀ m ∈ a.mapping, 0 < m.2.toNat
  mapped : ∀ m ∈ a.mapping, ∀ n ∈ (pages m.1 m.2).cells, (mm n).isSome

def Process.Sound (p : Process) : Prop := ∀ a ∈ p.arenas, a.Sound p.mm

section Steps

variable {mm : AddressSpace} {a : Held}

theorem isSome_map {area : Span} {mapping n : ℕ} (h : (mm n).isSome) :
    (mm.map area mapping n).isSome := by
  unfold AddressSpace.map
  split
  · rfl
  · exact h

theorem map_of_mem {area : Span} {mapping n : ℕ} (h : n ∈ area.cells) :
    mm.map area mapping n = some mapping := if_pos h

theorem munmap_of_notMem {addr len : UInt64} {n : ℕ} (h : n ∉ (pages addr len).cells) :
    mm.munmap addr len n = mm n := by
  unfold AddressSpace.munmap
  split
  · exact if_neg h
  · rfl

theorem Held.Sound.map (h : a.Sound mm) (area : Span) (mapping : ℕ) :
    a.Sound (mm.map area mapping) :=
  ⟨h.handle_valid, h.size_pos, fun m hm n hn => isSome_map (h.mapped m hm n hn)⟩

theorem Held.Sound.munmap (h : a.Sound mm) {addr len : UInt64}
    (hapart : ∀ m ∈ a.mapping, Disjoint (pages addr len).cells (pages m.1 m.2).cells) :
    a.Sound (mm.munmap addr len) := by
  refine ⟨h.handle_valid, h.size_pos, ?_⟩
  intro m hm n hn
  rw [munmap_of_notMem fun hin => Set.disjoint_left.mp (hapart m hm) hin hn]
  exact h.mapped m hm n hn

/-- No mapping is empty. -/
theorem size_pos_of_mapArea {addr size : UInt64} {area : VmArea}
    (h : mapArea addr (pageAlign size) = some area) : 0 < (pageAlign size).toNat := by
  have hne : pageAlign size ≠ 0 := by
    intro hzero
    have hnone : mapArea addr 0 = none := by
      have hpage : pageAlign 0 = 0 := by decide
      apply dif_neg
      rw [hpage, UInt64.add_zero]
      exact fun hroom => absurd hroom.2 (UInt64.lt_irrefl addr)
    rw [hzero, hnone] at h
    cases h
  rw [← UInt64.toNat_inj.ne, UInt64.toNat_zero] at hne
  exact Nat.pos_of_ne_zero hne

/-- The first page of a range that is not empty. -/
theorem first_mem_pages {addr len : UInt64} (h : 0 < len.toNat) :
    addr.toNat / 4096 ∈ (pages addr len).cells := by
  have hlast : addr.toNat / 4096 < (addr.toNat + len.toNat + 4095) / 4096 := by
    rw [Nat.lt_iff_add_one_le, ← Nat.add_div_right _ (by decide : 0 < 4096)]
    apply Nat.div_le_div_right
    omega
  refine ⟨Nat.le_refl _, ?_⟩
  rw [Span.stop, pages, Nat.add_sub_cancel' (Nat.le_of_lt hlast)]
  exact hlast

/-- An arena that `ka_create` returns is sound when its pages have been mapped. -/
theorem sound_of_kaCreate {c c' : Client} {size arena : UInt64} {os : Os}
    (h : kaCreate c size os = some (some arena, c')) (mapping : ℕ) :
    Held.Sound (mm.map (pages os.addr (pageAlign size)) mapping)
      ⟨arena, some (os.addr, pageAlign size)⟩ := by
  obtain ⟨_, ⟨area, harea⟩, i, hslot, _⟩ := kaCreate_mapped h
  refine ⟨by rw [hslot]; rfl, ?_, ?_⟩
  · intro m hm
    obtain rfl := Option.mem_some.mp hm
    exact size_pos_of_mapArea harea
  · intro m hm n hn
    obtain rfl := Option.mem_some.mp hm
    rw [map_of_mem hn]
    rfl

/-- The base and the size that are recorded are those of `ka_base` and `ka_size`. -/
theorem base_size_of_kaCreate {c c' : Client} {size arena : UInt64} {os : Os}
    (h : kaCreate c size os = some (some arena, c')) :
    (∃ d, kaBase c' arena Env.ok = some (os.addr, d)) ∧
      ∃ d, kaSize c' arena Env.ok = some (pageAlign size, d) := by
  obtain ⟨hfd, _, i, hslot, haddr, hsize, _⟩ := kaCreate_mapped h
  constructor
  · refine ⟨c'.setArena i (c'.world.kernel.karenas i), ?_⟩
    rw [kaBase, query_eq hfd hslot rfl (by decide), ← haddr]
    rfl
  · refine ⟨c'.setArena i (c'.world.kernel.karenas i), ?_⟩
    rw [kaSize, query_eq hfd hslot rfl (by decide), ← hsize]
    rfl

variable {p p' : Process}

/-- **Every step keeps the arenas of the process mapped.** -/
theorem Process.Sound.step (h : p.Sound) {e : Event} (hstep : p.step e = some p') : p'.Sound := by
  cases e with
  | create size os mapping =>
    obtain ⟨⟨arena?, c'⟩, hcreate, hrest⟩ := Option.bind_eq_some_iff.mp hstep
    cases arena? with
    | none =>
      cases hrest
      exact h
    | some arena =>
      simp only at hrest
      split at hrest
      · cases hrest
        intro a ha
        rcases List.mem_append.mp ha with hold | hnew
        · exact (h a hold).map _ _
        · obtain rfl := List.mem_singleton.mp hnew
          exact sound_of_kaCreate hcreate mapping
      · cases hrest
  | bootstrap parent size env =>
    obtain ⟨⟨arena?, c'⟩, hboot, rfl⟩ := Option.map_eq_some_iff.mp hstep
    intro a ha
    rcases List.mem_append.mp ha with hold | hnew
    · exact h a hold
    · obtain ⟨arena, harena, rfl⟩ := List.mem_map.mp hnew
      obtain rfl := Option.mem_toList.mp harena
      obtain ⟨i, _, rfl⟩ := kaBootstrap_slot hboot
      refine ⟨by rw [slot?_slotIndex]; rfl, ?_, ?_⟩
      · intro m hm
        cases hm
      · intro m hm
        cases hm
  | operate arena op env =>
    obtain ⟨r, _, rfl⟩ := Option.map_eq_some_iff.mp hstep
    exact h
  | destroy n env =>
    obtain ⟨a, _, hrest⟩ := Option.bind_eq_some_iff.mp hstep
    obtain ⟨r, hdestroy, rfl⟩ := Option.map_eq_some_iff.mp hrest
    intro b hb
    simp only [kaDestroy_keeps hdestroy]
    exact h b (List.mem_of_mem_eraseIdx hb)
  | mmap addr len mapping =>
    simp only [Process.step] at hstep
    split at hstep
    · cases hstep
      exact fun a ha => (h a ha).map _ _
    · cases hstep
  | munmap addr len =>
    simp only [Process.step] at hstep
    split at hstep
    · next hspare =>
      cases hstep
      exact fun a ha => (h a ha).munmap (hspare a ha)
    · cases hstep
  | elsewhere a =>
    obtain ⟨w, _, rfl⟩ := Option.map_eq_some_iff.mp hstep
    exact h

theorem sound_of_run (hempty : p.arenas = []) {es : List Event}
    (hrun : run Process.step p es = some p') : p'.Sound := by
  refine run_invariant (fun _ _ _ hsound hstep => hsound.step hstep) ?_ hrun
  intro a ha
  rw [hempty] at ha
  cases ha

end Steps

/-! ### The main result -/

/-- A mapping that is there, and still there afterwards, has not been unmapped. -/
theorem Held.Sound.unmapped_iff {mm : AddressSpace} {a : Held} (h : a.Sound mm) :
    a.Unmapped mm mm ↔ a.mapping = none := by
  cases hm : a.mapping with
  | none =>
    apply iff_of_true
    · rw [Held.Unmapped, hm]
    · rfl
  | some m =>
    apply iff_of_false
    · intro hunmapped
      rw [Held.Unmapped, hm] at hunmapped
      have hfirst := @first_mem_pages m.1 m.2 (h.size_pos m hm)
      have hsome := h.mapped m hm _ hfirst
      rw [hunmapped.1 _ hfirst] at hsome
      cases hsome
    · exact Option.some_ne_none m

/-- **`ka_destroy` does what it is for exactly on bootstrapped arenas**, in every state that a
    run of the process reaches. -/
theorem destroy_unmaps_iff {start p : Process} (hstart : start.arenas = []) {es : List Event}
    (hrun : run Process.step start es = some p) {a : Held} (ha : a ∈ p.arenas) (env : Env) :
    ∃ r, kaDestroy p.client p.mm a.handle env = some r ∧
      (a.Unmapped p.mm r.2 ↔ a.mapping = none) := by
  have hsound := sound_of_run hstart hrun a ha
  obtain ⟨r, hr⟩ := Option.isSome_iff_exists.mp
    (@kaDestroy_isSome p.client p.mm _ env hsound.handle_valid)
  refine ⟨r, hr, ?_⟩
  rw [kaDestroy_keeps hr]
  exact hsound.unmapped_iff

/-- A process with nothing mapped, when another one has an arena in slot 0. -/
def newProcess : Process := ⟨newcomer afterFirst.world 2, fun _ => none, []⟩

/-- The process after a `ka_create` of one page. -/
def withOneArena : Process :=
  (run Process.step newProcess [.create 4096 (willing 4096) 1]).getD newProcess

def onlyArena : Held := ⟨1, some (4096, 4096)⟩

/-- The only arena of a process. -/
theorem destroy_unmaps_iff_only :
    ∃ r, kaDestroy withOneArena.client withOneArena.mm onlyArena.handle Env.ok = some r ∧
      (onlyArena.Unmapped withOneArena.mm r.2 ↔ onlyArena.mapping = none) :=
  destroy_unmaps_iff (show newProcess.arenas = [] from rfl)
    (show run Process.step newProcess [.create 4096 (willing 4096) 1] = some withOneArena from rfl)
    (show onlyArena ∈ withOneArena.arenas from List.mem_singleton_self _) Env.ok

/-- The arena of one page is destroyed: its slot is free, and its page is mapped. -/
theorem destroy_leaves_mapping :
    ∃ r, kaDestroy withOneArena.client withOneArena.mm onlyArena.handle Env.ok = some r ∧
      (r.1.world.kernel.karenas 1).uaddr = 0 ∧ r.2 1 = some 1 ∧
      ¬ onlyArena.Unmapped withOneArena.mm r.2 := by
  refine ⟨_, rfl, by decide, by decide, ?_⟩
  rintro ⟨hgone, _⟩
  exact absurd (hgone 1 ⟨by decide, by decide⟩) (by decide)

end Lmalloc.Karena
