/-
  Lmalloc/Karena/FailedCreate.lean
  ================================
  **What a `ka_create` that fails does to the process.**

  All functions of `allocators/karena.c` use one static descriptor.  When
  `ka_create` fails it has closed it, or `open` has left -1 there, and nothing sets
  it to 0 again: the calls on the arenas that are there fail from then on, and so
  does every later `ka_create`.  Only a process whose descriptor was no longer one
  before the call loses nothing.
-/
import Lmalloc.Karena.Serving

namespace Lmalloc.Karena

open Lmalloc.Library

/-! ### What can be observed later -/

/-- The operations on an arena. -/
inductive KaOp where
  | alloc (size : UInt64)
  | seek (pos : UInt64)
  | pop (size : UInt64)
  | pos
  | reserve (sz : UInt64)
  | size
  | base
deriving DecidableEq, Repr

/-- What the operation returns; `ka_pop` returns nothing. -/
def kaOp (c : Client) (arena : UInt64) (env : Env) : KaOp → Option (Option UInt64 × Client)
  | .alloc size => (kaAlloc c arena size env).map fun r => (some r.1, r.2)
  | .seek pos => (kaSeek c arena pos env).map fun r => (some r.1, r.2)
  | .pop size => (kaPop c arena size env).map fun c => (none, c)
  | .pos => (kaPos c arena env).map fun r => (some r.1, r.2)
  | .reserve sz => (kaReserve c arena sz env).map fun r => (some r.1, r.2)
  | .size => (kaSize c arena env).map fun r => (some r.1, r.2)
  | .base => (kaBase c arena env).map fun r => (some r.1, r.2)

/-- The process operates on an arena, or something happens elsewhere in the system. -/
inductive Later where
  | operate (arena : UInt64) (op : KaOp) (env : Env)
  | elsewhere (a : Action)

def Client.later (c : Client) : Later → Option (Option UInt64 × Client)
  | .operate arena op env => kaOp c arena env op
  | .elsewhere a => (c.world.step a).map fun w => (none, { c with world := w })

/-- A mapped arena of the process. -/
def Client.LiveArena (c : Client) (arena : UInt64) : Prop :=
  ∃ i, slot? arena = some i ∧ (c.world.kernel.karenas i).uaddr ≠ 0 ∧
    (c.world.kernel.karenas i).ownerPid = c.pid

/-- An operation is one on an arena that is live now. -/
def Client.OnLive (c : Client) : Later → Prop
  | .operate arena _ _ => c.LiveArena arena
  | .elsewhere _ => True

/-- After the steps `as` of the system, `ka_create` returns an arena. -/
def Client.CanCreate (c : Client) (as : List Action) (size : UInt64) (os : Os) : Prop :=
  ∃ w arena c', run World.step c.world as = some w ∧
    kaCreate { c with world := w } size os = some (some arena, c')

/-- `c'` answers on the arenas of `c` as `c` does, and creates what `c` can create. -/
structure Client.Undisturbed (c c' : Client) : Prop where
  same_answers : ∀ ls, (∀ l ∈ ls, c.OnLive l) → trace Client.later c' ls = trace Client.later c ls
  can_create : ∀ as size os, c.CanCreate as size os → c'.CanCreate as size os

/-! ### The descriptor -/

section Descriptor

variable {c c' : Client}

theorem fd_ioctl {cmd : Cmd} {alloc : KaData} {env : Env} {ret : Int} {out : KaData}
    (h : c.ioctl cmd alloc env = some (ret, out, c')) : c'.fd = c.fd := by
  unfold Client.ioctl at h
  split at h
  · obtain ⟨r, _, hr⟩ := Option.map_eq_some_iff.mp h
    cases hr
    rfl
  · cases h
    rfl
  · cases h
    rfl

theorem fd_mmap {len addr : UInt64} {mapped : Bool} (h : c.mmap len addr = some (mapped, c')) :
    c'.fd = c.fd := by
  unfold Client.mmap at h
  split at h
  · split at h
    · obtain ⟨w, _, hw⟩ := Option.map_eq_some_iff.mp h
      cases hw
      rfl
    · cases h
      rfl
    · cases h
  · cases h
    rfl

theorem fd_close (h : c.fd ≠ .zero) (lastRef : Bool) : (c.close lastRef).fd = .bad := by
  unfold Client.close
  split
  · split
    · rfl
    · rfl
  · next hzero => exact absurd hzero h
  · next hbad => exact hbad

/-- The lazy `open` leaves a descriptor behind, or -1 where it has failed. -/
theorem openDevice_cases (c : Client) (ok : Bool) :
    ((c.openDevice ok).1 = true ∧ (c.openDevice ok).2.fd ≠ .zero) ∨
      ((c.openDevice ok).1 = false ∧ (c.openDevice ok).2.fd = .bad) := by
  have hlive : Fd.live ≠ .zero := by decide
  have hbad : Fd.bad ≠ .zero := by decide
  unfold Client.openDevice
  split
  · cases ok with
    | true => exact Or.inl ⟨rfl, hlive⟩
    | false => exact Or.inr ⟨rfl, rfl⟩
  · next hfd => exact Or.inl ⟨rfl, by rw [hfd]; exact hlive⟩
  · next hfd => exact Or.inl ⟨rfl, by rw [hfd]; exact hbad⟩

variable {size : UInt64} {os : Os}

/-- **A `NULL` of `ka_create` leaves no descriptor**, at whatever point it has failed. -/
theorem fd_of_kaCreate_null (h : kaCreate c size os = some (none, c')) : c'.fd = .bad := by
  unfold kaCreate at h
  rcases openDevice_cases c os.openOk with ⟨hopen, hfd⟩ | ⟨hopen, hfd⟩
  · simp only [hopen, Bool.true_eq_false, if_false] at h
    obtain ⟨⟨ret, out, c₁⟩, hioctl, h⟩ := Option.bind_eq_some_iff.mp h
    have hfd₁ : c₁.fd ≠ .zero := by
      rw [fd_ioctl hioctl]
      exact hfd
    by_cases hret : ret < 0
    · simp only [hret, if_true, Option.some.injEq, Prod.mk.injEq, true_and] at h
      rw [← h]
      exact fd_close hfd₁ _
    · rw [if_neg hret] at h
      obtain ⟨⟨mapped, c₂⟩, hmmap, h⟩ := Option.map_eq_some_iff.mp h
      have hfd₂ : c₂.fd ≠ .zero := by
        rw [fd_mmap hmmap]
        exact hfd₁
      cases mapped with
      | true => cases h
      | false =>
        cases h
        exact fd_close hfd₂ _
  · simp only [hopen, if_true, Option.some.injEq, Prod.mk.injEq, true_and] at h
    rw [← h]
    exact hfd

/-- Without a descriptor `ka_create` fails and does nothing. -/
theorem kaCreate_of_bad (h : c.fd = .bad) : kaCreate c size os = some (none, c) := by
  have hopen : c.openDevice os.openOk = (true, c) := by
    rw [Client.openDevice, h]
  have hioctl : c.ioctl .create ⟨size, 0⟩ os.env = some (-1, ⟨size, 0⟩, c) := by
    rw [Client.ioctl, h]
  have hclose : c.close os.lastRef = c := by
    rw [Client.close, h]
  have hneg : (-1 : Int) < 0 := by decide
  simp only [kaCreate, hopen, hioctl, Option.bind_some, hneg, if_true, hclose, Bool.true_eq_false,
    if_false]

theorem not_canCreate_of_bad (h : c.fd = .bad) (as : List Action) : ¬ c.CanCreate as size os := by
  rintro ⟨w, arena, c'', _, hcreate⟩
  rw [kaCreate_of_bad (c := { c with world := w }) h] at hcreate
  cases hcreate

/-- **Every arena of a process with a live descriptor is lost**: it had a base, and has none any
    more. -/
theorem base_lost {arena : UInt64} (h : kaCreate c size os = some (none, c'))
    (hfd : c.fd = .live) (harena : c.LiveArena arena) :
    (∃ base d, base ≠ 0 ∧ kaBase c arena Env.ok = some (base, d)) ∧
      kaBase c' arena Env.ok = some (0, c') := by
  obtain ⟨i, hslot, huaddr, _⟩ := harena
  constructor
  · refine ⟨_, c.setArena i (c.world.kernel.karenas i), huaddr, ?_⟩
    rw [kaBase, query_eq hfd hslot rfl (by decide)]
    rfl
  · rw [kaBase, Client.query, Client.ioctl, fd_of_kaCreate_null h]
    rfl

end Descriptor

/-! ### What a process with a descriptor can still create -/

section Creation

variable {c : Client}

/-- Every call succeeds, and `mmap` picks the address `0x10000`. -/
def Os.ok : Os := ⟨true, Env.ok, 0x10000, false⟩

/-- A page is mapped if the current arena has one page and is not mapped yet. -/
theorem mmap_page {i : Slot} (hlive : c.fd = .live)
    (hi : slot? c.world.kernel.currentArenaIndex = some i)
    (hfree : (c.world.kernel.karenas i).uaddr = 0)
    (hsize : (c.world.kernel.karenas i).size = 4096) :
    ∃ c', c.mmap 4096 0x10000 = some (true, c') := by
  have hpos : (0 : UInt64) < 0x10000 := by decide
  have hend : (0x10000 : UInt64) < 0x10000 + pageAlign 4096 := by decide
  have harea : mapArea 0x10000 4096 = some ⟨0x10000, 0x10000 + pageAlign 4096, 0, hpos, hend⟩ :=
    dif_pos ⟨hpos, hend⟩
  have hfits : (0x10000 : UInt64) + pageAlign 4096 - 0x10000 ≤ 4096 := by decide
  have hmmap : karenaMmap c.world.kernel ⟨0x10000, 0x10000 + pageAlign 4096, 0, hpos, hend⟩ =
      some (0, c.world.kernel.setSlot i { c.world.kernel.karenas i with uaddr := 0x10000 },
        some i) := by
    rw [karenaMmap_eq hi, if_pos]
    exact ⟨hfree, by rw [hsize]; exact hfits, rfl⟩
  simp only [Client.mmap, hlive, harea, hmmap, World.step, Option.map_some]
  exact ⟨_, rfl⟩

/-- With a free slot, and a descriptor or none so far, `ka_create` returns an arena. -/
theorem kaCreate_of_open {i : Slot} (hfd : c.fd ≠ .bad)
    (hopen : openSlot c.world.kernel.karenas = some i) :
    ∃ c', kaCreate c 4096 Os.ok = some (some (slotIndex i), c') := by
  obtain ⟨d, hd, hlive, hslot⟩ : ∃ d, c.openDevice true = (true, d) ∧ d.fd = .live ∧
      openSlot d.world.kernel.karenas = some i := by
    unfold Client.openDevice
    split
    · exact ⟨_, rfl, rfl, hopen⟩
    · next hlive => exact ⟨c, rfl, hlive, hopen⟩
    · next hbad => exact absurd hbad hfd
  have hcreated : handleArenaCreate d.world.kernel d.pid ⟨4096, 0⟩ Env.ok =
      (0, d.world.kernel.created d.pid i 4096, ⟨4096, slotIndex i⟩) := by
    have hpage : pageAlign 4096 = 4096 := by decide
    rw [handleArenaCreate_ok hslot (by rw [hpage]; decide) rfl, hpage]
  have hioctl : d.ioctl .create ⟨4096, 0⟩ Env.ok = some (0, ⟨4096, slotIndex i⟩,
      { d with world := { d.world with kernel := d.world.kernel.created d.pid i 4096 } }) := by
    simp only [Client.ioctl, hlive, karenaIoctl_create (show Env.ok.copyFromUser = true from rfl),
      hcreated]
    rfl
  obtain ⟨c', hmmap⟩ := mmap_page
    (c := { d with world := { d.world with kernel := d.world.kernel.created d.pid i 4096 } })
    hlive (slot?_slotIndex i) (congrArg KArena.uaddr (created_same ..))
    (congrArg KArena.size (created_same ..))
  refine ⟨c', ?_⟩
  simp only [kaCreate, Os.ok, hd, hioctl, Option.bind_some, hmmap, Option.map_some, if_true]
  rfl

/-- Some process destroys the arena of slot 0. -/
def freeFirstSlot : Action := .ioctl 0 .destroy ⟨0, 0⟩ Env.ok

theorem canCreate_after_freeFirstSlot (hfd : c.fd ≠ .bad) :
    c.CanCreate [freeFirstSlot] 4096 Os.ok := by
  obtain ⟨w, hw⟩ : ∃ w, w = { c.world with
      kernel := (handleArenaDestroy c.world.kernel 0 ⟨0, 0⟩).2.1 } := ⟨_, rfl⟩
  have hslot : slot? 0 = some 0 := slot?_slotIndex 0
  have hstep : World.step c.world freeFirstSlot = some w := by
    have hioctl : karenaIoctl c.world.kernel 0 .destroy ⟨0, 0⟩ Env.ok =
        some (copyBack .destroy Env.ok (handleArenaDestroy c.world.kernel 0 ⟨0, 0⟩)) := by
      rw [karenaIoctl_destroy rfl, hslot, Option.map_some]
    simp only [World.step, freeFirstSlot, hioctl, Option.map_some, state_copyBack, hw]
  have hopen : openSlot w.kernel.karenas = some 0 := by
    apply openSlot_eq_some_iff.mpr
    constructor
    · rw [hw, handleArenaDestroy_state]
      exact congrArg KArena.uaddr (karenas_setSlot_same ..)
    · intro j hj
      exact absurd hj (Nat.not_lt_zero _)
  obtain ⟨c', hcreate⟩ := kaCreate_of_open (c := { c with world := w }) hfd hopen
  exact ⟨w, _, c', run_cons_of_step hstep [], hcreate⟩

end Creation

/-! ### The main result -/

/-- **A `ka_create` that fails leaves the process undisturbed exactly if its descriptor was no
    longer one before.** -/
theorem failed_create_undisturbed_iff {c c' : Client} {size : UInt64} {os : Os}
    (h : kaCreate c size os = some (none, c')) : c.Undisturbed c' ↔ c.fd = .bad := by
  constructor
  · intro hsame
    by_contra hfd
    exact not_canCreate_of_bad (fd_of_kaCreate_null h) _
      (hsame.can_create _ _ _ (canCreate_after_freeFirstSlot hfd))
  · intro hbad
    rw [kaCreate_of_bad hbad] at h
    cases h
    exact ⟨fun _ _ => rfl, fun _ _ _ hcreate => hcreate⟩

/-- The device cannot be opened. -/
theorem failed_create_undisturbed_iff_open :
    (Client.mk World.boot 7 .zero).Undisturbed ⟨World.boot, 7, .bad⟩ ↔ Fd.zero = .bad :=
  failed_create_undisturbed_iff
    (show kaCreate ⟨World.boot, 7, .zero⟩ 4096 { Os.ok with openOk := false } = some (none, _)
      from rfl)

/-- A process creates an arena of one page; the `mmap` of a second one fails.  The size of the
    first can no longer be had, and no arena can be created any more. -/
theorem failed_create_disturbs :
    ∃ c c', kaCreate ⟨World.boot, 7, .zero⟩ 4096 Os.ok = some (some 0, c) ∧
      kaCreate c 4096 { Os.ok with addr := 0 } = some (none, c') ∧
      c.LiveArena 0 ∧
      (kaSize c 0 Env.ok).map Prod.fst = some 4096 ∧
      (kaSize c' 0 Env.ok).map Prod.fst = some (-1) ∧
      (kaCreate c' 4096 { Os.ok with addr := 0x20000 }).map Prod.fst = some none ∧
      ¬ c.Undisturbed c' := by
  refine ⟨_, _, rfl, rfl, ⟨0, by decide, by decide, by decide⟩, by decide, by decide, by decide, ?_⟩
  intro hsame
  have hanswers := hsame.same_answers [.operate 0 .size Env.ok] ?_
  · exact absurd hanswers (by decide)
  · intro l hl
    obtain rfl := List.mem_singleton.mp hl
    exact ⟨0, by decide, by decide, by decide⟩

end Lmalloc.Karena
