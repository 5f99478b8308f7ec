/-
  Lmalloc/Poc/Memexpand.lean
  ==========================
  **The kernel module `memexpand.c`.**

  `MEMEXPAND_ALLOCATE` leaves a new region in the device-global `mmap_info`, and
  `memexpand_mmap` maps whatever is there.  The calls of several processes overlap:
  the region is there for all of them before the call that made it has copied its
  answer to the user, and it is freed again if that copy fails.

  `vfree` and `kfree` go together, so a `struct memexpand_mmap_info` and its region
  have one name, their number among all that were ever allocated.
-/
import Mathlib
import Lmalloc.Karena.Module
import Lmalloc.Library.Run

namespace Lmalloc.Poc.Memexpand

open Lmalloc.Library
open Lmalloc.Karena (Pid Page VmArea pageAlign eFAULT eNOMEM eINVAL eNOTTY)

/-! ### Data -/

/-- A `struct memexpand_mmap_info` with its region. -/
abbrev Info := ℕ

/-- The ioctl commands; any other number is `other`. -/
inductive Cmd where
  | allocate
  | other (n : UInt32)
deriving DecidableEq, Repr

/-- What the environment answers before the copy to the user. -/
structure Env where
  copyFromUser : Bool
  kzalloc : Bool
  vzalloc : Bool
deriving DecidableEq, Repr

/-- Where a call of `memexpand_ioctl` is, once its region is in `mmap_info`. -/
inductive Pending where
  | copying (info : Info)     -- before `copy_to_user`
  | clearing (info : Info)    -- the copy has failed and the region is freed
deriving DecidableEq, Repr

def Pending.info : Pending → Info
  | .copying info | .clearing info => info

/-- A mapping; `info` is its `vm_private_data`. -/
structure Mapping where
  area : VmArea
  info : Info
deriving DecidableEq, Repr

/-- The module and the mappings of its device. -/
structure Device where
  mmapInfo : Option Info
  sizes : List UInt64               -- of all regions so far
  freed : List Info
  pending : List (Pid × Pending)
  allocated : List Info             -- of the calls that have returned 0
  mappings : List Mapping
  exited : Bool
  dangled : Bool                    -- freed memory has been read
deriving Repr

/-- After `my_init`. -/
def Device.init : Device := ⟨none, [], [], [], [], [], false, false⟩

/-- `info->size`, while the object is allocated. -/
def Device.size? (k : Device) (p : Info) : Option UInt64 :=
  if p ∈ k.freed then none else k.sizes[p]?

/-! ### The entry points -/

/-- `memexpand_ioctl` until it returns an error, or until the new region is in
    `mmap_info`. -/
def memexpandIoctl (k : Device) (cmd : Cmd) (size : UInt64) (env : Env) : Except Int Device :=
  if env.copyFromUser = false then .error (-eFAULT)
  else
    match cmd with
    | .allocate =>
        if env.kzalloc = false then .error (-eNOMEM)
        else if pageAlign size = 0 then .error (-eINVAL)
        else if env.vzalloc = false then .error (-eNOMEM)
        -- the region that was there is kept, and no longer known
        else .ok { k with mmapInfo := some k.sizes.length, sizes := k.sizes ++ [pageAlign size] }
    | .other _ => .error (-eNOTTY)

/-- `memexpand_mmap`; `none` when it reads an object that has been freed. -/
def memexpandMmap (k : Device) (vma : VmArea) : Option (Except Int Info) :=
  match k.mmapInfo with
  | none => some (.error (-eINVAL))
  | some p =>
      (k.size? p).map fun size =>
        if vma.vmEnd - vma.vmStart > size then .error (-eINVAL)
        else if vma.vmPgoff ≠ 0 then .error (-eINVAL)
        else .ok p

/-- `memexpand_vm_fault`: a page, `SIGBUS`, or `none` when it reads an object that has
    been freed. -/
def memexpandVmFault (k : Device) (info : Info) (pgoff : UInt64) : Option (Option Page) :=
  (k.size? info).map fun size =>
    let offset := pgoff <<< 12
    if offset ≥ size then none else some ⟨info, offset.toNat / 4096⟩

/-- The end of `memexpand_ioctl` when the copy to the user has failed, up to `kfree`. -/
def Device.free (k : Device) (p : Info) : Device := { k with freed := p :: k.freed }

/-- `my_exit`, what it frees. -/
def myExit (k : Device) : Device :=
  match k.mmapInfo with
  | none => { k with exited := true }
  | some p => { k.free p with exited := true }

/-! ### Runs -/

inductive Action where
  | ioctl (pid : Pid) (cmd : Cmd) (size : UInt64) (env : Env)
  | copyToUser (pid : Pid) (copied : Bool)
  | clear (pid : Pid)
  | mmap (vma : VmArea)
  | munmap (m : ℕ)
  | fault (m : ℕ) (pgoff : UInt64)      -- inside the mapping number `m`
  | exit
deriving DecidableEq, Repr

def Device.call (k : Device) (pid : Pid) : Option Pending := k.pending.lookup pid

def Device.endCall (k : Device) (pid : Pid) : Device :=
  { k with pending := k.pending.filter (·.1 ≠ pid) }

/-- The bytes of a mapping. -/
def Mapping.length (m : Mapping) : ℕ := (m.area.vmEnd - m.area.vmStart).toNat

/-- One step.  The kernel unloads a module that no file and no mapping uses. -/
def step (k : Device) (a : Action) : Option Device :=
  if k.exited then none
  else
    match a with
    | .ioctl pid cmd size env =>
        if (k.call pid).isSome then none
        else
          match memexpandIoctl k cmd size env with
          | .error _ => some k
          | .ok k' => some { k' with pending := (pid, .copying k.sizes.length) :: k.pending }
    | .copyToUser pid copied =>
        match k.call pid with
        | some (.copying p) =>
            if copied then some { k.endCall pid with allocated := p :: k.allocated }
            else
              some { k.free p with pending := (pid, .clearing p) :: (k.endCall pid).pending }
        | _ => none
    | .clear pid =>
        match k.call pid with
        | some (.clearing _) => some { k.endCall pid with mmapInfo := none }
        | _ => none
    | .mmap vma =>
        match memexpandMmap k vma with
        | none => some { k with dangled := true }
        | some (.error _) => some k
        | some (.ok p) => some { k with mappings := k.mappings ++ [⟨vma, p⟩] }
    | .munmap m => some { k with mappings := k.mappings.eraseIdx m }
    | .fault m pgoff =>
        match k.mappings[m]? with
        | none => none
        | some mapping =>
            if pgoff.toNat * 4096 < mapping.length then
              some { k with
                dangled := k.dangled || (memexpandVmFault k mapping.info pgoff).isNone }
            else none
    | .exit => if k.pending = [] ∧ k.mappings = [] then some (myExit k) else none

/-! ### Every region is somewhere -/

/-- The region of a call that has not copied its answer yet. -/
def Pending.copies : Pending → Option Info
  | .copying info => some info
  | .clearing _ => none

/-- The regions of the calls that may still succeed. -/
def Device.copying (k : Device) : List Info := k.pending.filterMap fun c => c.2.copies

/-- Before `my_exit` each region has been handed out, is of a call that may still succeed, or
    has been freed. -/
structure Sound (k : Device) : Prop where
  calls : (k.pending.map Prod.fst).Nodup
  ledger : (k.allocated : Multiset Info) + k.freed + k.copying = Multiset.range k.sizes.length
  current : ∀ p, k.mmapInfo = some p → p < k.sizes.length ∧
    (p ∈ k.freed → ∃ pid, (pid, Pending.clearing p) ∈ k.pending)

theorem sound_init : Sound .init := by
  refine ⟨List.nodup_nil, rfl, ?_⟩
  intro p hp
  cases hp

section Steps

variable {k k' : Device} {pid : Pid} {c : Pending} {p : Info} {a : Action} {vma : VmArea}

/-- A call that ends leaves the others as they are. -/
theorem Sound.endCall (h : Sound k) (hcall : k.call pid = some c) :
    k.pending.Perm ((pid, c) :: (k.endCall pid).pending) := by
  have hcalls := h.calls
  rw [Device.call] at hcall
  simp only [Device.endCall]
  generalize k.pending = pending at hcall hcalls
  induction pending with
  | nil => cases hcall
  | cons call pending ih =>
    obtain ⟨pid', c'⟩ := call
    rw [List.map_cons, List.nodup_cons] at hcalls
    obtain ⟨hnot, hrest⟩ := hcalls
    by_cases hpid : pid = pid'
    · subst hpid
      rw [List.lookup_cons_self] at hcall
      cases hcall
      have hall : pending.filter (fun x => x.1 ≠ pid) = pending := by
        apply List.filter_eq_self.mpr
        intro x hx
        rw [decide_eq_true_iff]
        exact fun heq => hnot (List.mem_map.mpr ⟨x, hx, heq⟩)
      rw [List.filter_cons_of_neg (by simp), hall]
    · rw [List.lookup_cons, beq_false_of_ne hpid] at hcall
      rw [List.filter_cons_of_pos (by simpa using Ne.symm hpid)]
      exact ((ih hcall hrest).cons _).trans (List.Perm.swap _ _ _)

theorem Sound.copying_endCall (h : Sound k) (hcall : k.call pid = some c) :
    (k.copying : Multiset Info) =
      (c.copies.toList : Multiset Info) + (k.endCall pid).copying := by
  have hperm := (h.endCall hcall).filterMap fun c => c.2.copies
  rw [Device.copying, Multiset.coe_eq_coe.mpr hperm]
  cases c with
  | copying p => rfl
  | clearing p => exact (zero_add _).symm

theorem Sound.calls_endCall (h : Sound k) :
    ((k.endCall pid).pending.map Prod.fst).Nodup ∧
      ∀ c, (pid, c) ∉ (k.endCall pid).pending := by
  refine ⟨(List.filter_sublist.map Prod.fst).nodup h.calls, ?_⟩
  intro c hc
  have hne := (List.mem_filter.mp hc).2
  rw [decide_eq_true_iff] at hne
  exact hne rfl

/-- The end of a call keeps the calls of the other processes. -/
theorem mem_endCall {pid' : Pid} {c' : Pending} (hc : (pid', c') ∈ k.pending)
    (hne : pid' ≠ pid) : (pid', c') ∈ (k.endCall pid).pending :=
  List.mem_filter.mpr ⟨hc, decide_eq_true hne⟩

/-- A region that has been handed out is still there. -/
theorem Sound.not_freed (h : Sound k) (hp : p ∈ k.allocated) : p ∉ k.freed := by
  have hnodup : ((k.allocated : Multiset Info) + k.freed + k.copying).Nodup := by
    rw [h.ledger]
    exact Multiset.nodup_range _
  have hfirst := (Multiset.nodup_add.mp hnodup).1
  exact fun hfreed => Multiset.disjoint_left.mp (Multiset.nodup_add.mp hfirst).2.2 hp hfreed

theorem Sound.mem_iff (h : Sound k) :
    p < k.sizes.length ↔ p ∈ k.allocated ∨ p ∈ k.freed ∨ p ∈ k.copying := by
  rw [← Multiset.mem_range, ← h.ledger, Multiset.mem_add, Multiset.mem_add, or_assoc]
  exact Iff.rfl

/-- A call that gets so far has put a new region into `mmap_info`. -/
theorem memexpandIoctl_ok {cmd : Cmd} {size : UInt64} {env : Env}
    (hioctl : memexpandIoctl k cmd size env = .ok k') :
    ∃ size', k' = { k with mmapInfo := some k.sizes.length, sizes := k.sizes ++ [size'] } := by
  unfold memexpandIoctl at hioctl
  split at hioctl
  · cases hioctl
  · split at hioctl
    · split at hioctl
      · cases hioctl
      · split at hioctl
        · cases hioctl
        · split at hioctl
          · cases hioctl
          · cases hioctl
            exact ⟨pageAlign size, rfl⟩
    · cases hioctl

theorem sound_ioctl (h : Sound k) {cmd : Cmd} {size : UInt64} {env : Env}
    (hbusy : ¬ (k.call pid).isSome) (hioctl : memexpandIoctl k cmd size env = .ok k') :
    Sound { k' with pending := (pid, .copying k.sizes.length) :: k.pending } := by
  obtain ⟨size', rfl⟩ := memexpandIoctl_ok hioctl
  refine ⟨?_, ?_, ?_⟩
  · refine List.nodup_cons.mpr ⟨?_, h.calls⟩
    intro hmem
    apply hbusy
    rw [Device.call, List.lookup_isSome_iff]
    obtain ⟨x, hx, heq⟩ := List.mem_map.mp hmem
    exact ⟨x, hx, by simp [heq]⟩
  · simp only [List.length_append, List.length_singleton, Multiset.range_succ, ← h.ledger]
    rw [← Multiset.add_cons]
    rfl
  · intro p hp
    cases hp
    refine ⟨by simp only [List.length_append, List.length_singleton, Nat.lt_succ_self], ?_⟩
    intro hgone
    exact absurd (h.mem_iff.mpr (Or.inr (Or.inl hgone))) (Nat.lt_irrefl _)

/-- The answer has been copied: the region is the caller's. -/
theorem sound_copied (h : Sound k) (hcall : k.call pid = some (.copying p)) :
    Sound { k.endCall pid with allocated := p :: k.allocated } := by
  refine ⟨h.calls_endCall.1, ?_, ?_⟩
  · have hledger := h.ledger
    rw [h.copying_endCall hcall] at hledger
    refine Eq.trans ?_ hledger
    change (↑(p :: k.allocated) : Multiset Info) + k.freed + (k.endCall pid).copying =
      k.allocated + k.freed + (↑[p] + (k.endCall pid).copying)
    simp only [← Multiset.cons_coe, Multiset.coe_nil, Multiset.cons_add, Multiset.add_cons,
      zero_add]
  · intro q hq
    refine ⟨(h.current q hq).1, ?_⟩
    intro hfreed
    obtain ⟨pid', hpending⟩ := (h.current q hq).2 hfreed
    refine ⟨pid', mem_endCall hpending ?_⟩
    intro heq
    subst heq
    have hmem := (h.endCall hcall).mem_iff.mp hpending
    rcases List.mem_cons.mp hmem with hsame | hrest
    · cases hsame
    · exact h.calls_endCall.2 _ hrest

/-- It could not be copied: the region is freed. -/
theorem sound_notCopied (h : Sound k) (hcall : k.call pid = some (.copying p)) :
    Sound { k.free p with pending := (pid, .clearing p) :: (k.endCall pid).pending } := by
  refine ⟨?_, ?_, ?_⟩
  · refine List.nodup_cons.mpr ⟨?_, h.calls_endCall.1⟩
    intro hmem
    obtain ⟨⟨pid', c⟩, hx, heq⟩ := List.mem_map.mp hmem
    subst heq
    exact h.calls_endCall.2 c hx
  · have hledger := h.ledger
    rw [h.copying_endCall hcall] at hledger
    refine Eq.trans ?_ hledger
    change (k.allocated : Multiset Info) + ↑(p :: k.freed) + (k.endCall pid).copying =
      k.allocated + k.freed + (↑[p] + (k.endCall pid).copying)
    simp only [← Multiset.cons_coe, Multiset.coe_nil, Multiset.cons_add, Multiset.add_cons,
      zero_add]
  · intro q hq
    refine ⟨(h.current q hq).1, ?_⟩
    intro hfreed
    rcases List.mem_cons.mp hfreed with heq | hbefore
    · subst heq
      exact ⟨pid, List.mem_cons_self ..⟩
    · obtain ⟨pid', hpending⟩ := (h.current q hq).2 hbefore
      refine ⟨pid', List.mem_cons_of_mem _ (mem_endCall hpending ?_)⟩
      intro heq
      subst heq
      rcases List.mem_cons.mp ((h.endCall hcall).mem_iff.mp hpending) with hsame | hrest
      · cases hsame
      · exact h.calls_endCall.2 _ hrest

theorem sound_clear (h : Sound k) (hcall : k.call pid = some (.clearing p)) :
    Sound { k.endCall pid with mmapInfo := none } := by
  refine ⟨h.calls_endCall.1, ?_, fun q hq => ?_⟩
  · have hledger := h.ledger
    rw [h.copying_endCall hcall] at hledger
    refine Eq.trans ?_ hledger
    change (k.allocated : Multiset Info) + k.freed + (k.endCall pid).copying =
      k.allocated + k.freed + (0 + (k.endCall pid).copying)
    rw [zero_add]
  · cases hq

/-- The module has been unloaded: what is left was handed out, and was not current. -/
structure Unloaded (k : Device) : Prop where
  exited : k.exited = true
  freed_nodup : k.freed.Nodup
  left_iff : ∀ p < k.sizes.length, p ∉ k.freed ↔ p ∈ k.allocated ∧ k.mmapInfo ≠ some p

theorem Sound.freed_nodup (h : Sound k) : k.freed.Nodup := by
  have hnodup : ((k.allocated : Multiset Info) + k.freed + k.copying).Nodup := by
    rw [h.ledger]
    exact Multiset.nodup_range _
  exact (Multiset.nodup_add.mp (Multiset.nodup_add.mp hnodup).1).2.1

theorem unloaded_myExit (h : Sound k) (hpending : k.pending = []) : Unloaded (myExit k) := by
  have hnone : ∀ p, p ∉ k.copying := by
    intro p
    rw [Device.copying, hpending]
    exact List.not_mem_nil
  have hleft : ∀ p < k.sizes.length, p ∉ k.freed ↔ p ∈ k.allocated := by
    intro p hp
    constructor
    · intro hfreed
      rcases h.mem_iff.mp hp with hmem | hmem | hmem
      · exact hmem
      · exact absurd hmem hfreed
      · exact absurd hmem (hnone p)
    · exact h.not_freed
  cases hmmap : k.mmapInfo with
  | none =>
    simp only [myExit, hmmap]
    refine ⟨rfl, h.freed_nodup, fun p hp => (hleft p hp).trans ?_⟩
    simp
  | some q =>
    simp only [myExit, hmmap]
    refine ⟨rfl, List.nodup_cons.mpr ⟨?_, h.freed_nodup⟩, ?_⟩
    · intro hfreed
      obtain ⟨pid, hclearing⟩ := (h.current q hmmap).2 hfreed
      rw [hpending] at hclearing
      exact List.not_mem_nil hclearing
    · intro p hp
      simp only [Device.free, List.mem_cons, not_or, hleft p hp, hmmap, ne_eq,
        Option.some.injEq]
      rw [and_comm, eq_comm]

/-- What a step may do. -/
theorem step_cases (hs : step k a = some k') :
    k.exited = false ∧
      ((∃ pid cmd size env k₁, ¬ (k.call pid).isSome ∧ memexpandIoctl k cmd size env = .ok k₁ ∧
          k' = { k₁ with pending := (pid, .copying k.sizes.length) :: k.pending }) ∨
        (∃ pid p, k.call pid = some (.copying p) ∧
          (k' = { k.endCall pid with allocated := p :: k.allocated } ∨
            k' = { k.free p with pending := (pid, .clearing p) :: (k.endCall pid).pending })) ∨
        (∃ pid p, k.call pid = some (.clearing p) ∧
          k' = { k.endCall pid with mmapInfo := none }) ∨
        (∃ vma, a = .mmap vma ∧
          ((memexpandMmap k vma = none ∧ k' = { k with dangled := true }) ∨
            ∃ p, memexpandMmap k vma = some (.ok p) ∧
              k' = { k with mappings := k.mappings ++ [⟨vma, p⟩] })) ∨
        (∃ m, k' = { k with mappings := k.mappings.eraseIdx m }) ∨
        (∃ mapping ∈ k.mappings, ∃ pgoff : UInt64, pgoff.toNat * 4096 < mapping.length ∧
          k' = { k with
            dangled := k.dangled || (memexpandVmFault k mapping.info pgoff).isNone }) ∨
        k' = k ∨
        (k.pending = [] ∧ k.mappings = [] ∧ k' = myExit k)) := by
  obtain ⟨hlive, hs⟩ := Option.ite_none_left_eq_some.mp hs
  refine ⟨by simpa using hlive, ?_⟩
  cases a with
  | ioctl pid cmd size env =>
    obtain ⟨hbusy, hs⟩ := Option.ite_none_left_eq_some.mp hs
    cases hioctl : memexpandIoctl k cmd size env with
    | error ret =>
      rw [hioctl] at hs
      cases hs
      tauto
    | ok k₁ =>
      rw [hioctl] at hs
      cases hs
      exact Or.inl ⟨pid, cmd, size, env, k₁, hbusy, hioctl, rfl⟩
  | copyToUser pid copied =>
    simp only at hs
    split at hs
    · next p hcall =>
      refine Or.inr (Or.inl ⟨pid, p, hcall, ?_⟩)
      split at hs
      · cases hs
        exact Or.inl rfl
      · cases hs
        exact Or.inr rfl
    · cases hs
  | clear pid =>
    simp only at hs
    split at hs
    · next p hcall =>
      cases hs
      exact Or.inr (Or.inr (Or.inl ⟨pid, p, hcall, rfl⟩))
    · cases hs
  | mmap vma =>
    simp only at hs
    split at hs
    · next hmmap =>
      cases hs
      exact Or.inr (Or.inr (Or.inr (Or.inl ⟨vma, rfl, Or.inl ⟨hmmap, rfl⟩⟩)))
    · cases hs
      tauto
    · next p hmmap =>
      cases hs
      exact Or.inr (Or.inr (Or.inr (Or.inl ⟨vma, rfl, Or.inr ⟨p, hmmap, rfl⟩⟩)))
  | munmap m =>
    cases hs
    exact Or.inr (Or.inr (Or.inr (Or.inr (Or.inl ⟨m, rfl⟩))))
  | fault m pgoff =>
    simp only at hs
    split at hs
    · cases hs
    · next mapping hmapping =>
      obtain ⟨hpgoff, hs⟩ := Option.ite_none_right_eq_some.mp hs
      cases hs
      exact Or.inr (Or.inr (Or.inr (Or.inr (Or.inr (Or.inl ⟨mapping,
        List.mem_of_getElem? hmapping, pgoff, hpgoff, rfl⟩)))))
  | exit =>
    obtain ⟨⟨hpending, hmappings⟩, hs⟩ := Option.ite_none_right_eq_some.mp hs
    cases hs
    exact Or.inr (Or.inr (Or.inr (Or.inr (Or.inr (Or.inr (Or.inr ⟨hpending, hmappings, rfl⟩))))))

/-- In every run the regions add up until the module is unloaded. -/
theorem sound_step (h : Sound k) (hs : step k a = some k') :
    Sound k' ∧ k'.exited = false ∨ Unloaded k' := by
  obtain ⟨hlive, ⟨pid, cmd, size, env, k₁, hbusy, hioctl, rfl⟩ |
    ⟨pid, p, hcall, rfl | rfl⟩ | ⟨pid, p, hcall, rfl⟩ | ⟨vma, -, ⟨-, rfl⟩ | ⟨p, -, rfl⟩⟩ |
    ⟨m, rfl⟩ | ⟨mapping, -, pgoff, -, rfl⟩ | rfl | ⟨hpending, -, rfl⟩⟩ := step_cases hs
  · obtain ⟨size', rfl⟩ := memexpandIoctl_ok hioctl
    exact Or.inl ⟨sound_ioctl h hbusy hioctl, hlive⟩
  · exact Or.inl ⟨sound_copied h hcall, hlive⟩
  · exact Or.inl ⟨sound_notCopied h hcall, hlive⟩
  · exact Or.inl ⟨sound_clear h hcall, hlive⟩
  · exact Or.inl ⟨⟨h.calls, h.ledger, h.current⟩, hlive⟩
  · exact Or.inl ⟨⟨h.calls, h.ledger, h.current⟩, hlive⟩
  · exact Or.inl ⟨⟨h.calls, h.ledger, h.current⟩, hlive⟩
  · exact Or.inl ⟨⟨h.calls, h.ledger, h.current⟩, hlive⟩
  · exact Or.inl ⟨h, hlive⟩
  · exact Or.inr (unloaded_myExit h hpending)

/-! ### Page faults -/

/-- A mapping is made only of a region that a call has handed out. -/
def Undisturbed (k : Device) : Action → Prop
  | .mmap vma =>
      match memexpandMmap k vma with
      | none => k.exited = true
      | some (.error _) => True
      | some (.ok p) => k.exited = true ∨ p ∈ k.allocated
  | _ => True

instance (k : Device) : DecidablePred (Undisturbed k) := fun a => by
  cases a with
  | mmap vma =>
    simp only [Undisturbed]
    split <;> infer_instance
  | _ => exact instDecidableTrue

theorem undisturbed_of_ne (h : ∀ vma, a ≠ .mmap vma) : Undisturbed k a := by
  cases a with
  | mmap vma => exact absurd rfl (h vma)
  | ioctl | copyToUser | clear | munmap | fault | exit => trivial

/-- Every fault inside a mapping gets the page of its own region. -/
def Served (k : Device) : Prop :=
  k.dangled = false ∧ ∀ m ∈ k.mappings, ∀ pgoff : UInt64, pgoff.toNat * 4096 < m.length →
    memexpandVmFault k m.info pgoff = some (some ⟨m.info, pgoff.toNat⟩)

structure Mapped (k : Device) : Prop where
  sound : Sound k
  mapped : ∀ m ∈ k.mappings, m.info ∈ k.allocated ∧
    ∃ size, k.sizes[m.info]? = some size ∧ m.length ≤ size.toNat
  dangled : k.dangled = false

theorem Mapped.served (h : Mapped k) : Served k := by
  refine ⟨h.dangled, ?_⟩
  intro m hm pgoff hpgoff
  obtain ⟨hallocated, size, hsize, hlength⟩ := h.mapped m hm
  have hoffset : (pgoff <<< 12).toNat = pgoff.toNat * 4096 := by
    have hbound := size.toNat_lt
    rw [UInt64.toNat_shiftLeft, Nat.shiftLeft_eq]
    exact Nat.mod_eq_of_lt (by simpa using (hpgoff.trans_le hlength).trans hbound)
  have hinside : ¬ pgoff <<< 12 ≥ size := by
    rw [ge_iff_le, UInt64.le_iff_toNat_le, hoffset, Nat.not_le]
    exact hpgoff.trans_le hlength
  simp only [memexpandVmFault, Device.size?, if_neg (h.sound.not_freed hallocated), hsize,
    Option.map_some, if_neg hinside, hoffset, Nat.mul_div_cancel _ (show 0 < 4096 by decide)]

theorem memexpandMmap_ok (h : memexpandMmap k vma = some (.ok p)) :
    k.mmapInfo = some p ∧
      ∃ size, k.size? p = some size ∧ (vma.vmEnd - vma.vmStart).toNat ≤ size.toNat := by
  unfold memexpandMmap at h
  split at h
  · cases h
  · next q hq =>
    obtain ⟨size, hsize, hret⟩ := Option.map_eq_some_iff.mp h
    split at hret
    · cases hret
    · next hfits =>
      split at hret
      · cases hret
      · cases hret
        exact ⟨hq, size, hsize, UInt64.le_iff_toNat_le.mp (UInt64.not_lt.mp hfits)⟩

theorem Device.size?_eq_some {size : UInt64} (h : k.size? p = some size) :
    p ∉ k.freed ∧ k.sizes[p]? = some size := Option.ite_none_left_eq_some.mp h

/-- Running, or unloaded with no mapping left. -/
def Quiet (k : Device) : Prop :=
  (Mapped k ∧ k.exited = false) ∨ (k.exited = true ∧ k.mappings = [] ∧ k.dangled = false)

theorem Quiet.served (h : Quiet k) : Served k := by
  rcases h with ⟨hmapped, -⟩ | ⟨-, hnone, hdangled⟩
  · exact hmapped.served
  · refine ⟨hdangled, fun m hm => ?_⟩
    rw [hnone] at hm
    exact absurd hm List.not_mem_nil

theorem mapped_step (h : Mapped k) (hu : Undisturbed k a) (hs : step k a = some k') :
    Quiet k' := by
  have hsound := sound_step h.sound hs
  obtain ⟨hlive, ⟨pid, cmd, size, env, k₁, hbusy, hioctl, rfl⟩ |
    ⟨pid, p, hcall, rfl | rfl⟩ | ⟨pid, p, hcall, rfl⟩ |
    ⟨vma, rfl, ⟨hmmap, rfl⟩ | ⟨p, hmmap, rfl⟩⟩ |
    ⟨m, rfl⟩ | ⟨mapping, hmapping, pgoff, hpgoff, rfl⟩ | rfl | ⟨hpending, hnone, rfl⟩⟩ :=
      step_cases hs
  · obtain ⟨size', rfl⟩ := memexpandIoctl_ok hioctl
    refine Or.inl ⟨⟨sound_ioctl h.sound hbusy hioctl, ?_, h.dangled⟩, hlive⟩
    intro m hm
    obtain ⟨hallocated, size, hsize, hlength⟩ := h.mapped m hm
    exact ⟨hallocated, size, 
      (List.getElem?_append_left (List.getElem?_eq_some_iff.mp hsize).1).trans hsize, hlength⟩
  · refine Or.inl ⟨⟨sound_copied h.sound hcall, ?_, h.dangled⟩, hlive⟩
    exact fun m hm => ⟨List.mem_cons_of_mem _ (h.mapped m hm).1, (h.mapped m hm).2⟩
  · exact Or.inl ⟨⟨sound_notCopied h.sound hcall, h.mapped, h.dangled⟩, hlive⟩
  · exact Or.inl ⟨⟨sound_clear h.sound hcall, h.mapped, h.dangled⟩, hlive⟩
  · simp only [Undisturbed, hmmap] at hu
    exact absurd (hlive.symm.trans hu) Bool.false_ne_true
  · simp only [Undisturbed, hmmap] at hu
    have hallocated := hu.resolve_left (by rw [hlive]; exact Bool.false_ne_true)
    obtain ⟨-, size, hsize, hfits⟩ := memexpandMmap_ok hmmap
    refine Or.inl ⟨⟨⟨h.sound.calls, h.sound.ledger, h.sound.current⟩, ?_, h.dangled⟩, hlive⟩
    intro m hm
    rcases List.mem_append.mp hm with hold | hnew
    · exact h.mapped m hold
    · obtain rfl := List.mem_singleton.mp hnew
      exact ⟨hallocated, size, (Device.size?_eq_some hsize).2, hfits⟩
  · refine Or.inl ⟨⟨⟨h.sound.calls, h.sound.ledger, h.sound.current⟩, ?_, h.dangled⟩, hlive⟩
    exact fun m hm => h.mapped m (List.mem_of_mem_eraseIdx hm)
  · have hpage := h.served.2 mapping hmapping pgoff hpgoff
    refine Or.inl ⟨⟨⟨h.sound.calls, h.sound.ledger, h.sound.current⟩, h.mapped, ?_⟩, hlive⟩
    simp only [hpage, Option.isNone_some, Bool.or_false, h.dangled]
  · exact Or.inl ⟨h, hlive⟩
  · refine Or.inr ?_
    cases hmmap : k.mmapInfo with
    | none =>
      simp only [myExit, hmmap]
      exact ⟨trivial, hnone, h.dangled⟩
    | some q =>
      simp only [myExit, hmmap]
      exact ⟨trivial, hnone, h.dangled⟩

theorem quiet_step (h : Quiet k) (hu : Undisturbed k a) (hs : step k a = some k') :
    Quiet k' := by
  rcases h with ⟨hmapped, -⟩ | ⟨hexited, -, -⟩
  · exact mapped_step hmapped hu hs
  · unfold step at hs
    rw [if_pos hexited] at hs
    cases hs

theorem quiet_init : Quiet .init :=
  Or.inl ⟨⟨sound_init, fun _ hm => absurd hm List.not_mem_nil, rfl⟩, rfl⟩

/-! ### A mapping of a region whose call is not over -/

theorem Sound.call_eq (h : Sound k) (hpending : (pid, c) ∈ k.pending) :
    k.call pid = some c := by
  obtain ⟨before, after, hsplit⟩ := List.append_of_mem hpending
  refine List.lookup_eq_some_iff.mpr ⟨before, after, hsplit, ?_⟩
  intro x hx
  have hcalls := h.calls
  rw [hsplit, List.map_append, List.map_cons] at hcalls
  have hnot := (List.nodup_append.mp hcalls).2.2 x.1 (List.mem_map_of_mem hx) pid
    (List.mem_cons_self ..)
  rw [bne_iff_ne]
  exact Ne.symm hnot

theorem Sound.copying_of_current (h : Sound k) (hp : k.mmapInfo = some p)
    (hfreed : p ∉ k.freed) (hallocated : p ∉ k.allocated) :
    ∃ pid, k.call pid = some (.copying p) := by
  rcases h.mem_iff.mp (h.current p hp).1 with hmem | hmem | hmem
  · exact absurd hmem hallocated
  · exact absurd hmem hfreed
  · obtain ⟨⟨pid, c⟩, hpending, hcopies⟩ := List.mem_filterMap.mp hmem
    refine ⟨pid, ?_⟩
    cases c with
    | clearing q => cases hcopies
    | copying q =>
      cases hcopies
      exact h.call_eq hpending

/-- The copy fails, and the next fault reads what has been freed. -/
theorem disturbed_dangles (h : Sound k) (hlive : k.exited = false)
    (hu : ¬ Undisturbed k (.mmap vma)) :
    ∃ after k', (∀ a ∈ after, ∀ vma, a ≠ .mmap vma) ∧
      run step k (.mmap vma :: after) = some k' ∧ k'.dangled = true := by
  have hrunning : ¬ k.exited = true := by
    rw [hlive]
    exact Bool.false_ne_true
  cases hmmap : memexpandMmap k vma with
  | none =>
    refine ⟨[], { k with dangled := true }, fun _ ha => absurd ha List.not_mem_nil, ?_, rfl⟩
    simp only [run, step, if_neg hrunning, hmmap]
  | some ret =>
    cases ret with
    | error ret =>
      simp only [Undisturbed, hmmap, not_true_eq_false] at hu
    | ok p =>
      simp only [Undisturbed, hmmap, not_or] at hu
      obtain ⟨hp, size, hsize, -⟩ := memexpandMmap_ok hmmap
      obtain ⟨pid, hcall⟩ := h.copying_of_current hp (Device.size?_eq_some hsize).1 hu.2
      have hmmap' : step k (.mmap vma) =
          some { k with mappings := k.mappings ++ [⟨vma, p⟩] } := by
        simp only [step, if_neg hrunning, hmmap]
      have hcopy : step { k with mappings := k.mappings ++ [⟨vma, p⟩] } (.copyToUser pid false) =
          some { k.free p with
            pending := (pid, .clearing p) :: (k.endCall pid).pending
            mappings := k.mappings ++ [⟨vma, p⟩] } := by
        have hcall' : Device.call { k with mappings := k.mappings ++ [⟨vma, p⟩] } pid =
          some (.copying p) := hcall
        simp only [step, if_neg hrunning, hcall', Bool.false_eq_true, if_false]
        rfl
      have hlength : (0 : UInt64).toNat * 4096 < (vma.vmEnd - vma.vmStart).toNat := by
        have hlt := UInt64.lt_iff_toNat_lt.mp vma.start_lt_end
        rw [UInt64.toNat_sub_of_le _ _ (UInt64.le_of_lt vma.start_lt_end)]
        simpa using hlt
      refine ⟨[.copyToUser pid false, .fault k.mappings.length 0],
        { k.free p with
          pending := (pid, .clearing p) :: (k.endCall pid).pending
          mappings := k.mappings ++ [⟨vma, p⟩]
          dangled := true }, by simp, ?_, rfl⟩
      rw [run_cons_of_step hmmap', run_cons_of_step hcopy]
      simp only [run, step, Device.free, if_neg hrunning, List.getElem?_concat_length,
        Mapping.length, if_pos hlength, memexpandVmFault, Device.size?, List.mem_cons, true_or,
        if_true, Option.map_none, Option.isNone_none, Bool.or_true]

/-! ### What the module promises -/

/-- Where the regions are, while the module is loaded and once it is gone. -/
structure Accounts (k : Device) : Prop where
  freed_nodup : k.freed.Nodup
  running : k.exited = false →
    (k.allocated : Multiset Info) + k.freed + k.copying = Multiset.range k.sizes.length
  unloaded : k.exited = true →
    ∀ p < k.sizes.length, p ∉ k.freed ↔ p ∈ k.allocated ∧ k.mmapInfo ≠ some p

/-- **In every run no region is freed twice, each one has been handed out, is of a call that may
    still succeed or has been freed, and `my_exit` leaves allocated what was handed out and is
    no longer in `mmap_info`.** -/
theorem memexpand_accounts (acts : List Action) : Throughout step Accounts .init acts := by
  refine throughout_of_along (P := fun _ _ => True)
    (I := fun k => Sound k ∧ k.exited = false ∨ Unloaded k) ?_ ?_ (Or.inl ⟨sound_init, rfl⟩)
    (along_true _ _)
  · rintro k a k' (⟨hsound, -⟩ | hunloaded) - hs
    · exact sound_step hsound hs
    · unfold step at hs
      rw [if_pos hunloaded.exited] at hs
      cases hs
  · rintro k (⟨hsound, hlive⟩ | hunloaded)
    · refine ⟨hsound.freed_nodup, fun _ => hsound.ledger, fun hexited => ?_⟩
      exact absurd (hlive.symm.trans hexited) Bool.false_ne_true
    · refine ⟨hunloaded.freed_nodup, fun hlive => ?_, fun _ => hunloaded.left_iff⟩
      exact absurd (hlive.symm.trans hunloaded.exited) Bool.false_ne_true

/-- The second ALLOCATE of a process takes the place of the first, which nobody frees. -/
example : (run step .init [.ioctl 1 .allocate 1024 ⟨true, true, true⟩, .copyToUser 1 true,
    .ioctl 1 .allocate 5000 ⟨true, true, true⟩, .copyToUser 1 true, .exit]).map
      (fun k => (k.sizes, k.freed)) = some ([4096, 8192], [1]) := by decide

end Steps

end Lmalloc.Poc.Memexpand
