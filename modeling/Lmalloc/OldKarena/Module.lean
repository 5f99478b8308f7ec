/-
  Lmalloc/OldKarena/Module.lean
  =============================
  **The kernel module `okarena.c`.**

  An arena is a `struct mmap_info` and a region of `vzalloc`.  CREATE leaves the
  new one in the device-global `karena.mmap_info`, `karena_mmap` hands that pointer
  to the mapping, and all other commands find the arena again through the mapping
  that `find_vma` returns for an address of the user.

  Some accesses have no defined behaviour in C: through a `NULL` mapping, through a
  private pointer that is `NULL` or another driver's, and to a `struct mmap_info`
  that has been freed.  Such a call has no result.  Objects of `kzalloc` and regions
  of `vzalloc` are named by their number, so every one is fresh.
-/
import Lmalloc.Karena.Module

namespace Lmalloc.OldKarena

open Lmalloc.Karena (VmArea Page pageAlign eFAULT eNOMEM eINVAL eNOTTY)

/-! ### Data -/

/-- A region returned by `vzalloc`. -/
abbrev Region := ℕ

/-- An object returned by `kzalloc`. -/
abbrev InfoPtr := ℕ

structure MmapInfo where
  size : UInt64
  cur : UInt64
  data : Option Region
deriving DecidableEq, Repr

structure OkaData where
  addr : UInt64
  size : UInt64
deriving DecidableEq, Repr

/-- The ioctl commands; any other number is `other`. -/
inductive Cmd where
  | create | alloc | seek | pop | pos | reserve | destroy | size
  | other (n : UInt32)
deriving DecidableEq, Repr

structure Module where
  mmapInfo : Option InfoPtr    -- `karena.mmap_info`
  infos : List MmapInfo        -- every object so far
  kfreed : List InfoPtr
  regions : List UInt64        -- the size of every region so far
  vfreed : List Region

def Module.boot : Module := ⟨none, [], [], [], []⟩

/-- What the environment answers during one ioctl. -/
structure Env where
  kzalloc : Bool
  copyFromUser : Bool
  vzalloc : Bool
  copyToUser : Bool
deriving DecidableEq, Repr

/-- Every call succeeds. -/
def Env.ok : Env := ⟨true, true, true, true⟩

/-- `vm_private_data`; what it is for another driver is none of the module's business. -/
inductive PrivateData (δ : Type*) where
  | mmapInfo (info : Option InfoPtr)
  | foreign (data : δ)

structure Vma (δ : Type*) where
  area : VmArea
  privateData : PrivateData δ

variable {δ : Type*}

/-- The object behind a pointer while it is allocated. -/
def Module.info? (k : Module) (p : InfoPtr) : Option MmapInfo :=
  if p ∈ k.kfreed then none else k.infos[p]?

def Module.setInfo (k : Module) (p : InfoPtr) (info : MmapInfo) : Module :=
  { k with infos := k.infos.set p info }

/-! ### The ioctl handlers -/

/-- The first mapping of an address space that ends above the address. -/
def findVma (mm : List (Vma δ)) (addr : UInt64) : Option ℕ :=
  mm.findIdx? fun vma => addr < vma.area.vmEnd

/-- `none` is `NULL`. -/
def getAllocAndFindVma (mm : List (Vma δ)) (alloc : OkaData) (env : Env) : Option ℕ :=
  if env.copyFromUser then findVma mm alloc.addr else none

/-- `vma->vm_private_data`, dereferenced as a `struct mmap_info`. -/
def vmaInfo (k : Module) (mm : List (Vma δ)) (alloc : OkaData) (env : Env) :
    Option (ℕ × InfoPtr × MmapInfo) :=
  (getAllocAndFindVma mm alloc env).bind fun i =>
    match (mm[i]?).map Vma.privateData with
    | some (.mmapInfo (some p)) => (k.info? p).map fun info => (i, p, info)
    | _ => none

/-- An object whose copy from the user fails is not freed. -/
def handleCreate (k : Module) (arg : OkaData) (env : Env) : Int × Module × Option OkaData :=
  if env.kzalloc = false then (-eNOMEM, k, none)
  else
    let p := k.infos.length
    let size := pageAlign arg.size
    let allocated := { k with infos := k.infos ++ [⟨0, 0, none⟩] }
    let failed := { allocated with kfreed := k.kfreed ++ [p] }
    if env.copyFromUser = false then (-eFAULT, allocated, none)
    else if size = 0 then (-eINVAL, failed, none)
    else if env.vzalloc = false then (-eNOMEM, failed, none)
    else
      let region := k.regions.length
      let created := { k with
        mmapInfo := some p
        infos := k.infos ++ [⟨size, 0, some region⟩]
        regions := k.regions ++ [size] }
      if env.copyToUser = false then
        (-eFAULT, { created with
          mmapInfo := none
          vfreed := k.vfreed ++ [region]
          kfreed := k.kfreed ++ [p] }, none)
      else (0, created, some { arg with size := size })

/-- There is no check against the size of the arena. -/
def handleAlloc (info : MmapInfo) (alloc : OkaData) : Int × MmapInfo × OkaData :=
  (0, { info with cur := info.cur + alloc.size }, { alloc with addr := info.cur + alloc.addr })

def handleSeek (info : MmapInfo) (alloc : OkaData) : Int × MmapInfo × OkaData :=
  (0, { info with cur := alloc.size }, { alloc with addr := alloc.addr + alloc.size })

def handlePop (info : MmapInfo) (alloc : OkaData) : Int × MmapInfo × OkaData :=
  if info.cur < alloc.size then (-eFAULT, info, alloc)
  else (0, { info with cur := info.cur - alloc.size }, alloc)

def handlePos (info : MmapInfo) (alloc : OkaData) : Int × MmapInfo × OkaData :=
  (0, info, { alloc with size := info.cur })

def handleReserve (info : MmapInfo) (alloc : OkaData) : Int × MmapInfo × OkaData :=
  if info.size < info.cur + alloc.size then
    (0, info, { alloc with size := info.size - info.cur })
  else (0, { info with cur := info.cur + alloc.size }, alloc)

def handleSize (info : MmapInfo) (alloc : OkaData) : Int × MmapInfo × OkaData :=
  (0, info, { alloc with size := info.size })

def handleDestroy (k : Module) (mm : List (Vma δ)) (i : ℕ) (p : InfoPtr) (info : MmapInfo) :
    Module × List (Vma δ) :=
  ({ k with vfreed := k.vfreed ++ info.data.toList, kfreed := k.kfreed ++ [p] },
    mm.modify i fun vma => { vma with privateData := .mmapInfo none })

/-- The end of a command on an arena; POP copies nothing back. -/
def copyBack (cmd : Cmd) (env : Env) (r : Int × OkaData) : Int × Option OkaData :=
  if r.1 ≠ 0 then (r.1, none)
  else if cmd = .pop then (0, none)
  else if env.copyToUser then (0, some r.2)
  else (-eFAULT, none)

/-- `karena_ioctl` of a process with the address space `mm`: the return value, the module,
    the address space, and what the user reads back, if anything is written. -/
def karenaIoctl (k : Module) (mm : List (Vma δ)) (cmd : Cmd) (arg : OkaData) (env : Env) :
    Option (Int × Module × List (Vma δ) × Option OkaData) :=
  let withInfo (handler : MmapInfo → OkaData → Int × MmapInfo × OkaData) :=
    (vmaInfo k mm arg env).map fun (_, p, info) =>
      let (ret, info, alloc) := handler info arg
      let (ret, out) := copyBack cmd env (ret, alloc)
      (ret, k.setInfo p info, mm, out)
  match cmd with
  | .create =>
      let (ret, k, out) := handleCreate k arg env
      some (ret, k, mm, out)
  | .alloc => withInfo handleAlloc
  | .seek => withInfo handleSeek
  | .pop => withInfo handlePop
  | .pos => withInfo handlePos
  | .reserve => withInfo handleReserve
  | .size => withInfo handleSize
  | .destroy =>
      (vmaInfo k mm arg env).map fun (i, p, info) =>
        let (k, mm) := handleDestroy k mm i p info
        (0, k, mm, none)
  | .other _ => some (-eNOTTY, k, mm, none)

/-! ### Mapping and faulting -/

/-- `karena_mmap`: on success the mapping gets the pointer in `karena.mmap_info`. -/
def karenaMmap (k : Module) (area : VmArea) : Option (Int × Option (PrivateData δ)) :=
  match k.mmapInfo with
  | none => some (-eINVAL, none)
  | some p =>
      (k.info? p).map fun info =>
        if area.vmEnd - area.vmStart > info.size then (-eINVAL, none)
        else if area.vmPgoff ≠ 0 then (-eINVAL, none)
        else (0, some (.mmapInfo (some p)))

def vmallocToPage (k : Module) (data : Option Region) (offset : UInt64) : Option Page :=
  data.bind fun r =>
    (k.regions[r]?).bind fun size =>
      if r ∉ k.vfreed ∧ offset < size then some ⟨r, offset.toNat / 4096⟩ else none

/-- `karena_vm_fault` on a mapping with the private pointer `info`; the page `none` is
    `VM_FAULT_SIGBUS`. -/
def karenaVmFault (k : Module) (info : Option InfoPtr) (pgoff : UInt64) : Option (Option Page) :=
  match info with
  | none => some none
  | some p =>
      (k.info? p).map fun info =>
        let offset := pgoff <<< 12
        if offset ≥ info.size then none else vmallocToPage k info.data offset

/-! ### What the ioctls do to the regions -/

theorem create_regions (k : Module) (arg : OkaData) (env : Env) :
    (handleCreate k arg env).2.1.regions = k.regions ++ [pageAlign arg.size] ∨
      (handleCreate k arg env).2.1.regions = k.regions ∧ (handleCreate k arg env).1 ≠ 0 := by
  have hnomem : -eNOMEM ≠ 0 := by decide
  have hfault : -eFAULT ≠ 0 := by decide
  have hinval : -eINVAL ≠ 0 := by decide
  unfold handleCreate
  split
  · exact Or.inr ⟨rfl, hnomem⟩
  · dsimp only
    split
    · exact Or.inr ⟨rfl, hfault⟩
    · split
      · exact Or.inr ⟨rfl, hinval⟩
      · split
        · exact Or.inr ⟨rfl, hnomem⟩
        · split
          · exact Or.inl rfl
          · exact Or.inl rfl

/-- **Only a CREATE obtains a region**, and one that returns 0 does. -/
theorem ioctl_regions {k k' : Module} {mm mm' : List (Vma δ)} {cmd : Cmd} {arg : OkaData}
    {env : Env} {ret : Int} {out : Option OkaData}
    (h : karenaIoctl k mm cmd arg env = some (ret, k', mm', out)) :
    k'.regions = k.regions ++ [pageAlign arg.size] ∨
      k'.regions = k.regions ∧ (cmd = .create → ret ≠ 0) := by
  cases cmd with
  | create =>
    simp only [karenaIoctl, Option.some.injEq, Prod.mk.injEq] at h
    obtain ⟨rfl, rfl, -⟩ := h
    exact (create_regions k arg env).imp_right fun hr => ⟨hr.1, fun _ => hr.2⟩
  | other n =>
    cases h
    exact Or.inr ⟨rfl, fun h => (by cases h)⟩
  | alloc | seek | pop | pos | reserve | size | destroy =>
    simp only [karenaIoctl, Option.map_eq_some_iff] at h
    obtain ⟨_, _, heq⟩ := h
    cases heq
    exact Or.inr ⟨rfl, fun h => (by cases h)⟩

end Lmalloc.OldKarena
