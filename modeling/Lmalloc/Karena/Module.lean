/-
  Lmalloc/Karena/Module.lean
  ==========================
  **The kernel module `karena.c`.**

  The module owns a static table of 100 slots and a device-global
  `current_arena_index`.  Its entry points are `dev_open`, `karena_ioctl` with
  ten commands, `karena_mmap`, the page-fault handler and `dev_release`.  Each is
  a function of the module state here; what the environment decides (whether a
  user copy or `vmalloc` succeeds) is an argument.

  An access to the table outside its 100 slots has no defined behaviour in C.
  Such a call has no result: `karenaIoctl` and `karenaMmap` return `none`.

  A region of kernel memory is named by its number in the list of all regions
  `vmalloc` has returned, so every `vmalloc` is fresh; `vfreed` and `kfreed` log
  what was passed to `vfree` and `kfree`.
-/
import Mathlib.Data.Fin.Basic
import Mathlib.Logic.Function.Basic

namespace Lmalloc.Karena

/-! ### Data -/

abbrev Pid := Int

/-- A region returned by `vmalloc`. -/
abbrev Region := ℕ

/-- An index into `karenas`. -/
abbrev Slot := Fin 100

/-- `struct KArena`; a `NULL` `kaddr` is `none`. -/
structure KArena where
  size : UInt64
  cur : UInt64
  uaddr : UInt64
  bootstrapped : Bool
  kaddr : Option Region
  ownerPid : Pid
deriving DecidableEq, Repr

abbrev SlotTable := Slot → KArena

structure KaData where
  size : UInt64
  arena : UInt64
deriving DecidableEq, Repr

/-- The ioctl commands; any other number is `other`. -/
inductive Cmd where
  | create | alloc | seek | pop | pos | reserve | destroy | size | bootstrap | base
  | other (n : UInt32)
deriving DecidableEq, Repr

/-- The module state, with the memory it has obtained and given back. -/
structure Kernel where
  karenas : SlotTable
  currentArenaIndex : UInt64
  regions : List UInt64     -- the size of every region so far
  vfreed : List Region
  kfreed : List Slot

/-- What the environment answers during one ioctl. -/
structure Env where
  copyFromUser : Bool
  vmalloc : Bool
  copyToUser : Bool
deriving DecidableEq, Repr

/-- Every call succeeds. -/
def Env.ok : Env := ⟨true, true, true⟩

/-- The table and the device data as the loader leaves them: all zero. -/
def Kernel.boot : Kernel where
  karenas := fun _ => ⟨0, 0, 0, false, none, 0⟩
  currentArenaIndex := 0
  regions := []
  vfreed := []
  kfreed := []

def eFAULT : Int := 14
def eNOMEM : Int := 12
def eINVAL : Int := 22
def eNOTTY : Int := 25

/-- `PAGE_ALIGN`: round up to a multiple of 4096, wrapping. -/
def pageAlign (x : UInt64) : UInt64 := (x + 4095) &&& ~~~4095

def slot? (i : UInt64) : Option Slot :=
  if h : i.toNat < 100 then some ⟨i.toNat, h⟩ else none

/-- The index of a slot as it is written into `ka_data`. -/
def slotIndex (i : Slot) : UInt64 := UInt64.ofNat i.val

def Kernel.setSlot (k : Kernel) (i : Slot) (a : KArena) : Kernel :=
  { k with karenas := Function.update k.karenas i a }

/-! ### Searching a slot -/

/-- The scan of `find_open_slot` with `left` slots still to look at. -/
def openSlotLoop (t : SlotTable) : (left : ℕ) → left ≤ 100 → Option Slot
  | 0, _ => none
  | left + 1, h =>
      let index : Slot := ⟨100 - (left + 1), by omega⟩
      if (t index).uaddr ≠ 0 then openSlotLoop t left (by omega) else some index

/-- The first slot whose `uaddr` is 0. -/
def openSlot (t : SlotTable) : Option Slot := openSlotLoop t 100 (Nat.le_refl 100)

/-- `find_open_slot` marks the slot it returns; the index `-1` is `none`. -/
def findOpenSlot (k : Kernel) : Option (Slot × Kernel) :=
  (openSlot k.karenas).map fun i => (i, k.setSlot i { k.karenas i with uaddr := 1 })

/-! ### The ioctl handlers

A handler returns the error code, the new state and the new `ka_data`. -/

def vmalloc (k : Kernel) (size : UInt64) (succeeds : Bool) : Option Region × Kernel :=
  if succeeds then (some k.regions.length, { k with regions := k.regions ++ [size] })
  else (none, k)

/-- The error paths call `kfree` on the slot, which is static memory. -/
def handleArenaCreate (k : Kernel) (pid : Pid) (alloc : KaData) (env : Env) :
    Int × Kernel × KaData :=
  match findOpenSlot k with
  | none => (-eFAULT, k, alloc)
  | some (index, k) =>
      let size := pageAlign alloc.size
      let info := { k.karenas index with
        uaddr := 0, bootstrapped := false, ownerPid := pid, cur := 0, size := size }
      let k := { k.setSlot index info with currentArenaIndex := slotIndex index }
      let alloc := { alloc with arena := slotIndex index }
      if size = 0 then (-eINVAL, { k with kfreed := k.kfreed ++ [index] }, alloc)
      else
        let alloc := { alloc with size := size }
        match vmalloc k size env.vmalloc with
        | (none, k) =>
            (-eNOMEM,
              { k.setSlot index { info with kaddr := none } with kfreed := k.kfreed ++ [index] },
              alloc)
        | (some region, k) => (0, k.setSlot index { info with kaddr := some region }, alloc)

def handleArenaAlloc (arena : KArena) (alloc : KaData) : Int × KArena × KaData :=
  if arena.cur + alloc.size ≤ arena.size then
    (0, { arena with cur := arena.cur + alloc.size },
      { alloc with arena := arena.uaddr + arena.cur })
  else (-eNOMEM, arena, alloc)

def handleArenaSeek (arena : KArena) (alloc : KaData) : Int × KArena × KaData :=
  (0, { arena with cur := alloc.size }, { alloc with arena := arena.uaddr + alloc.size })

def handleArenaPop (arena : KArena) (alloc : KaData) : Int × KArena × KaData :=
  if arena.cur < alloc.size then (-eFAULT, arena, alloc)
  else (0, { arena with cur := arena.cur - alloc.size }, alloc)

def handleArenaPos (arena : KArena) (alloc : KaData) : Int × KArena × KaData :=
  (0, arena, { alloc with size := arena.cur })

def handleArenaReserve (arena : KArena) (alloc : KaData) : Int × KArena × KaData :=
  if arena.size < arena.cur + alloc.size then
    (0, arena, { alloc with size := arena.size - arena.cur })
  else (0, { arena with cur := arena.cur + alloc.size }, alloc)

def handleArenaSize (arena : KArena) (alloc : KaData) : Int × KArena × KaData :=
  (0, arena, { alloc with size := arena.size })

def handleArenaBase (arena : KArena) (alloc : KaData) : Int × KArena × KaData :=
  (0, arena, { alloc with arena := arena.uaddr })

/-- `kaddr` keeps its value after the `vfree`. -/
def handleArenaDestroy (k : Kernel) (i : Slot) (alloc : KaData) : Int × Kernel × KaData :=
  let arena := k.karenas i
  let cleared := { arena with uaddr := 0, cur := 0, size := 0, ownerPid := 0 }
  if arena.bootstrapped then
    (0, k.setSlot i { cleared with bootstrapped := false }, { alloc with size := 0 })
  else
    (0, { k.setSlot i cleared with vfreed := k.vfreed ++ arena.kaddr.toList },
      { alloc with size := arena.size })

/-- The cursor of the parent has already moved when the slot search fails. -/
def handleArenaBootstrap (k : Kernel) (i : Slot) (alloc : KaData) : Int × Kernel × KaData :=
  let arena := k.karenas i
  if arena.size - arena.cur < alloc.size then (-eFAULT, k, alloc)
  else
    let addr := arena.uaddr + arena.cur
    let k := k.setSlot i { arena with cur := arena.cur + alloc.size }
    match findOpenSlot k with
    | none => (-eFAULT, k, alloc)
    | some (index, k) =>
        let child : KArena :=
          { size := alloc.size, cur := 0, uaddr := addr, bootstrapped := true,
            kaddr := (k.karenas i).kaddr, ownerPid := (k.karenas i).ownerPid }
        (0, k.setSlot index child, { alloc with arena := slotIndex index })

/-- Run a handler that touches one slot only. -/
def onSlot (k : Kernel) (i : Slot) (alloc : KaData)
    (handler : KArena → KaData → Int × KArena × KaData) : Int × Kernel × KaData :=
  let r := handler (k.karenas i) alloc
  (r.1, k.setSlot i r.2.1, r.2.2)

/-- The end of `karena_ioctl`: a failed command and `POP` and `DESTROY` copy
    nothing back to the user. -/
def copyBack (cmd : Cmd) (env : Env) (r : Int × Kernel × KaData) :
    Int × Kernel × Option KaData :=
  if r.1 ≠ 0 then (r.1, r.2.1, none)
  else if cmd ≠ .pop ∧ cmd ≠ .destroy then
    if env.copyToUser then (0, r.2.1, some r.2.2) else (-eFAULT, r.2.1, none)
  else (0, r.2.1, none)

/-- `karena_ioctl`: the return value, the state, and the `ka_data` the user reads
    back, if any is written. -/
def karenaIoctl (k : Kernel) (pid : Pid) (cmd : Cmd) (alloc : KaData) (env : Env) :
    Option (Int × Kernel × Option KaData) :=
  let withSlot (run : Slot → Int × Kernel × KaData) :=
    (slot? alloc.arena).map fun i => copyBack cmd env (run i)
  if env.copyFromUser = false then some (-eFAULT, k, none)
  else match cmd with
    | .create => some (copyBack cmd env (handleArenaCreate k pid alloc env))
    | .alloc => withSlot fun i => onSlot k i alloc handleArenaAlloc
    | .seek => withSlot fun i => onSlot k i alloc handleArenaSeek
    | .pop => withSlot fun i => onSlot k i alloc handleArenaPop
    | .pos => withSlot fun i => onSlot k i alloc handleArenaPos
    | .reserve => withSlot fun i => onSlot k i alloc handleArenaReserve
    | .destroy => withSlot fun i => handleArenaDestroy k i alloc
    | .size => withSlot fun i => onSlot k i alloc handleArenaSize
    | .bootstrap => withSlot fun i => handleArenaBootstrap k i alloc
    | .base => withSlot fun i => onSlot k i alloc handleArenaBase
    | .other _ => some (copyBack cmd env (-eNOTTY, k, alloc))

/-! ### Mapping, faulting, opening and releasing -/

/-- The part of a `vm_area_struct` the module reads.  The address `mmap` chooses
    is never 0 and a mapping is never empty. -/
structure VmArea where
  vmStart : UInt64
  vmEnd : UInt64
  vmPgoff : UInt64
  start_pos : 0 < vmStart
  start_lt_end : vmStart < vmEnd
deriving DecidableEq, Repr

/-- `karena_mmap`; on success the slot becomes the `vm_private_data`. -/
def karenaMmap (k : Kernel) (vma : VmArea) : Option (Int × Kernel × Option Slot) :=
  (slot? k.currentArenaIndex).map fun i =>
    let arena := k.karenas i
    if arena.uaddr ≠ 0 then (-eINVAL, k, none)
    else if vma.vmEnd - vma.vmStart > arena.size then (-eINVAL, k, none)
    else if vma.vmPgoff ≠ 0 then (-eINVAL, k, none)
    else (0, k.setSlot i { arena with uaddr := vma.vmStart }, some i)

structure Page where
  region : Region
  number : ℕ
deriving DecidableEq, Repr

/-- `vmalloc_to_page(kaddr + offset)`: a page of the region while it is allocated
    and the offset lies inside it. -/
def vmallocToPage (k : Kernel) (kaddr : Option Region) (offset : UInt64) : Option Page :=
  kaddr.bind fun r =>
    (k.regions[r]?).bind fun size =>
      if r ∉ k.vfreed ∧ offset < size then some ⟨r, offset.toNat / 4096⟩ else none

/-- `karena_vm_fault` on a mapping whose private data is slot `i`; `none` is
    `VM_FAULT_SIGBUS`. -/
def karenaVmFault (k : Kernel) (i : Slot) (pgoff : UInt64) : Option Page :=
  let arena := k.karenas i
  let offset := pgoff <<< 12
  if offset ≥ arena.size then none else vmallocToPage k arena.kaddr offset

def devOpen (k : Kernel) : Kernel := { k with currentArenaIndex := -1 }

/-- The body of the loop of `dev_release` for one slot.  A bootstrapped slot makes
    the function return, which the flag says. -/
def releaseSlot (k : Kernel) (pid : Pid) (i : Slot) : Kernel × Bool :=
  let arena := k.karenas i
  if arena.uaddr ≠ 0 ∧ arena.ownerPid = pid then
    let cleared := { arena with uaddr := 0, cur := 0, size := 0, ownerPid := 0 }
    if arena.bootstrapped then (k.setSlot i { cleared with bootstrapped := false }, true)
    else
      ({ k.setSlot i { cleared with kaddr := none } with
        vfreed := k.vfreed ++ arena.kaddr.toList }, false)
  else (k, false)

/-- The loop of `dev_release` with `left` slots still to visit. -/
def releaseLoop (k : Kernel) (pid : Pid) : (left : ℕ) → left ≤ 100 → Kernel
  | 0, _ => k
  | left + 1, h =>
      let r := releaseSlot k pid ⟨100 - (left + 1), by omega⟩
      if r.2 then r.1 else releaseLoop r.1 pid left (by omega)

def devRelease (k : Kernel) (pid : Pid) : Kernel := releaseLoop k pid 100 (Nat.le_refl 100)

end Lmalloc.Karena
