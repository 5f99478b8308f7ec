/-
  Lmalloc/Host/Machine.lean
  =========================
  **Processes, their address spaces, and the pages behind three kinds of arena.**

  `ka_create` gets the memory of an arena from `vmalloc`, `oka_create` from
  `vzalloc`, and `ua_create` from an anonymous `mmap`.  A process reaches it through
  a mapping: the first access to a page runs the fault handler of the driver, and
  the page stays in the page table until it is unmapped.  Neither DESTROY command
  touches the page table.

  Which free pages a new region consists of is the environment's choice.  `vzalloc`
  and an anonymous `mmap` clear them; `vmalloc` leaves in them what they held.  A
  cell of memory remembers the process that wrote it last, and the arena the process
  wrote it into.  An access that finds no page kills the process and is no step.
-/
import Mathlib
import Lmalloc.Karena.UserApi
import Lmalloc.OldKarena.Module
import Lmalloc.Library.Provenance

namespace Lmalloc.Host

open Lmalloc.Library Lmalloc.Karena

/-! ### Data -/

/-- A physical page. -/
abbrev Frame := ℕ

/-- The memory of an arena. -/
inductive Backing where
  | karena (r : Karena.Region)
  | okarena (r : OldKarena.Region)
  | anon (n : ℕ)
deriving DecidableEq, Repr

/-- What a mapping holds that is not one of `okarena`. -/
inductive Other where
  | karena (slot : Slot)
  | anon (n : ℕ)

abbrev Vma := OldKarena.Vma Other

/-- A page of an arena. -/
abbrev PageOf := Backing × ℕ

/-- Everything but the contents of the pages. -/
structure Control where
  karena : Kernel
  okarena : OldKarena.Module
  anons : ℕ                              -- how many anonymous mappings there were
  mm : Pid → List Vma                    -- in the order of the addresses
  pageTable : Pid → ℕ → Option PageOf    -- by the number of the virtual page
  frames : Backing → List Frame

def Control.boot : Control where
  karena := Kernel.boot
  okarena := OldKarena.Module.boot
  anons := 0
  mm _ := []
  pageTable _ _ := none
  frames _ := []

/-- A byte of physical memory. -/
abbrev Place := Frame × ℕ

abbrev Memory := Store Place UInt8 (Pid × Backing)

/-- A step of one process.  `pages` are the pages of the region the step obtains, if any;
    `arenaSz` is `arena_cache_aligned_sz()`, and `start` where `mmap` puts the mapping. -/
inductive Event where
  | kaOpen
  | kaIoctl (pid : Pid) (cmd : Cmd) (alloc : KaData) (env : Env) (pages : List Frame)
  | kaMmap (pid : Pid) (area : VmArea)
  | kaRelease (pid : Pid)
  | okaIoctl (pid : Pid) (cmd : OldKarena.Cmd) (arg : OldKarena.OkaData) (env : OldKarena.Env)
      (pages : List Frame)
  | okaMmap (pid : Pid) (area : VmArea)
  | uaCreate (pid : Pid) (contiguous : Bool) (arenaSz cap start : UInt64) (pages : List Frame)
  | munmap (pid : Pid) (start : UInt64)
  | read (pid : Pid) (addr : UInt64)
  | write (pid : Pid) (addr : UInt64) (v : UInt8)

namespace Control

/-! ### Address spaces -/

/-- The process has room for the mapping, which starts and ends at a page. -/
def Vacant (c : Control) (pid : Pid) (area : VmArea) : Prop :=
  area.vmStart % 4096 = 0 ∧ area.vmEnd % 4096 = 0 ∧
    ∀ vma ∈ c.mm pid, area.vmEnd ≤ vma.area.vmStart ∨ vma.area.vmEnd ≤ area.vmStart

instance (c : Control) (pid : Pid) (area : VmArea) : Decidable (c.Vacant pid area) :=
  inferInstanceAs (Decidable (_ ∧ _ ∧ _))

def addVma (c : Control) (pid : Pid) (vma : Vma) : Control :=
  let mm := (c.mm pid).orderedInsert (fun a b => a.area.vmStart ≤ b.area.vmStart) vma
  { c with mm := Function.update c.mm pid mm }

/-- `munmap` of the mapping that starts at `start`. -/
def munmap (c : Control) (pid : Pid) (start : UInt64) : Control :=
  let gone := (c.mm pid).filter fun vma => vma.area.vmStart = start
  let covered (vpn : ℕ) := gone.any fun vma =>
    decide (vma.area.vmStart.toNat / 4096 ≤ vpn ∧ vpn < vma.area.vmEnd.toNat / 4096)
  { c with
    mm := Function.update c.mm pid ((c.mm pid).filter fun vma => vma.area.vmStart ≠ start)
    pageTable := Function.update c.pageTable pid fun vpn =>
      if covered vpn then none else c.pageTable pid vpn }

/-! ### Pages -/

/-- The page the driver of a mapping gives for a page offset. -/
def fault (c : Control) (vma : Vma) (pgoff : UInt64) : Option PageOf :=
  match vma.privateData with
  | .foreign (.karena slot) =>
      (karenaVmFault c.karena slot pgoff).map fun page => (.karena page.region, page.number)
  | .mmapInfo info =>
      (OldKarena.karenaVmFault c.okarena info pgoff).join.map fun page =>
        (.okarena page.region, page.number)
  | .foreign (.anon n) => some (.anon n, pgoff.toNat)

/-- The page a process finds at an address. -/
def pageAt (c : Control) (pid : Pid) (addr : UInt64) : Option PageOf :=
  match c.pageTable pid (addr.toNat / 4096) with
  | some page => some page
  | none =>
      ((c.mm pid).find? fun vma => addr < vma.area.vmEnd).bind fun vma =>
        if vma.area.vmStart ≤ addr then
          c.fault vma (vma.area.vmPgoff + ((addr - vma.area.vmStart) >>> 12))
        else none

/-- The byte of physical memory a process finds at an address. -/
def placeAt (c : Control) (pid : Pid) (addr : UInt64) : Option (Backing × Place) :=
  (c.pageAt pid addr).bind fun page =>
    ((c.frames page.1)[page.2]?).map fun frame => (page.1, frame, addr.toNat % 4096)

/-- The page table after an access. -/
def touch (c : Control) (pid : Pid) (addr : UInt64) : Control :=
  let pages := Function.update (c.pageTable pid) (addr.toNat / 4096) (c.pageAt pid addr)
  { c with pageTable := Function.update c.pageTable pid pages }

def clearPages (pages : List Frame) : Update Place UInt8 (Pid × Backing) :=
  .clear fun place => decide (place.1 ∈ pages)

/-- The memory of size `size?`, if any has been obtained, consists of `pages`. -/
def obtain (c : Control) (b : Backing) (size? : Option UInt64) (pages : List Frame)
    (zeroed : Bool) : Option (Control × Update Place UInt8 (Pid × Backing)) :=
  match size? with
  | none => some (c, .keep)
  | some size =>
      if pages.length = size.toNat / 4096 then
        some ({ c with frames := Function.update c.frames b pages },
          if zeroed then clearPages pages else .keep)
      else none

/-! ### Steps -/

/-- `mmap` of a device: `driver` is the answer of its `karena_mmap`. -/
def mapDevice (c : Control) (pid : Pid) (area : VmArea)
    (driver : Option (Control × Option (OldKarena.PrivateData Other))) : Option Control :=
  if c.Vacant pid area then
    driver.map fun (c, data) => data.elim c fun data => c.addVma pid ⟨area, data⟩
  else none

def ioctlKarena (c : Control) (pid : Pid) (cmd : Cmd) (alloc : KaData) (env : Env)
    (pages : List Frame) : Option (Control × Update Place UInt8 (Pid × Backing)) :=
  (karenaIoctl c.karena pid cmd alloc env).bind fun (_, k, _) =>
    let r := c.karena.regions.length
    { c with karena := k }.obtain (.karena r) k.regions[r]? pages false

def ioctlOkarena (c : Control) (pid : Pid) (cmd : OldKarena.Cmd) (arg : OldKarena.OkaData)
    (env : OldKarena.Env) (pages : List Frame) :
    Option (Control × Update Place UInt8 (Pid × Backing)) :=
  (OldKarena.karenaIoctl c.okarena (c.mm pid) cmd arg env).bind fun (_, k, mm, _) =>
    let r := c.okarena.regions.length
    { c with okarena := k, mm := Function.update c.mm pid mm }.obtain
      (.okarena r) k.regions[r]? pages true

/-- The anonymous `mmap` of `ua_create`; a length that cannot be mapped makes it fail. -/
def uaCreate (c : Control) (pid : Pid) (contiguous : Bool) (arenaSz cap start : UInt64)
    (pages : List Frame) : Option (Control × Update Place UInt8 (Pid × Backing)) :=
  let allocationSz := if contiguous then arenaSz + cap else cap
  match mapArea start allocationSz with
  | none => some (c, .keep)
  | some area =>
      if c.Vacant pid area then
        { c.addVma pid ⟨area, .foreign (.anon c.anons)⟩ with anons := c.anons + 1 }.obtain
          (.anon c.anons) (some (area.vmEnd - area.vmStart)) pages true
      else none

def next (c : Control) : Event → Option (Control × Update Place UInt8 (Pid × Backing))
  | .kaOpen => some ({ c with karena := devOpen c.karena }, .keep)
  | .kaIoctl pid cmd alloc env pages => c.ioctlKarena pid cmd alloc env pages
  | .kaMmap pid area =>
      let driver := (karenaMmap c.karena area).map fun (_, k, slot) =>
        ({ c with karena := k }, slot.map fun i => .foreign (.karena i))
      (c.mapDevice pid area driver).map fun c => (c, .keep)
  | .kaRelease pid => some ({ c with karena := devRelease c.karena pid }, .keep)
  | .okaIoctl pid cmd arg env pages => c.ioctlOkarena pid cmd arg env pages
  | .okaMmap pid area =>
      let driver := (OldKarena.karenaMmap c.okarena area).map fun (_, data) => (c, data)
      (c.mapDevice pid area driver).map fun c => (c, .keep)
  | .uaCreate pid contiguous arenaSz cap start pages =>
      c.uaCreate pid contiguous arenaSz cap start pages
  | .munmap pid start => some (c.munmap pid start, .keep)
  | .read pid addr => (c.placeAt pid addr).map fun _ => (c.touch pid addr, .keep)
  | .write pid addr v =>
      (c.placeAt pid addr).map fun (b, place) => (c.touch pid addr, .write place v (pid, b))

end Control

abbrev State := Control × Memory

abbrev step : State → Event → Option State := storeStep Control.next

/-- What a process reads at an address, and from which arena. -/
def State.read (s : State) (pid : Pid) (addr : UInt64) : Option (Backing × UInt8) :=
  (s.1.placeAt pid addr).map fun (b, place) => (b, (s.2 place).value)

/-! ### Fresh and recycled arenas -/

/-- Memory that has been given back: freed by its module or unmapped. -/
def Control.Gone (c : Control) : Backing → Prop
  | .karena r => r ∈ c.karena.vfreed
  | .okarena r => r ∈ c.okarena.vfreed
  | .anon n => ∀ pid, ∀ vma ∈ c.mm pid, ∀ data, vma.privateData = .foreign data → data ≠ .anon n

/-- The process and the memory of the arena that a successful creation makes. -/
def Control.fresh (c : Control) : Event → Option (Pid × Backing)
  | .kaIoctl pid .create alloc env _ =>
      (karenaIoctl c.karena pid .create alloc env).bind fun (ret, _, _) =>
        if ret = 0 then some (pid, .karena c.karena.regions.length) else none
  | .okaIoctl pid .create arg env _ =>
      (OldKarena.karenaIoctl c.okarena (c.mm pid) .create arg env).bind fun (ret, _, _, _) =>
        if ret = 0 then some (pid, .okarena c.okarena.regions.length) else none
  | .uaCreate pid contiguous arenaSz cap start _ =>
      (mapArea start (if contiguous then arenaSz + cap else cap)).map fun _ => (pid, .anon c.anons)
  | _ => none

end Lmalloc.Host
