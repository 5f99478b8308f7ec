/-
  Lmalloc/Karena/UserApi.lean
  ===========================
  **The user-space side of karena, `allocators/karena.c`.**

  A process reaches the module through one static file descriptor.  Every
  `ka_*` function fills a `struct ka_data`, makes one ioctl and reads the struct
  back; `ka_create` makes two calls, the CREATE ioctl and the `mmap`.  A `KArena *`
  is the index of a slot, so the handle of slot 0 is the null pointer.

  What the operating system decides is an argument: whether `open` succeeds,
  where `mmap` puts a mapping, and whether a `close` drops the last reference to
  the file, in which case `dev_release` runs.
-/
import Lmalloc.Karena.System

namespace Lmalloc.Karena

/-- The static `fd`: still 0, a live descriptor, or a value that is not one. -/
inductive Fd where
  | zero | live | bad
deriving DecidableEq, Repr

structure Client where
  world : World
  pid : Pid
  fd : Fd

/-- What the system answers during `ka_create`; `addr` is the address `mmap` picks. -/
structure Os where
  openOk : Bool
  env : Env
  addr : UInt64
  lastRef : Bool

/-- `ioctl(fd, cmd, &alloc)`: the return value and the struct as the call leaves
    it. -/
def Client.ioctl (c : Client) (cmd : Cmd) (alloc : KaData) (env : Env) :
    Option (Int × KaData × Client) :=
  match c.fd with
  | .live =>
      (karenaIoctl c.world.kernel c.pid cmd alloc env).map fun r =>
        (if r.1 = 0 then 0 else -1, r.2.2.getD alloc,
          { c with world := { c.world with kernel := r.2.1 } })
  | .zero | .bad => some (-1, alloc, c)

/-- The area of a mapping of `len` bytes at `addr`, rounded up to pages; none is
    mapped at address 0, past the end of memory, or for length 0. -/
def mapArea (addr len : UInt64) : Option VmArea :=
  if h : 0 < addr ∧ addr < addr + pageAlign len then some ⟨addr, addr + pageAlign len, 0, h.1, h.2⟩
  else none

/-- `mmap(NULL, len, PROT_READ | PROT_WRITE, MAP_SHARED, fd, 0)`; `false` is
    `MAP_FAILED`. -/
def Client.mmap (c : Client) (len addr : UInt64) : Option (Bool × Client) :=
  match c.fd, mapArea addr len with
  | .live, some area =>
      match karenaMmap c.world.kernel area with
      | some (0, _, _) => (c.world.step (.mmap area)).map fun w => (true, { c with world := w })
      | some _ => some (false, c)
      | none => none
  | _, _ => some (false, c)

/-- `close(fd)`; the static keeps its value, which is no descriptor any more.  To close what is
    none does nothing. -/
def Client.close (c : Client) (lastRef : Bool) : Client :=
  match c.fd with
  | .live =>
      if lastRef then
        { c with fd := .bad, world := { c.world with kernel := devRelease c.world.kernel c.pid } }
      else { c with fd := .bad }
  | .zero | .bad => c

/-- The lazy `open("/dev/karena")` at the head of `ka_create`. -/
def Client.openDevice (c : Client) (ok : Bool) : Bool × Client :=
  match c.fd with
  | .zero =>
      if ok then
        (true, { c with fd := .live, world := { c.world with kernel := devOpen c.world.kernel } })
      else (false, { c with fd := .bad })
  | .live | .bad => (true, c)

/-- `ka_create`; `none` is `return NULL`. -/
def kaCreate (c : Client) (size : UInt64) (os : Os) : Option (Option UInt64 × Client) :=
  let opened := c.openDevice os.openOk
  if opened.1 = false then some (none, opened.2)
  else
    (opened.2.ioctl .create ⟨size, 0⟩ os.env).bind fun r =>
      if r.1 < 0 then some (none, r.2.2.close os.lastRef)
      else
        (r.2.2.mmap r.2.1.size os.addr).map fun m =>
          if m.1 then (some r.2.1.arena, m.2) else (none, m.2.close os.lastRef)

/-- A function that makes one ioctl on an arena, reads one field of the struct
    back, and returns `failed` when the ioctl fails. -/
def Client.query (c : Client) (cmd : Cmd) (alloc : KaData) (env : Env) (failed : UInt64)
    (field : KaData → UInt64) : Option (UInt64 × Client) :=
  (c.ioctl cmd alloc env).map fun r =>
    (if r.1 ≠ 0 then failed else field r.2.1, r.2.2)

def kaAlloc (c : Client) (arena size : UInt64) (env : Env) : Option (UInt64 × Client) :=
  c.query .alloc ⟨size, arena⟩ env 0 KaData.arena

def kaSeek (c : Client) (arena pos : UInt64) (env : Env) : Option (UInt64 × Client) :=
  c.query .seek ⟨pos, arena⟩ env 0 KaData.arena

def kaFree (c : Client) (arena : UInt64) (env : Env) : Option (UInt64 × Client) :=
  kaSeek c arena 0 env

def kaPop (c : Client) (arena size : UInt64) (env : Env) : Option Client :=
  (c.ioctl .pop ⟨size, arena⟩ env).map fun r => r.2.2

def kaPos (c : Client) (arena : UInt64) (env : Env) : Option (UInt64 × Client) :=
  c.query .pos ⟨0, arena⟩ env (-1) KaData.size

def kaReserve (c : Client) (arena sz : UInt64) (env : Env) : Option (UInt64 × Client) :=
  c.query .reserve ⟨sz, arena⟩ env (-1) KaData.size

def kaBase (c : Client) (arena : UInt64) (env : Env) : Option (UInt64 × Client) :=
  c.query .base ⟨0, arena⟩ env 0 KaData.arena

def kaSize (c : Client) (arena : UInt64) (env : Env) : Option (UInt64 × Client) :=
  c.query .size ⟨0, arena⟩ env (-1) KaData.size

end Lmalloc.Karena
