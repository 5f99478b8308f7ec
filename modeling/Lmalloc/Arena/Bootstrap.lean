/-
  Lmalloc/Arena/Bootstrap.lean
  ============================
  **A bootstrap that fails may have taken something.**

  `ua_bootstrap` and `SdbArenaBootstrap` take a header and the memory of the new
  arena from the parent, unless the caller brings the header, and look at both
  results afterwards.  If only one of the two pushes succeeds the function returns
  `NULL` and keeps what the other has taken.

  The two functions are one function of the pushes they make.  Headers are objects
  of their own here; `InMemory` has them as the bytes they are.
-/
import Lmalloc.Arena.UArena
import Lmalloc.Arena.SdbArena

namespace Lmalloc.Arena

open Lmalloc.Library

/-- The headers of the arenas, by their address, and all other memory. -/
structure Heads (α : Type) where
  header : Addr → α
  memory : Memory

def Heads.setHeader {α : Type} (st : Heads α) (p : Addr) (a : α) : Heads α :=
  { st with header := Function.update st.header p a }

/-! ### The functions -/

section Functions

variable {α : Type}

/-- The second half: the memory of the new arena is taken from the parent also when there was
    no room for the header. -/
def bootstrapMem (pushMem : α → Memory → Option Addr × α × Memory) (init : Addr → α)
    (st : Heads α) (arena : Addr) (new : Option Addr) : Option Addr × Heads α :=
  let r := pushMem (st.header arena) st.memory
  let st := { st.setHeader arena r.2.1 with memory := r.2.2 }
  match new, r.1 with
  | some new, some mem => (some new, st.setHeader new (init mem))
  | _, _ => (none, st)

/-- A bootstrap that pushes the header with `pushHeader` and the memory with `pushMem`. -/
def bootstrapOf (pushHeader : α → Option Addr × α)
    (pushMem : α → Memory → Option Addr × α × Memory) (init : Addr → α) (st : Heads α)
    (arena : Addr) (newExisting : Option Addr) : Option Addr × Heads α :=
  match newExisting with
  | some p => bootstrapMem pushMem init st arena (some p)
  | none =>
      let r := pushHeader (st.header arena)
      bootstrapMem pushMem init (st.setHeader arena r.2) arena r.1

/-- `sizeof(UArena)` -/
def uArenaSize : UInt64 := 32

/-- `sizeof(sdb_arena)` -/
def sdbArenaSize : UInt64 := 24

def uaBootstrap (st : Heads UArena) (ua : Addr) (newExisting : Option Addr) (cap : UInt64) :
    Option Addr × Heads UArena :=
  bootstrapOf (fun a => uaAlloc a uArenaSize) (fun a m => uaZalloc a cap m)
    (uaInit false false true cap) st ua newExisting

def sdbArenaBootstrap (st : Heads SdbArena) (arena : Addr) (newArena : Option Addr)
    (size : UInt64) : Option Addr × Heads SdbArena :=
  bootstrapOf (fun a => sdbArenaPush a sdbArenaSize)
    (fun a m => ((sdbArenaPush a size).1, (sdbArenaPush a size).2, m))
    (fun mem => sdbArenaInit mem size) st arena newArena

end Functions

/-! ### What a push does to the cursor -/

/-- A push of `size` bytes moves the cursor if they fit, and changes nothing if not. -/
structure Pushes {α : Type} (cur cap : α → UInt64) (size : UInt64)
    (push : α → Option Addr × α) : Prop where
  fits : ∀ a, cur a + size ≤ cap a →
    (push a).1.isSome ∧ cur (push a).2 = cur a + size ∧ cap (push a).2 = cap a
  full : ∀ a, ¬ cur a + size ≤ cap a → push a = (none, a)

theorem uaAlloc_pushes (size : UInt64) :
    Pushes UArena.cur UArena.cap size fun a => uaAlloc a size where
  fits := by
    intro a h
    simp only [uaAlloc, if_pos h]
    exact ⟨rfl, trivial, trivial⟩
  full := fun _ h => if_neg h

theorem uaZalloc_pushes (size : UInt64) (m : Memory) :
    Pushes UArena.cur UArena.cap size
      fun a => ((uaZalloc a size m).1, (uaZalloc a size m).2.1) where
  fits := by
    intro a h
    simp only [uaZalloc, if_pos h]
    exact ⟨rfl, trivial, trivial⟩
  full := by
    intro a h
    simp only [uaZalloc, if_neg h]

theorem sdbArenaPush_pushes (size : UInt64) :
    Pushes SdbArena.cur SdbArena.cap size fun a => sdbArenaPush a size where
  fits := by
    intro a h
    simp only [sdbArenaPush, if_pos h]
    exact ⟨rfl, trivial, trivial⟩
  full := fun _ h => if_neg h

/-! ### When a failed bootstrap leaves the parent as it was -/

section Failure

variable {α : Type}

/-- A `NULL` comes with the parent's cursor and the caller's header as they were. -/
def LeavesParent (cur : α → UInt64) (st : Heads α) (arena : Addr) (newExisting : Option Addr)
    (r : Option Addr × Heads α) : Prop :=
  r.1 = none → cur (r.2.header arena) = cur (st.header arena) ∧
    ∀ p, newExisting = some p → r.2.header p = st.header p

/-- The caller brings the header, or header and memory fit both, or neither moves the cursor. -/
def TakesBothOrNone (cur cap headerSize size : UInt64) (newExisting : Option Addr) : Prop :=
  newExisting = none →
    (cur + headerSize ≤ cap → cur + headerSize + size ≤ cap) ∧
      (¬ cur + headerSize ≤ cap → cur + size ≤ cap → size = 0)

instance (cur cap headerSize size : UInt64) (newExisting : Option Addr) :
    Decidable (TakesBothOrNone cur cap headerSize size newExisting) := by
  unfold TakesBothOrNone
  infer_instance

@[simp] theorem header_setHeader (st : Heads α) (p : Addr) (a : α) :
    (st.setHeader p a).header p = a := Function.update_self ..

@[simp] theorem setHeader_header (st : Heads α) (p : Addr) : st.setHeader p (st.header p) = st := by
  rw [Heads.setHeader, Function.update_eq_self]

variable {cur cap : α → UInt64} {headerSize size : UInt64} {pushHeader : α → Option Addr × α}
  {pushMem : α → Memory → Option Addr × α × Memory} (init : Addr → α) {st : Heads α}
  {arena : Addr}

theorem bootstrapMem_null (new : Option Addr)
    (hnull : new = none ∨ (pushMem (st.header arena) st.memory).1 = none) :
    (bootstrapMem pushMem init st arena new).1 = none ∧
      (bootstrapMem pushMem init st arena new).2.header arena =
        (pushMem (st.header arena) st.memory).2.1 := by
  unfold bootstrapMem
  rcases hnull with rfl | hmem
  · exact ⟨rfl, header_setHeader ..⟩
  · simp only [hmem]
    exact ⟨trivial, header_setHeader ..⟩

theorem bootstrapMem_isSome {new : Addr}
    (hmem : (pushMem (st.header arena) st.memory).1.isSome) :
    (bootstrapMem pushMem init st arena (some new)).1 ≠ none := by
  obtain ⟨mem, hmem⟩ := Option.isSome_iff_exists.mp hmem
  unfold bootstrapMem
  simp only [hmem]
  exact Option.some_ne_none new

variable (hmem : ∀ m, Pushes cur cap size fun a => ((pushMem a m).1, (pushMem a m).2.1))

include hmem

/-- The memory does not fit: the cursor is where it was. -/
theorem leavesParent_of_full {new : Option Addr} (hfull : ¬ cur (st.header arena) + size ≤
      cap (st.header arena)) : LeavesParent cur st arena new
        (bootstrapMem pushMem init st arena new) := by
  have hpush := (hmem st.memory).full _ hfull
  rw [Prod.mk.injEq] at hpush
  intro _
  obtain ⟨_, hparent⟩ := bootstrapMem_null init new (Or.inr hpush.1)
  refine ⟨by rw [hparent, hpush.2], ?_⟩
  intro p _
  unfold bootstrapMem
  simp only [hpush.1, hpush.2, setHeader_header]

/-- The memory fits and is given to nobody: the cursor has moved by its size. -/
theorem cur_bootstrapMem_none (hfit : cur (st.header arena) + size ≤ cap (st.header arena)) :
    cur ((bootstrapMem pushMem init st arena none).2.header arena) =
      cur (st.header arena) + size := by
  rw [(bootstrapMem_null init none (Or.inl rfl)).2]
  exact ((hmem st.memory).fits _ hfit).2.1

/-- The caller brings the header: a refused push of the memory has changed nothing. -/
theorem leavesParent_of_given (p : Addr) : LeavesParent cur st arena (some p)
    (bootstrapOf pushHeader pushMem init st arena (some p)) := by
  by_cases hfit : cur (st.header arena) + size ≤ cap (st.header arena)
  · intro hnull
    exact absurd hnull (bootstrapMem_isSome init ((hmem st.memory).fits _ hfit).1)
  · exact leavesParent_of_full init hmem hfit

variable (hheader : Pushes cur cap headerSize pushHeader)

include hheader

/-- The header has been taken: the parent is as it was only if the memory is there too. -/
theorem leavesParent_iff_of_room (hsize : headerSize ≠ 0)
    (hroom : cur (st.header arena) + headerSize ≤ cap (st.header arena)) :
    LeavesParent cur st arena none (bootstrapOf pushHeader pushMem init st arena none) ↔
      cur (st.header arena) + headerSize + size ≤ cap (st.header arena) := by
  obtain ⟨hnew, hcur, hcap⟩ := hheader.fits _ hroom
  obtain ⟨p, hp⟩ := Option.isSome_iff_exists.mp hnew
  obtain ⟨st₁, hst₁⟩ : ∃ st₁, st₁ = st.setHeader arena (pushHeader (st.header arena)).2 := ⟨_, rfl⟩
  have hcur₁ : cur (st₁.header arena) = cur (st.header arena) + headerSize := by
    rw [hst₁, header_setHeader, hcur]
  have hcap₁ : cap (st₁.header arena) = cap (st.header arena) := by
    rw [hst₁, header_setHeader, hcap]
  simp only [bootstrapOf, hp, ← hst₁, ← hcur₁, ← hcap₁]
  constructor
  · intro hleaves
    by_contra hfit
    have hpush := (hmem st₁.memory).full _ hfit
    rw [Prod.mk.injEq] at hpush
    obtain ⟨hnull, hparent⟩ := bootstrapMem_null init (some p) (Or.inr hpush.1)
    have hsame := (hleaves hnull).1
    rw [hparent, show _ = _ from hpush.2, hcur₁, add_eq_left] at hsame
    exact hsize hsame
  · intro hfit hnull
    exact absurd hnull (bootstrapMem_isSome init ((hmem st₁.memory).fits _ hfit).1)

/-- The header is refused: the parent is as it was only if the memory is refused or empty. -/
theorem leavesParent_iff_of_no_room
    (hroom : ¬ cur (st.header arena) + headerSize ≤ cap (st.header arena)) :
    LeavesParent cur st arena none (bootstrapOf pushHeader pushMem init st arena none) ↔
      (cur (st.header arena) + size ≤ cap (st.header arena) → size = 0) := by
  simp only [bootstrapOf, hheader.full _ hroom, setHeader_header]
  constructor
  · intro hleaves hfit
    have hsame := (hleaves (bootstrapMem_null init none (Or.inl rfl)).1).1
    rw [cur_bootstrapMem_none init hmem hfit, add_eq_left] at hsame
    exact hsame
  · intro hempty
    by_cases hfit : cur (st.header arena) + size ≤ cap (st.header arena)
    · intro _
      rw [cur_bootstrapMem_none init hmem hfit, hempty hfit, add_zero]
      exact ⟨rfl, fun p hp => by cases hp⟩
    · exact leavesParent_of_full init hmem hfit

/-- **A bootstrap leaves the parent alone when it fails, exactly if it takes both or none.** -/
theorem leavesParent_iff (hsize : headerSize ≠ 0) (newExisting : Option Addr) :
    LeavesParent cur st arena newExisting
        (bootstrapOf pushHeader pushMem init st arena newExisting) ↔
      TakesBothOrNone (cur (st.header arena)) (cap (st.header arena)) headerSize size
        newExisting := by
  cases newExisting with
  | some p =>
    apply iff_of_true
    · exact leavesParent_of_given init hmem p
    · rintro ⟨⟩
  | none =>
    by_cases hroom : cur (st.header arena) + headerSize ≤ cap (st.header arena)
    · rw [leavesParent_iff_of_room init hmem hheader hsize hroom]
      constructor
      · intro hfit _
        exact ⟨fun _ => hfit, fun hno => absurd hroom hno⟩
      · intro htakes
        exact (htakes rfl).1 hroom
    · rw [leavesParent_iff_of_no_room init hmem hheader hroom]
      constructor
      · intro hempty _
        exact ⟨fun hno => absurd hno hroom, fun _ => hempty⟩
      · intro htakes
        exact (htakes rfl).2 hroom

end Failure

/-- **Both bootstraps leave the parent as it was when they fail, exactly if the caller brings
    the header, or header and memory fit, or the header does not fit and the memory does not
    fit or is empty.** -/
theorem failed_bootstrap_iff (us : Heads UArena) (ss : Heads SdbArena) (arena : Addr)
    (newExisting : Option Addr) (size : UInt64) :
    (LeavesParent UArena.cur us arena newExisting (uaBootstrap us arena newExisting size) ↔
        TakesBothOrNone (us.header arena).cur (us.header arena).cap uArenaSize size
          newExisting) ∧
      (LeavesParent SdbArena.cur ss arena newExisting
          (sdbArenaBootstrap ss arena newExisting size) ↔
        TakesBothOrNone (ss.header arena).cur (ss.header arena).cap sdbArenaSize size
          newExisting) :=
  ⟨leavesParent_iff _ (fun m => uaZalloc_pushes size m) (uaAlloc_pushes _) (by decide) _,
    leavesParent_iff _ (fun _ => sdbArenaPush_pushes size) (sdbArenaPush_pushes _) (by decide) _⟩

/-- Arenas of 100 bytes, all empty. -/
def emptyHundred : Heads UArena := ⟨fun _ => uaInit true false false 100 1000, fun _ => 7⟩

/-- The header of a child with 100 bytes fits, its memory does not: 32 bytes are lost.  With 80
    of the bytes in use the header does not fit, and a child with 10 bytes takes these. -/
theorem failed_bootstrap_takes :
    (uaBootstrap emptyHundred 64 none 100).1 = none ∧
      ((uaBootstrap emptyHundred 64 none 100).2.header 64).cur = 32 ∧
      ((sdbArenaBootstrap ⟨fun _ => ⟨80, 100, 1000⟩, fun _ => 7⟩ 64 none 10).1 = none ∧
        ((sdbArenaBootstrap ⟨fun _ => ⟨80, 100, 1000⟩, fun _ => 7⟩ 64 none 10).2.header 64).cur =
          90) ∧
      ¬ LeavesParent UArena.cur emptyHundred 64 none (uaBootstrap emptyHundred 64 none 100) := by
  refine ⟨by decide, by decide, ⟨by decide, by decide⟩, ?_⟩
  intro hleaves
  exact absurd (hleaves (by decide)).1 (by decide)

end Lmalloc.Arena
