/-
  Lmalloc/Arena/Create.lean
  =========================
  **What `ua_create` obtains, and what `ua_destroy` gives back.**

  An arena is stored in one of four ways: header and memory in one block or in two,
  obtained from `malloc` or from `mmap`.  `ua_create` records the way in the flags
  and `ua_destroy` reads it there.

  `malloc` and `mmap` return nothing or a fresh block of the size asked for.  Only
  the `mmap` of both together is checked; where the others fail, `ua_init` writes
  through a null pointer, or the arena gets memory that it does not have.  The size
  of a common block wraps.
-/
import Lmalloc.Arena.UArena

namespace Lmalloc.Arena

open Lmalloc.Library

/-! ### The system -/

inductive Source where
  | malloc | mmap
deriving DecidableEq, Repr

structure Block where
  source : Source
  span : Span
deriving DecidableEq, Repr

/-- `MAP_FAILED`, the pointer `(void *)-1`. -/
def mapFailed : Addr := 2 ^ 64 - 1

/-- A block of this size at `base` is nowhere near the others. -/
def IsFresh (obtained : List Block) (base : Addr) (size : ℕ) : Prop :=
  0 < base ∧ base + size < mapFailed ∧
    ∀ b ∈ obtained, Disjoint b.span.cells (Span.mk base size).cells

instance (obtained : List Block) (base : Addr) (size : ℕ) :
    Decidable (IsFresh obtained base size) := by
  unfold IsFresh
  infer_instance

/-- What the system answers to a request, when these blocks have been obtained so far. -/
abbrev System := Source → (size : UInt64) → (obtained : List Block) →
  Option { base : Addr // IsFresh obtained base size.toNat }

def System.obtain (sys : System) (source : Source) (size : UInt64) (obtained : List Block) :
    Option Addr × List Block :=
  match sys source size obtained with
  | some base => (some base.1, obtained ++ [⟨source, ⟨base.1, size.toNat⟩⟩])
  | none => (none, obtained)

def System.malloc (sys : System) (size : UInt64) (obtained : List Block) : Addr × List Block :=
  let r := sys.obtain .malloc size obtained
  (r.1.getD 0, r.2)

def System.mmap (sys : System) (len : UInt64) (obtained : List Block) : Addr × List Block :=
  let r := sys.obtain .mmap len obtained
  (r.1.getD mapFailed, r.2)

/-- A call that gives memory back. -/
inductive GiveBack where
  | free (ptr : Addr)
  | munmap (addr : Addr) (len : UInt64)
deriving DecidableEq, Repr

/-- The call that matches the one by which the block was obtained. -/
def Block.giveBack (b : Block) : GiveBack :=
  match b.source with
  | .malloc => .free b.span.start
  | .mmap => .munmap b.span.start (UInt64.ofNat b.span.size)

/-! ### The functions of `u_arena.c` -/

/-- The size of a cache line that `get_l1d_cacheln_sz` returns: a positive `long`. -/
structure CacheLine where
  size : UInt64
  pos : 0 < size.toNat
  lt : size.toNat < 2 ^ 63

/-- `sizeof(UArena)` -/
def headerBytes : UInt64 := 32

def lmPaddingToAlign (value alignment : UInt64) : UInt64 :=
  (alignment - value % alignment) % alignment

def arenaCacheAlignedSz (line : CacheLine) : UInt64 :=
  headerBytes + lmPaddingToAlign headerBytes line.size

def uaIsContiguous (flags : UInt64) : Bool := (flags >>> 0) &&& 1 ≠ 0

def uaIsMallocd (flags : UInt64) : Bool := (flags >>> 1) &&& 1 ≠ 0

def uaIsBootstrapped (flags : UInt64) : Bool := (flags >>> 2) &&& 1 ≠ 0

/-- The address of an arena and what is stored there, and the blocks obtained so far; the
    pointer `none` is `NULL`. -/
abbrev Creation := Option (Addr × UArena) × List Block

/-- The end of `ua_create`.  `ua_init` writes through `ua`, which has a result only if the
    header lies in one of the blocks. -/
def initArena (contiguous mallocd : Bool) (cap : UInt64) (ua mem : Addr) (obtained : List Block) :
    Option Creation :=
  if ∃ b ∈ obtained, b.span.start ≤ ua ∧ ua + headerBytes.toNat ≤ b.span.stop then
    some (some (ua, uaInit contiguous mallocd false cap mem), obtained)
  else none

def uaCreate (line : CacheLine) (sys : System) (cap : UInt64) (contiguous mallocd : Bool) :
    Option Creation :=
  let arenaSz := arenaCacheAlignedSz line
  if mallocd then
    if contiguous then
      let ua := sys.malloc (arenaSz + cap) []
      initArena contiguous mallocd cap ua.1 (ua.1 + arenaSz.toNat) ua.2
    else
      let ua := sys.malloc headerBytes []
      let mem := sys.malloc cap ua.2
      initArena contiguous mallocd cap ua.1 mem.1 mem.2
  else if contiguous then
    let mem := sys.mmap (arenaSz + cap) []
    if mem.1 = mapFailed then some (none, mem.2)
    else initArena contiguous mallocd cap mem.1 (mem.1 + arenaSz.toNat) mem.2
  else
    let ua := sys.malloc headerBytes []
    let mem := sys.mmap cap ua.2
    initArena contiguous mallocd cap ua.1 mem.1 mem.2

/-- `ua_destroy`: the calls that give memory back, and what is at `uap` afterwards.  The
    argument is the pointer at `uap`, with what is stored there. -/
def uaDestroy (line : CacheLine) (ua : Option (Addr × UArena)) :
    List GiveBack × Option (Addr × UArena) :=
  match ua with
  | none => ([], none)
  | some (p, a) =>
      if uaIsBootstrapped a.flags then ([], ua)
      else if a.mem = 0 then ([], ua)
      else if uaIsMallocd a.flags then
        if uaIsContiguous a.flags then ([.free p], none) else ([.free a.mem, .free p], none)
      else if uaIsContiguous a.flags then
        ([.munmap p (arenaCacheAlignedSz line + a.cap)], none)
      else ([.munmap a.mem a.cap, .free p], none)

/-! ### When the two fit together -/

/-- The arena lies in one of the blocks, apart from its header, and destroying it gives back
    the blocks. -/
structure Stored (line : CacheLine) (cap : UInt64) (p : Addr) (ua : UArena)
    (obtained : List Block) : Prop where
  inside : ∃ b ∈ obtained, b.span.start ≤ ua.mem ∧ ua.mem + cap.toNat ≤ b.span.stop
  apart : Disjoint (Span.mk p headerBytes.toNat).cells (Span.mk ua.mem cap.toNat).cells
  given_back : (uaDestroy line (some (p, ua))).1.Perm (obtained.map Block.giveBack)

/-- What `ua_create` promises.  A write through a pointer that is not one has no result. -/
def Paired (line : CacheLine) (cap : UInt64) : Option Creation → Prop
  | none => False
  | some (none, obtained) => obtained = []
  | some (some (p, ua), obtained) => Stored line cap p ua obtained

/-- Where the memory of an arena that is not contiguous comes from. -/
def memSource (mallocd : Bool) : Source := if mallocd then .malloc else .mmap

/-- The requests succeed, but for the one that is checked, and the size of a common block does
    not wrap. -/
def Provided (line : CacheLine) (sys : System) (cap : UInt64) (contiguous mallocd : Bool) : Prop :=
  if contiguous then
    let common := sys (memSource mallocd) (arenaCacheAlignedSz line + cap) []
    (mallocd → common.isSome) ∧
      (common.isSome → (arenaCacheAlignedSz line).toNat + cap.toNat < 2 ^ 64)
  else
    ∃ base, sys .malloc headerBytes [] = some base ∧
      (sys (memSource mallocd) cap [⟨.malloc, ⟨base.1, headerBytes.toNat⟩⟩]).isSome

/-! ### The parts -/

section Parts

variable (line : CacheLine) (sys : System) (cap : UInt64) (contiguous mallocd : Bool)

/-- The header has room before the memory of a common block. -/
theorem headerBytes_le : headerBytes.toNat ≤ (arenaCacheAlignedSz line).toNat := by
  have hpos := line.pos
  have hlt := line.lt
  have hpad : (lmPaddingToAlign headerBytes line.size).toNat < line.size.toNat := by
    rw [lmPaddingToAlign, UInt64.toNat_mod]
    exact Nat.mod_lt _ hpos
  have hheader : headerBytes.toNat = 32 := rfl
  rw [arenaCacheAlignedSz, Word.toNat_add_of_lt]
  · exact Nat.le_add_right _ _
  · omega

/-- The flags that `ua_init` sets are the ones that `ua_destroy` reads. -/
theorem flags_uaInit (mem : Addr) :
    uaIsContiguous (uaInit contiguous mallocd false cap mem).flags = contiguous ∧
      uaIsMallocd (uaInit contiguous mallocd false cap mem).flags = mallocd ∧
      uaIsBootstrapped (uaInit contiguous mallocd false cap mem).flags = false := by
  have hread : ∀ c m : Bool, uaIsContiguous (uaInit c m false 0 0).flags = c ∧
      uaIsMallocd (uaInit c m false 0 0).flags = m ∧
      uaIsBootstrapped (uaInit c m false 0 0).flags = false := by decide
  exact hread contiguous mallocd

theorem uaDestroy_uaInit {p mem : ℕ} (hmem : mem ≠ 0) :
    (uaDestroy line (some (p, uaInit contiguous mallocd false cap mem))).1 =
      if mallocd then if contiguous then [.free p] else [.free mem, .free p]
      else if contiguous then [.munmap p (arenaCacheAlignedSz line + cap)]
      else [.munmap mem cap, .free p] := by
  obtain ⟨hcontiguous, hmallocd, hbootstrapped⟩ := flags_uaInit cap contiguous mallocd mem
  have hmem' : (uaInit contiguous mallocd false cap mem).mem = mem := rfl
  simp only [uaDestroy, hcontiguous, hmallocd, hbootstrapped, hmem', hmem, Bool.false_eq_true,
    if_false]
  cases mallocd
  all_goals cases contiguous
  all_goals rfl

/-- **A common block**: it holds header and memory exactly if its size does not wrap. -/
theorem paired_common (source : Source) (hsource : source = memSource mallocd) {base : ℕ}
    (hbase : 0 < base) :
    Paired line cap (initArena true mallocd cap base (base + (arenaCacheAlignedSz line).toNat)
        [⟨source, ⟨base, (arenaCacheAlignedSz line + cap).toNat⟩⟩]) ↔
      (arenaCacheAlignedSz line).toNat + cap.toNat < 2 ^ 64 := by
  have hheader := headerBytes_le line
  constructor
  · intro h
    unfold initArena at h
    split at h
    · obtain ⟨b, hb, _, hstop⟩ := Stored.inside h
      obtain rfl := List.mem_singleton.mp hb
      have hstop' : base + (arenaCacheAlignedSz line).toNat + cap.toNat ≤
          base + (arenaCacheAlignedSz line + cap).toNat := hstop
      have hlt : (arenaCacheAlignedSz line + cap).toNat < 2 ^ 64 := UInt64.toNat_lt _
      omega
    · exact absurd h id
  · intro hwrap
    have hsize := Word.toNat_add_of_lt hwrap
    have hmem : base + (arenaCacheAlignedSz line).toNat ≠ 0 := by omega
    have hroom : base + headerBytes.toNat ≤ base + (arenaCacheAlignedSz line + cap).toNat := by
      omega
    unfold initArena
    rw [if_pos ⟨_, List.mem_singleton_self _, Nat.le_refl _, hroom⟩]
    refine ⟨⟨_, List.mem_singleton_self _, Nat.le_add_right _ _, ?_⟩, ?_, ?_⟩
    · simp only [uaInit, Span.stop, hsize]
      exact Nat.le_of_eq (Nat.add_assoc _ _ _)
    · apply Span.disjoint_of_stop_le
      exact Nat.add_le_add_left hheader base
    · rw [uaDestroy_uaInit line cap true mallocd hmem, hsource]
      cases mallocd
      · simp only [memSource, Block.giveBack, List.map_cons, List.map_nil, Bool.false_eq_true,
          if_false, if_true, UInt64.ofNat_toNat]
        exact List.Perm.refl _
      · exact List.Perm.refl _

/-- Header and memory apart, and both there. -/
theorem paired_apart {p mem : ℕ} (hmem : IsFresh [⟨.malloc, ⟨p, headerBytes.toNat⟩⟩] mem
      cap.toNat) :
    Paired line cap (initArena false mallocd cap p mem
      [⟨.malloc, ⟨p, headerBytes.toNat⟩⟩, ⟨memSource mallocd, ⟨mem, cap.toNat⟩⟩]) := by
  obtain ⟨hpos, _, hfresh⟩ := hmem
  unfold initArena
  rw [if_pos ⟨_, List.mem_cons_self, Nat.le_refl _, Nat.le_refl _⟩]
  refine ⟨⟨_, List.mem_cons_of_mem _ List.mem_cons_self, Nat.le_refl _, Nat.le_refl _⟩, ?_, ?_⟩
  · exact hfresh _ (List.mem_singleton_self _)
  · rw [uaDestroy_uaInit line cap false mallocd (Nat.ne_of_gt hpos)]
    cases mallocd
    · simp only [memSource, Block.giveBack, List.map_cons, List.map_nil, Bool.false_eq_true,
        if_false, UInt64.ofNat_toNat]
      exact List.Perm.swap _ _ _
    · exact List.Perm.swap _ _ _

/-- The memory is a pointer of a failed request: it lies in no block. -/
theorem not_paired_of_failed {p mem size : ℕ} (hp : IsFresh [] p size)
    (hmem : mem = 0 ∨ mem = mapFailed) :
    ¬ Paired line cap (initArena contiguous mallocd cap p mem [⟨.malloc, ⟨p, size⟩⟩]) := by
  have hpos : 0 < p := hp.1
  have hend : p + size < 2 ^ 64 - 1 := hp.2.1
  unfold initArena
  split
  · intro h
    obtain ⟨b, hb, hstart, hstop⟩ := Stored.inside h
    obtain rfl := List.mem_singleton.mp hb
    have hstart' : p ≤ mem := hstart
    have hstop' : mem + cap.toNat ≤ p + size := hstop
    have hfailed : mem = 0 ∨ mem = 2 ^ 64 - 1 := hmem
    omega
  · exact id

/-- There is no header: the write of `ua_init` has no result. -/
theorem not_paired_of_null {mem : Addr} {obtained : List Block}
    (hpos : ∀ b ∈ obtained, 0 < b.span.start) :
    ¬ Paired line cap (initArena contiguous mallocd cap 0 mem obtained) := by
  unfold initArena
  rw [if_neg]
  · exact id
  · rintro ⟨b, hb, hstart, _⟩
    exact absurd hstart (Nat.not_le.mpr (hpos b hb))

end Parts

/-! ### The four layouts -/

section Layouts

variable (line : CacheLine) (sys : System) (cap : UInt64) (mallocd : Bool)

theorem obtain_of_some {source : Source} {size : UInt64} {obtained : List Block}
    {base : { base : Addr // IsFresh obtained base size.toNat }}
    (h : sys source size obtained = some base) :
    sys.obtain source size obtained =
      (some base.1, obtained ++ [⟨source, ⟨base.1, size.toNat⟩⟩]) := by
  simp only [System.obtain, h]

theorem obtain_of_none {source : Source} {size : UInt64} {obtained : List Block}
    (h : sys source size obtained = none) : sys.obtain source size obtained = (none, obtained) := by
  simp only [System.obtain, h]

theorem paired_contiguous_iff :
    Paired line cap (uaCreate line sys cap true mallocd) ↔ Provided line sys cap true mallocd := by
  have hprovided : Provided line sys cap true mallocd ↔
      (mallocd → (sys (memSource mallocd) (arenaCacheAlignedSz line + cap) []).isSome) ∧
        ((sys (memSource mallocd) (arenaCacheAlignedSz line + cap) []).isSome →
          (arenaCacheAlignedSz line).toNat + cap.toNat < 2 ^ 64) := Iff.rfl
  rw [hprovided]
  rcases hsys : sys (memSource mallocd) (arenaCacheAlignedSz line + cap) [] with _ | base
  · cases mallocd with
    | false =>
      have hmmap := obtain_of_none sys (show sys .mmap _ _ = none from hsys)
      simp [uaCreate, System.mmap, hmmap, Paired]
    | true =>
      have hmalloc := obtain_of_none sys (show sys .malloc _ _ = none from hsys)
      simp only [uaCreate, System.malloc, hmalloc, if_true, Option.getD_none]
      apply iff_of_false
      · exact not_paired_of_null line cap true true fun b hb => absurd hb List.not_mem_nil
      · simp
  · have hpos := base.2.1
    have hend := base.2.2.1
    have hcommon := paired_common line cap mallocd _ rfl hpos
    simp only [Option.isSome_some, implies_true, true_and, forall_const]
    cases mallocd with
    | false =>
      have hmmap := obtain_of_some sys (show sys .mmap _ _ = some base from hsys)
      have hne : base.1 ≠ mapFailed := by
        apply Nat.ne_of_lt
        exact Nat.lt_of_le_of_lt (Nat.le_add_right _ _) hend
      simp only [uaCreate, System.mmap, hmmap, Bool.false_eq_true, if_false, if_true,
        Option.getD_some, hne, List.nil_append]
      exact hcommon
    | true =>
      have hmalloc := obtain_of_some sys (show sys .malloc _ _ = some base from hsys)
      simp only [uaCreate, System.malloc, hmalloc, if_true, Option.getD_some, List.nil_append]
      exact hcommon

/-- The request for the memory of an arena that is not contiguous. -/
theorem uaCreate_apart :
    uaCreate line sys cap false mallocd =
      initArena false mallocd cap (sys.malloc headerBytes []).1
        ((sys.obtain (memSource mallocd) cap (sys.malloc headerBytes []).2).1.getD
          (if mallocd then 0 else mapFailed))
        (sys.obtain (memSource mallocd) cap (sys.malloc headerBytes []).2).2 := by
  cases mallocd
  · rfl
  · rfl

theorem paired_apart_iff :
    Paired line cap (uaCreate line sys cap false mallocd) ↔
      Provided line sys cap false mallocd := by
  have hprovided : Provided line sys cap false mallocd ↔
      ∃ base, sys .malloc headerBytes [] = some base ∧
        (sys (memSource mallocd) cap [⟨.malloc, ⟨base.1, headerBytes.toNat⟩⟩]).isSome := Iff.rfl
  rw [hprovided, uaCreate_apart]
  rcases hheader : sys .malloc headerBytes [] with _ | p
  · have hmalloc := obtain_of_none sys hheader
    simp only [System.malloc, hmalloc, Option.getD_none]
    apply iff_of_false
    · apply not_paired_of_null
      rcases hmem : sys (memSource mallocd) cap [] with _ | mem
      · rw [obtain_of_none sys hmem]
        exact fun b hb => absurd hb List.not_mem_nil
      · rw [obtain_of_some sys hmem]
        intro b hb
        obtain rfl := List.mem_singleton.mp hb
        exact mem.2.1
    · rintro ⟨_, hno, _⟩
      cases hno
  · have hmalloc := obtain_of_some sys hheader
    simp only [System.malloc, hmalloc, Option.getD_some, List.nil_append]
    rcases hmem : sys (memSource mallocd) cap [⟨.malloc, ⟨p.1, headerBytes.toNat⟩⟩] with _ | mem
    · rw [obtain_of_none sys hmem]
      apply iff_of_false
      · apply not_paired_of_failed line cap false mallocd p.2
        cases mallocd
        · exact Or.inr rfl
        · exact Or.inl rfl
      · rintro ⟨base, hbase, hsome⟩
        obtain rfl := Option.some.inj hbase
        rw [hmem] at hsome
        cases hsome
    · rw [obtain_of_some sys hmem]
      apply iff_of_true
      · exact paired_apart line cap mallocd mem.2
      · exact ⟨p, rfl, by rw [hmem]; rfl⟩

end Layouts

/-- **`ua_create` and `ua_destroy` fit together exactly when what is requested is provided**: in
    every layout, for every capacity and whatever the system answers. -/
theorem create_destroy_paired_iff (line : CacheLine) (sys : System) (cap : UInt64)
    (contiguous mallocd : Bool) :
    Paired line cap (uaCreate line sys cap contiguous mallocd) ↔
      Provided line sys cap contiguous mallocd := by
  cases contiguous with
  | false => exact paired_apart_iff line sys cap mallocd
  | true => exact paired_contiguous_iff line sys cap mallocd

theorem sixtyFour_pos : 0 < (64 : UInt64).toNat := by decide

theorem sixtyFour_lt : (64 : UInt64).toNat < 2 ^ 63 := by decide

def lineOf64 : CacheLine := ⟨64, sixtyFour_pos, sixtyFour_lt⟩

/-- A system with room at 4096 for a first block, and none for a second. -/
def oneBlock : System := fun _ size obtained =>
  if h : IsFresh obtained 4096 size.toNat then some ⟨4096, h⟩ else none

/-- The memory of a second `malloc` is missing: the arena has it at the null pointer, and
    destroying it frees nothing.  The size of a common block wraps to 56 bytes.  A common block
    that `malloc` does not give is written to all the same. -/
theorem create_destroy_not_paired :
    (uaCreate lineOf64 oneBlock 5000 false true =
        some (some (4096, uaInit false true false 5000 0), [⟨.malloc, ⟨4096, 32⟩⟩]) ∧
      (uaDestroy lineOf64 (some (4096, uaInit false true false 5000 0))).1 = []) ∧
    uaCreate lineOf64 oneBlock (0 - 8) true false =
        some (some (4096, uaInit true false false (0 - 8) 4160), [⟨.mmap, ⟨4096, 56⟩⟩]) ∧
    uaCreate lineOf64 (fun _ _ _ => none) 5000 true true = none ∧
    ¬ Paired lineOf64 5000 (uaCreate lineOf64 oneBlock 5000 false true) := by
  refine ⟨⟨by decide, by decide⟩, by decide, by decide, ?_⟩
  have hcreate : uaCreate lineOf64 oneBlock 5000 false true =
      some (some (4096, uaInit false true false 5000 0), [⟨.malloc, ⟨4096, 32⟩⟩]) := by decide
  rw [hcreate]
  intro h
  obtain ⟨b, hb, hstart, _⟩ := Stored.inside h
  obtain rfl := List.mem_singleton.mp hb
  exact absurd hstart (by decide)

end Lmalloc.Arena
