/-
  Lmalloc/Arena/Pool.lean
  =======================
  **The pool allocator of `SDB_POOL_ALLOCATOR_DEFINE`.**

  Released objects are kept in a list that runs through their own `Next` fields;
  `Alloc` takes the first of them, and pushes on the arena where there is none.
  Between the calls the program writes what it likes into the objects it holds.

  Pointers are words, and `NULL` is 0.
-/
import Lmalloc.Arena.SdbArena
import Lmalloc.Library.CMemory
import Lmalloc.Library.Chain
import Lmalloc.Library.Run
import Lmalloc.Library.Word

namespace Lmalloc.Arena.Pool

open Lmalloc.Library

/-! ### The macro -/

/-- The type the pool is defined for, a `struct` with a pointer `Next`. -/
structure TypeName where
  size : UInt64
  /-- `offsetof(type_name, Next)`. -/
  next : ℕ
  next_fits : next + 8 ≤ size.toNat

/-- `type_name_pool`. -/
structure TypeNamePool where
  arena : SdbArena
  firstFree : UInt64
  deriving DecidableEq

variable (t : TypeName)

/-- `Instance->Next`. -/
def loadNext (m : Memory) (p : UInt64) : UInt64 := m.loadWord (p.toNat + t.next)

/-- The bytes of an object. -/
def object (p : UInt64) : Span := ⟨p.toNat, t.size.toNat⟩

/-- The pointer a push returns. -/
def toWord : Option Addr → UInt64
  | some p => UInt64.ofNat p
  | none => 0

def alloc (pool : TypeNamePool) (m : Memory) : UInt64 × TypeNamePool × Memory :=
  let result := pool.firstFree
  if result ≠ 0 then
    let pool := { pool with firstFree := loadNext t m pool.firstFree }
    (result, pool, m.fill (object t result) 0)
  else
    let (result, arena, m) := sdbArenaPushZero pool.arena (t.size * 1) m
    (toWord result, { pool with arena := arena }, m)

def release (pool : TypeNamePool) (p : UInt64) (m : Memory) : TypeNamePool × Memory :=
  let m := m.storeWord (p.toNat + t.next) pool.firstFree
  ({ pool with firstFree := p }, m)

/-! ### Runs -/

/-- `live` are the objects returned and not released since, `freed` those released
    and not returned since. -/
structure State where
  pool : TypeNamePool
  mem : Memory
  live : List UInt64
  freed : List UInt64

inductive Call where
  | alloc
  | release (p : UInt64)
  | write (a : ℕ) (v : UInt8)

/-- Where the memory of an arena starts. -/
def base (arena : SdbArena) : ℕ := arena.mem

/-- The program writes into the objects it holds, and outside the arena. -/
def State.Writable (s : State) (a : ℕ) : Prop :=
  (∃ p ∈ s.live, p.toNat ≤ a ∧ a < p.toNat + t.size.toNat) ∨
    a < base s.pool.arena ∨ base s.pool.arena + s.pool.arena.cap.toNat ≤ a

instance (s : State) (a : ℕ) : Decidable (s.Writable t a) :=
  inferInstanceAs (Decidable (_ ∨ _))

def afterAlloc (s : State) : State :=
  let (result, pool, m) := alloc t s.pool s.mem
  { pool := pool
    mem := m
    live := if result = 0 then s.live else result :: s.live
    freed := s.freed.erase result }

def afterRelease (s : State) (p : UInt64) : State :=
  let (pool, m) := release t s.pool p s.mem
  { pool := pool, mem := m, live := s.live.erase p, freed := p :: s.freed }

/-- Only live objects are released. -/
def step (s : State) : Call → Option State
  | .alloc => some (afterAlloc t s)
  | .release p => if p ∈ s.live then some (afterRelease t s p) else none
  | .write a v =>
      if s.Writable t a then some { s with mem := s.mem.write a [v] } else none

/-- An arena of bytes that have addresses. -/
structure Backed (arena : SdbArena) : Prop where
  cur_le : arena.cur.toNat ≤ arena.cap.toNat
  cap_lt : arena.cap.toNat < 2 ^ 63
  not_null : 0 < base arena
  addressable : base arena + arena.cap.toNat < 2 ^ 64

/-- The pool before its first call. -/
structure Initial (s : State) : Prop where
  backed : Backed s.pool.arena
  firstFree : s.pool.firstFree = 0
  live : s.live = []
  freed : s.freed = []

/-! ### What the pool is for -/

/-- The object `p` that `Alloc` returns, on the way from `s` to `s'`. -/
structure Served (s s' : State) (p : UInt64) : Prop where
  zero : ∀ a ∈ (object t p).cells, s'.mem a = 0
  inside : (object t p).Within (base s.pool.arena) (base s.pool.arena + s.pool.arena.cap.toNat)
  apart : ∀ q ∈ s.live, Disjoint (object t p).cells (object t q).cells

/-- The list from `FirstFree` comes to `NULL`, without a cycle, and its objects are
    those released and not returned since. -/
def FreeListOf (s : State) : Prop :=
  ∃ xs, Chain (loadNext t s.mem) 0 s.pool.firstFree xs ∧ xs.Nodup ∧ ∀ p, p ∈ xs ↔ p ∈ s.freed

structure Correct (s : State) : Prop where
  freeList : FreeListOf t s
  served : ∀ p, (alloc t s.pool s.mem).1 = p → p ≠ 0 → Served t s (afterAlloc t s) p
  null : (alloc t s.pool s.mem).1 = 0 →
    s.pool.firstFree = 0 ∧ s.pool.arena.cap.toNat < s.pool.arena.cur.toNat + t.size.toNat
  grows : ∀ c s', step t s c = some s' → s'.pool.arena ≠ s.pool.arena → s.pool.firstFree = 0

/-! ### The objects -/

def Apart (p q : UInt64) : Prop := Disjoint (object t p).cells (object t q).cells

/-- The list is the released objects, and all objects lie apart in what the arena
    has handed out. -/
structure Inv (s : State) : Prop where
  backed : Backed s.pool.arena
  chain : Chain (loadNext t s.mem) 0 s.pool.firstFree s.freed
  placed : ∀ p ∈ s.live ++ s.freed, base s.pool.arena ≤ p.toNat ∧
    p.toNat + t.size.toNat ≤ base s.pool.arena + s.pool.arena.cur.toNat
  apart : (s.live ++ s.freed).Pairwise (Apart t)

theorem inv_of_initial {s : State} (h : Initial s) : Inv t s where
  backed := h.backed
  chain := by
    rw [h.freed]
    exact h.firstFree
  placed := by
    rw [h.live, h.freed]
    exact fun p hp => absurd hp List.not_mem_nil
  apart := by
    rw [h.live, h.freed]
    exact List.Pairwise.nil

section

variable {t} {p q : UInt64} {a : ℕ} {m m' : Memory} {s : State}

theorem mem_object : a ∈ (object t p).cells ↔ p.toNat ≤ a ∧ a < p.toNat + t.size.toNat := Iff.rfl

theorem Apart.symm (h : Apart t p q) : Apart t q p := Disjoint.symm h

theorem Apart.notMem (h : Apart t p q) (ha : a ∈ (object t p).cells) : a ∉ (object t q).cells :=
  Set.disjoint_left.mp h ha

/-- The link of an object is part of it. -/
theorem link_mem (p : UInt64) {i : ℕ} (hi : i < 8) :
    p.toNat + t.next + i ∈ (object t p).cells := by
  have hfits := t.next_fits
  constructor
  · exact Nat.le_add_right_of_le (Nat.le_add_right _ _)
  · show p.toNat + t.next + i < p.toNat + t.size.toNat
    omega

/-- A link is the same where the bytes of its object are. -/
theorem loadNext_congr (h : ∀ a ∈ (object t p).cells, m' a = m a) :
    loadNext t m' p = loadNext t m p :=
  Memory.loadWord_congr fun _ hi => h _ (link_mem p hi)

namespace Inv

theorem live_apart (h : Inv t s) (hp : p ∈ s.live) (hq : q ∈ s.freed) : Apart t p q :=
  (List.pairwise_append.mp h.apart).2.2 p hp q hq

/-- The list survives what leaves the released objects alone. -/
theorem chain_congr (h : Inv t s) (hsame : ∀ q ∈ s.freed, ∀ a ∈ (object t q).cells, m' a = s.mem a) :
    Chain (loadNext t m') 0 s.pool.firstFree s.freed :=
  h.chain.congr fun q hq => loadNext_congr (hsame q hq)

/-- What the arena has not handed out yet is apart from every object. -/
theorem apart_of_end (h : Inv t s) (hp : p.toNat = base s.pool.arena + s.pool.arena.cur.toNat)
    (hq : q ∈ s.live) : Apart t p q := by
  obtain ⟨-, hstop⟩ := h.placed q (List.mem_append_left _ hq)
  apply Apart.symm
  apply Span.disjoint_of_stop_le
  show q.toNat + t.size.toNat ≤ p.toNat
  rw [hp]
  exact hstop

theorem freeListOf (h : Inv t s) : FreeListOf t s :=
  ⟨s.freed, h.chain, h.chain.nodup, fun _ => Iff.rfl⟩

end Inv

/-! ### What `Alloc` does -/

/-- It takes the first released object, or pushes a new one, or there is no room. -/
theorem alloc_cases (h : Inv t s) (hsize : t.size.toNat < 2 ^ 63) :
    (∃ p rest, s.freed = p :: rest ∧ s.pool.firstFree = p ∧ p ≠ 0 ∧
      Chain (loadNext t s.mem) 0 (loadNext t s.mem p) rest ∧
      alloc t s.pool s.mem = (p, { s.pool with firstFree := loadNext t s.mem p },
        s.mem.fill (object t p) 0)) ∨
    (∃ p cur, s.freed = [] ∧ s.pool.firstFree = 0 ∧ p ≠ 0 ∧
      p.toNat = base s.pool.arena + s.pool.arena.cur.toNat ∧
      cur.toNat = s.pool.arena.cur.toNat + t.size.toNat ∧ cur ≤ s.pool.arena.cap ∧
      alloc t s.pool s.mem = (p, { s.pool with arena := { s.pool.arena with cur := cur } },
        s.mem.fill (object t p) 0)) ∨
    (s.freed = [] ∧ s.pool.firstFree = 0 ∧
      s.pool.arena.cap.toNat < s.pool.arena.cur.toNat + t.size.toNat ∧
      alloc t s.pool s.mem = (0, s.pool, s.mem)) := by
  by_cases hfree : s.pool.firstFree = 0
  · have hnil : s.freed = [] := by
      have hchain := h.chain
      rw [hfree] at hchain
      exact hchain.eq_nil
    obtain ⟨hcur, hcap, hnull, haddr⟩ := h.backed
    have hsum : (s.pool.arena.cur + t.size).toNat = s.pool.arena.cur.toNat + t.size.toNat :=
      Word.toNat_add_of_lt (by omega)
    by_cases hfit : s.pool.arena.cur + t.size ≤ s.pool.arena.cap
    · have hle := UInt64.le_iff_toNat_le.mp hfit
      have hptr : (UInt64.ofNat (base s.pool.arena + s.pool.arena.cur.toNat)).toNat
          = base s.pool.arena + s.pool.arena.cur.toNat :=
        Word.toNat_ofNat_of_lt_size (by omega)
      refine .inr (.inl ⟨_, s.pool.arena.cur + t.size, hnil, hfree, ?_, hptr, hsum, hfit, ?_⟩)
      · intro hzero
        rw [hzero, UInt64.toNat_zero] at hptr
        omega
      · unfold alloc sdbArenaPushZero object
        rw [hptr]
        simp [hfree, hfit, toWord, base]
    · have hlt : s.pool.arena.cap.toNat < s.pool.arena.cur.toNat + t.size.toNat := by
        rw [UInt64.le_iff_toNat_le, hsum] at hfit
        exact Nat.lt_of_not_le hfit
      refine .inr (.inr ⟨hnil, hfree, hlt, ?_⟩)
      have hsame : ({ s.pool with firstFree := 0 } : TypeNamePool) = s.pool := by
        rw [← hfree]
      simp [alloc, sdbArenaPushZero, toWord, hfree, hfit, hsame]
  · obtain ⟨rest, hfreed, htail⟩ := h.chain.exists_cons hfree
    refine .inl ⟨s.pool.firstFree, rest, hfreed, rfl, hfree, htail, ?_⟩
    simp [alloc, hfree]

/-! ### The steps keep the invariant -/

theorem afterAlloc_eq {pool : TypeNamePool} (h : alloc t s.pool s.mem = (p, pool, m)) :
    afterAlloc t s = ⟨pool, m, if p = 0 then s.live else p :: s.live, s.freed.erase p⟩ := by
  simp [afterAlloc, h]

/-- The place of the objects depends on neither their order nor whether they are live. -/
theorem Inv.of_perm (h : Inv t s) {s' : State} (harena : s'.pool.arena = s.pool.arena)
    (hperm : (s'.live ++ s'.freed).Perm (s.live ++ s.freed))
    (hchain : Chain (loadNext t s'.mem) 0 s'.pool.firstFree s'.freed) : Inv t s' where
  backed := harena ▸ h.backed
  chain := hchain
  placed := by
    intro p hp
    rw [harena]
    exact h.placed p (hperm.mem_iff.mp hp)
  apart := (hperm.pairwise_iff fun hpq => hpq.symm).mpr h.apart

theorem inv_afterAlloc (hsize : t.size.toNat < 2 ^ 63) (h : Inv t s) : Inv t (afterAlloc t s) := by
  rcases alloc_cases h hsize with
    ⟨p, rest, hfreed, -, hp, htail, hcall⟩ | ⟨p, cur, hfreed, hfree, hp, hptr, hcur, hle, hcall⟩ |
      ⟨hfreed, -, -, hcall⟩
  · have hapart : ∀ q ∈ rest, Apart t p q := by
      have hlist := (List.pairwise_append.mp h.apart).2.1
      rw [hfreed] at hlist
      exact (List.pairwise_cons.mp hlist).1
    rw [afterAlloc_eq hcall, if_neg hp, hfreed, List.erase_cons_head]
    refine h.of_perm rfl ?_ ?_
    · rw [hfreed]
      exact List.perm_middle.symm
    · refine htail.congr ?_
      intro q hq
      apply loadNext_congr
      intro a ha
      exact Memory.fill_of_notMem ((hapart q hq).symm.notMem ha)
  · have hnew : ∀ q ∈ s.live, Apart t p q := fun q hq => h.apart_of_end hptr hq
    have hroom : base s.pool.arena ≤ p.toNat := by omega
    have hstop : p.toNat + t.size.toNat = base s.pool.arena + cur.toNat := by omega
    have hmono : s.pool.arena.cur.toNat ≤ cur.toNat := by omega
    have hfreeChain : s.pool.firstFree = 0 := hfree
    have hplaced := h.placed
    have hobjects := h.apart
    rw [afterAlloc_eq hcall, if_neg hp, hfreed, List.erase_nil]
    rw [hfreed, List.append_nil] at hplaced hobjects
    constructor
    · exact ⟨UInt64.le_iff_toNat_le.mp hle, h.backed.cap_lt, h.backed.not_null,
        h.backed.addressable⟩
    · exact hfreeChain
    · intro q hq
      rw [List.append_nil] at hq
      rcases List.mem_cons.mp hq with rfl | hold
      · exact ⟨hroom, hstop.le⟩
      · obtain ⟨hlo, hhi⟩ := hplaced q hold
        exact ⟨hlo, hhi.trans (Nat.add_le_add_left hmono _)⟩
    · rw [List.append_nil]
      exact List.pairwise_cons.mpr ⟨hnew, hobjects⟩
  · rw [afterAlloc_eq hcall, if_pos rfl, hfreed, List.erase_nil]
    refine h.of_perm rfl ?_ ?_
    · rw [hfreed]
    · have hchain := h.chain
      rw [hfreed] at hchain
      exact hchain

theorem inv_afterRelease (h : Inv t s) (hp : p ∈ s.live) : Inv t (afterRelease t s p) := by
  have hnull : p ≠ 0 := by
    rintro rfl
    have hlo := (h.placed 0 (List.mem_append_left _ hp)).1
    have hpos := h.backed.not_null
    rw [UInt64.toNat_zero] at hlo
    omega
  have hperm : (s.live.erase p ++ p :: s.freed).Perm (s.live ++ s.freed) :=
    List.perm_middle.trans ((List.perm_cons_erase hp).symm.append_right s.freed)
  refine h.of_perm rfl hperm ⟨rfl, hnull, ?_⟩
  have hlink : loadNext t (afterRelease t s p).mem p = s.pool.firstFree :=
    Memory.loadWord_storeWord _ _ _
  rw [hlink]
  apply h.chain_congr
  intro q hq a ha
  apply Memory.storeWord_of_outside
  -- the link lies in `p`, and `a` does not
  have houtside : a ∉ (object t p).cells := (h.live_apart hp hq).symm.notMem ha
  have hfits := t.next_fits
  by_contra hinside
  apply houtside
  rw [mem_object]
  omega

theorem inv_write (h : Inv t s) {v : UInt8} (ha : s.Writable t a) :
    Inv t { s with mem := s.mem.write a [v] } := by
  refine h.of_perm rfl (List.Perm.refl _) ?_
  apply h.chain_congr
  intro q hq b hb
  have hne : b ≠ a := by
    rintro rfl
    rcases ha with ⟨p, hp, hobj⟩ | hbelow | habove
    · exact (h.live_apart hp hq).notMem hobj hb
    · have hlo := (h.placed q (List.mem_append_right _ hq)).1
      have hge := (mem_object.mp hb).1
      omega
    · have hhi := (h.placed q (List.mem_append_right _ hq)).2
      have hcap := h.backed.cur_le
      have hlt := (mem_object.mp hb).2
      omega
  apply Memory.write_of_outside
  rw [List.length_singleton]
  omega

theorem inv_step (hsize : t.size.toNat < 2 ^ 63) (s : State) (c : Call) (s' : State)
    (h : Inv t s) (hstep : step t s c = some s') : Inv t s' := by
  cases c with
  | alloc =>
    have heq := Option.some.inj hstep
    exact heq ▸ inv_afterAlloc hsize h
  | release p =>
    obtain ⟨hp, heq⟩ := Option.ite_none_right_eq_some.mp hstep
    exact Option.some.inj heq ▸ inv_afterRelease h hp
  | write a v =>
    obtain ⟨ha, heq⟩ := Option.ite_none_right_eq_some.mp hstep
    exact Option.some.inj heq ▸ inv_write h ha

/-! ### What the invariant gives -/

theorem served_of_inv (hsize : t.size.toNat < 2 ^ 63) (h : Inv t s)
    (hresult : (alloc t s.pool s.mem).1 = p) (hp : p ≠ 0) : Served t s (afterAlloc t s) p := by
  have hcur := h.backed.cur_le
  rcases alloc_cases h hsize with
    ⟨q, rest, hfreed, -, -, -, hcall⟩ | ⟨q, cur, hfreed, -, -, hptr, hcur', hle, hcall⟩ |
      ⟨-, -, -, hcall⟩
  · obtain rfl : q = p := by
      rw [hcall] at hresult
      exact hresult
    have hfirst : q ∈ s.freed := by
      rw [hfreed]
      exact List.mem_cons_self
    obtain ⟨hlo, hhi⟩ := h.placed q (List.mem_append_right _ hfirst)
    rw [afterAlloc_eq hcall]
    constructor
    · exact fun a ha => Memory.fill_of_mem ha
    · exact Span.within_of_bounds hlo (hhi.trans (Nat.add_le_add_left hcur _))
    · exact fun r hr => (h.live_apart hr hfirst).symm
  · obtain rfl : q = p := by
      rw [hcall] at hresult
      exact hresult
    have hcap := UInt64.le_iff_toNat_le.mp hle
    rw [afterAlloc_eq hcall]
    constructor
    · exact fun a ha => Memory.fill_of_mem ha
    · apply Span.within_of_bounds
      · show base s.pool.arena ≤ q.toNat
        omega
      · show q.toNat + t.size.toNat ≤ base s.pool.arena + s.pool.arena.cap.toNat
        omega
    · exact fun r hr => h.apart_of_end hptr hr
  · rw [hcall] at hresult
    exact absurd hresult.symm hp

theorem full_of_inv (hsize : t.size.toNat < 2 ^ 63) (h : Inv t s)
    (hresult : (alloc t s.pool s.mem).1 = 0) :
    s.pool.firstFree = 0 ∧ s.pool.arena.cap.toNat < s.pool.arena.cur.toNat + t.size.toNat := by
  rcases alloc_cases h hsize with
    ⟨p, rest, -, -, hp, -, hcall⟩ | ⟨p, cur, -, -, hp, -, -, -, hcall⟩ | ⟨-, hfree, hfull, -⟩
  · rw [hcall] at hresult
    exact absurd hresult hp
  · rw [hcall] at hresult
    exact absurd hresult hp
  · exact ⟨hfree, hfull⟩

/-- Only an `Alloc` with nothing to take pushes. -/
theorem firstFree_of_grows {c : Call} {s' : State} (hstep : step t s c = some s')
    (hgrows : s'.pool.arena ≠ s.pool.arena) : s.pool.firstFree = 0 := by
  cases c with
  | alloc =>
    by_contra hfree
    apply hgrows
    rw [← Option.some.inj hstep]
    simp [afterAlloc, alloc, hfree]
  | release p =>
    obtain ⟨-, heq⟩ := Option.ite_none_right_eq_some.mp hstep
    rw [← Option.some.inj heq] at hgrows
    exact absurd rfl hgrows
  | write a v =>
    obtain ⟨-, heq⟩ := Option.ite_none_right_eq_some.mp hstep
    rw [← Option.some.inj heq] at hgrows
    exact absurd rfl hgrows

/-- **Whatever the order of the calls, the pool hands out cleared objects of the
    arena that nothing else holds.** -/
theorem correct_of_reachable (hsize : t.size.toNat < 2 ^ 63) {s₀ : State} (hinit : Initial s₀)
    (hs : Reachable (step t) s₀ s) : Correct t s := by
  have hinv : Inv t s := hs.invariant (inv_step hsize) (inv_of_initial t hinit)
  exact
    { freeList := hinv.freeListOf
      served := fun p hresult hp => served_of_inv hsize hinv hresult hp
      null := fun hresult => full_of_inv hsize hinv hresult
      grows := fun c s' hstep hgrows => firstFree_of_grows hstep hgrows }

/-- A node of two words. -/
def node : TypeName := ⟨16, 8, by decide⟩

def emptyPool : State := ⟨⟨⟨0, 40, 4096⟩, 0⟩, fun _ => 7, [], []⟩

theorem correct_after_release :
    Correct node (afterRelease node (afterAlloc node emptyPool) 4096) :=
  correct_of_reachable (by decide)
    (show Initial emptyPool from
      ⟨⟨by decide, by decide, by decide, by decide⟩, rfl, rfl, rfl⟩)
    ⟨[.alloc, .release 4096], by rfl⟩

/-- The second object released is the first to come back, and `NULL` is answered
    once the room is gone. -/
example : ((run (step node) emptyPool [.alloc, .alloc, .release 4096, .release 4112, .alloc]).map
    fun s => (s.live, s.freed, (afterAlloc node (afterAlloc node s)).live)) =
      some ([4112], [4096], [4096, 4112]) := by
  decide +kernel

end

end Lmalloc.Arena.Pool
