/-
  Lmalloc/Benchmark/EachSize.lean
  ===============================
  **The record of a size holds the header of all sizes so far.**

  A timed allocation adds its time to two accumulators of `allocator_wrappers.c`,
  the sums in `tstats` and the collection in `tcoll`.  `each_size_by_itself` sets
  the collection back before each size and nothing sets the sums back, so that a
  record describes the size it is written for when `tstats` is zero before the
  size (`describes_iff`), which is the first size of a new process only.

  The allocators and the times measured are arguments.  A run is `none` when the
  process is killed: by the write through a pointer that the allocator could not
  give, or by one past the end of the array of times.
-/
import Lmalloc.Library.Run
import Lmalloc.Library.Memory

namespace Lmalloc.Benchmark

open Lmalloc.Library

/-! ### The accumulators -/

structure AllocTstats where
  totalTsc : UInt64
  iter : UInt64
deriving DecidableEq, Repr

/-- Where `tcoll.arr` points is the same array throughout. -/
structure AllocTcoll where
  cap : UInt64
  cur : UInt64
deriving DecidableEq, Repr

/-- The process: `tstats` and `tcoll`, the words of `timing_arr`, and what the allocators
    work on. -/
structure Process (σ : Type*) where
  tstats : AllocTstats
  tcoll : AllocTcoll
  timingArr : List UInt64
  world : σ

variable {σ : Type*}

def initAllocTcoll (cap : UInt64) (s : Process σ) : Process σ :=
  { s with tcoll := { cap := cap, cur := 0 } }

def addTiming (t : UInt64) (s : Process σ) : Option (Process σ) :=
  if s.tcoll.cur.toNat < s.timingArr.length then
    some { s with
      tcoll := { s.tcoll with cur := s.tcoll.cur + 1 }
      timingArr := s.timingArr.set s.tcoll.cur.toNat t }
  else
    none

/-! ### The timed allocators -/

/-- The allocators, the functions that give their memory back, and a write of one byte. -/
structure Allocators (σ : Type*) where
  okaAlloc : Option Addr → UInt64 → σ → Option Addr × σ
  kaAlloc : Option Addr → UInt64 → σ → Option Addr × σ
  uaAlloc : Option Addr → UInt64 → σ → Option Addr × σ
  uaZalloc : Option Addr → UInt64 → σ → Option Addr × σ
  uaFalloc : Option Addr → UInt64 → σ → Option Addr × σ
  uaFzalloc : Option Addr → UInt64 → σ → Option Addr × σ
  malloc : UInt64 → σ → Option Addr × σ
  calloc : UInt64 → UInt64 → σ → Option Addr × σ
  uaFree : Addr → σ → σ
  kaFree : Addr → σ → σ
  okaFree : Addr → σ → σ
  store : Addr → UInt8 → σ → Option σ

/-- An allocation between two readings of the time stamp counter that are `allocTime` apart. -/
def timed (alloc : σ → Option Addr × σ) (allocTime : UInt64) (s : Process σ) :
    Option (Option Addr × Process σ) :=
  let (ptr, world) := alloc s.world
  let tstats : AllocTstats :=
    { totalTsc := s.tstats.totalTsc + allocTime, iter := s.tstats.iter + 1 }
  (addTiming allocTime { s with tstats := tstats, world := world }).map fun s => (ptr, s)

section Wrappers

variable (A : Allocators σ) (ua ka : Option Addr) (sz : UInt64)

def okaAllocTimed := timed (A.okaAlloc ka sz)
def kaAllocTimed := timed (A.kaAlloc ka sz)
def uaAllocTimed := timed (A.uaAlloc ua sz)
def uaZallocTimed := timed (A.uaZalloc ua sz)
def uaFallocTimed := timed (A.uaFalloc ua sz)
def uaFzallocTimed := timed (A.uaFzalloc ua sz)
def mallocTimed := timed (A.malloc sz)
def callocTimed := timed (A.calloc 1 sz)

end Wrappers

/-- The functions an `alloc_fn_t` points to. -/
inductive AllocFn where
  | okaAllocTimed | kaAllocTimed | uaAllocTimed | uaZallocTimed | uaFallocTimed | uaFzallocTimed
  | mallocTimed | callocTimed
deriving DecidableEq, Repr

def AllocFn.call (A : Allocators σ) (ua ka : Option Addr) (sz : UInt64) :
    AllocFn → UInt64 → Process σ → Option (Option Addr × Process σ)
  | okaAllocTimed => Benchmark.okaAllocTimed A ka sz
  | kaAllocTimed => Benchmark.kaAllocTimed A ka sz
  | uaAllocTimed => Benchmark.uaAllocTimed A ua sz
  | uaZallocTimed => Benchmark.uaZallocTimed A ua sz
  | uaFallocTimed => Benchmark.uaFallocTimed A ua sz
  | uaFzallocTimed => Benchmark.uaFzallocTimed A ua sz
  | mallocTimed => Benchmark.mallocTimed A sz
  | callocTimed => Benchmark.callocTimed A sz

inductive AllocType where
  | malloc | calloc | realloc | free | okaAlloc | kaAlloc | uaAlloc | uaZalloc | uaFalloc
  | uaFzalloc | uaRealloc | unknown
deriving DecidableEq, Repr

def getAllocType : AllocFn → AllocType
  | .okaAllocTimed => .okaAlloc
  | .kaAllocTimed => .kaAlloc
  | .uaAllocTimed => .uaAlloc
  | .uaZallocTimed => .uaZalloc
  | .uaFallocTimed => .uaFalloc
  | .uaFzallocTimed => .uaFzalloc
  | .mallocTimed => .malloc
  | .callocTimed => .calloc

/-! ### The test -/

/-- A file of timings: the directory it is in names the allocator and the size, and it holds
    `tstats`, `tcoll.cur` and the collection. -/
structure Record where
  type : AllocType
  allocSize : UInt64
  tstats : AllocTstats
  cur : UInt64
  arr : List UInt64
deriving DecidableEq, Repr

def writeDataToFile (allocFn : AllocFn) (allocSize : UInt64) (s : Process σ) : Record where
  type := getAllocType allocFn
  allocSize := allocSize
  tstats := s.tstats
  cur := s.tcoll.cur
  -- `tcoll.cur * sizeof(uint64_t)` bytes are written
  arr := s.timingArr.take (s.tcoll.cur * 8 / 8).toNat

section Test

variable (A : Allocators σ) (allocFn : AllocFn) (testUa testKa : Option Addr)

/-- The body of the inner loop; `*ptr = 1` kills the process when `ptr` is `NULL`. -/
def allocate (allocSize : UInt64) (s : Process σ) (time : UInt64) : Option (Process σ) :=
  match allocFn.call A testUa testKa allocSize time s with
  | some (some ptr, s) => (A.store ptr 1 s.world).map fun world => { s with world := world }
  | _ => none

def giveBack (s : Process σ) : Process σ :=
  let world := testUa.elim s.world fun ua => A.uaFree ua s.world
  let world := testKa.elim world fun ka =>
    match allocFn with
    | .kaAllocTimed => A.kaFree ka world
    | .okaAllocTimed => A.okaFree ka world
    | _ => world
  { s with world := world }

/-- The times measured for the size with number `j`. -/
def measured (allocIterations : UInt64) (times : ℕ → ℕ → UInt64) (j : ℕ) : List UInt64 :=
  (List.range allocIterations.toNat).map (times j)

variable (allocIterations : UInt64) (times : ℕ → ℕ → UInt64)

/-- The outer loop from the size with number `j` on. -/
def eachSize : ℕ → List UInt64 → Process σ → Option (List Record × Process σ)
  | _, [], s => some ([], s)
  | j, allocSize :: allocSizes, s => do
      let s ← run (allocate A allocFn testUa testKa allocSize) (initAllocTcoll allocIterations s)
        (measured allocIterations times j)
      let s := giveBack A allocFn testUa testKa s
      let (records, s') ← eachSize (j + 1) allocSizes s
      some (writeDataToFile allocFn allocSize s :: records, s')

/-- The records written, in the order of the sizes.  The array has `timing_vals_sz` bytes. -/
def eachSizeByItself (allocSizes : List UInt64) (s : Process σ) :
    Option (List Record × Process σ) :=
  let timingValsSz := allocIterations * 8
  eachSize A allocFn testUa testKa allocIterations times 0 allocSizes
    { s with timingArr := List.replicate (timingValsSz / 8).toNat 0 }

end Test

/-! ### One allocation -/

/-- The sums after the times `ts` have been added. -/
def AllocTstats.addAll (t : AllocTstats) (ts : List UInt64) : AllocTstats where
  totalTsc := t.totalTsc + ts.sum
  iter := t.iter + UInt64.ofNat ts.length

@[simp] theorem AllocTstats.addAll_nil (t : AllocTstats) : t.addAll [] = t := by
  simp [AllocTstats.addAll]

theorem AllocTstats.addAll_concat (t : AllocTstats) (ts : List UInt64) (x : UInt64) :
    t.addAll (ts ++ [x]) = (t.addAll ts).addAll [x] := by
  simp [AllocTstats.addAll, add_assoc]

/-- What a timed allocation does to the accumulators. -/
structure AddsTime (t : UInt64) (s s' : Process σ) : Prop where
  room : s.tcoll.cur.toNat < s.timingArr.length
  tstats : s'.tstats = s.tstats.addAll [t]
  cur : s'.tcoll.cur = s.tcoll.cur + 1
  timingArr : s'.timingArr = s.timingArr.set s.tcoll.cur.toNat t

theorem timed_addsTime {alloc : σ → Option Addr × σ} {t : UInt64} {s s' : Process σ}
    {ptr : Option Addr} (h : timed alloc t s = some (ptr, s')) : AddsTime t s s' := by
  simp only [timed, addTiming, Option.map_eq_some_iff, Option.ite_none_right_eq_some,
    Prod.mk.injEq] at h
  obtain ⟨s₁, ⟨hroom, heq⟩, -, rfl⟩ := h
  obtain rfl := Option.some.inj heq
  exact { room := hroom, tstats := by simp [AllocTstats.addAll], cur := rfl, timingArr := rfl }

/-- Every allocator is timed in the same way. -/
theorem call_addsTime {A : Allocators σ} {allocFn : AllocFn} {ua ka : Option Addr}
    {sz t : UInt64} {s s' : Process σ} {ptr : Option Addr}
    (h : allocFn.call A ua ka sz t s = some (ptr, s')) : AddsTime t s s' := by
  cases allocFn
  all_goals exact timed_addsTime h

theorem allocate_addsTime {A : Allocators σ} {allocFn : AllocFn} {ua ka : Option Addr}
    {sz t : UInt64} {s s' : Process σ} (h : allocate A allocFn ua ka sz s t = some s') :
    AddsTime t s s' := by
  unfold allocate at h
  split at h
  · rename_i ptr s₁ hcall
    obtain ⟨world, -, rfl⟩ := Option.map_eq_some_iff.mp h
    have hadds := call_addsTime hcall
    exact { room := hadds.room, tstats := hadds.tstats, cur := hadds.cur,
            timingArr := hadds.timingArr }
  · cases h

/-! ### The allocations of one size -/

/-- The times `ts` have been measured since the sums were `t₀` and the collection, for which
    there are `len` words, was empty. -/
structure Collected (t₀ : AllocTstats) (len : ℕ) (ts : List UInt64) (s : Process σ) : Prop where
  tstats : s.tstats = t₀.addAll ts
  cur : s.tcoll.cur.toNat = ts.length
  length : s.timingArr.length = len
  timingArr : s.timingArr.take ts.length = ts

theorem Collected.initAllocTcoll (cap : UInt64) (s : Process σ) :
    Collected s.tstats s.timingArr.length [] (initAllocTcoll cap s) where
  tstats := (AllocTstats.addAll_nil _).symm
  cur := rfl
  length := rfl
  timingArr := rfl

theorem Collected.step {t₀ : AllocTstats} {len : ℕ} {ts : List UInt64} {t : UInt64}
    {s s' : Process σ} (hlen : len < 2 ^ 64) (hs : Collected t₀ len ts s) (h : AddsTime t s s') :
    Collected t₀ len (ts ++ [t]) s' := by
  have hroom : ts.length < s.timingArr.length := by
    rw [← hs.cur]
    exact h.room
  constructor
  · rw [h.tstats, hs.tstats, AllocTstats.addAll_concat]
  · have hsmall : ts.length + 1 < 2 ^ 64 := by
      have := hs.length
      omega
    rw [h.cur, UInt64.toNat_add, hs.cur, List.length_append]
    exact Nat.mod_eq_of_lt hsmall
  · rw [h.timingArr, List.length_set, hs.length]
  · rw [h.timingArr, hs.cur, List.length_append, List.length_singleton,
      List.take_succ_eq_append_getElem (by simpa using hroom), List.getElem_set_self,
      List.take_set, List.set_eq_of_length_le (by simp), hs.timingArr]

theorem Collected.run {A : Allocators σ} {allocFn : AllocFn} {ua ka : Option Addr}
    {sz : UInt64} {t₀ : AllocTstats} {len : ℕ} (hlen : len < 2 ^ 64) {ts ts' : List UInt64}
    {s s' : Process σ} (hs : Collected t₀ len ts s)
    (h : run (allocate A allocFn ua ka sz) s ts' = some s') :
    Collected t₀ len (ts ++ ts') s' := by
  induction ts' generalizing ts s with
  | nil =>
    obtain rfl : s = s' := by simpa using h
    simpa using hs
  | cons t ts' ih =>
    obtain ⟨s₁, hstep, hrun⟩ := run_cons_eq_some.mp h
    have := ih (hs.step hlen (allocate_addsTime hstep)) hrun
    simpa using this

/-! ### The records -/

/-- The sums with which the size with number `j` begins. -/
def sumsBefore (allocIterations : UInt64) (times : ℕ → ℕ → UInt64) (t₀ : AllocTstats) :
    ℕ → AllocTstats
  | 0 => t₀
  | j + 1 => (sumsBefore allocIterations times t₀ j).addAll (measured allocIterations times j)

/-- What is written for a size that begins with the sums `t₀`. -/
def recordAfter (allocFn : AllocFn) (allocSize : UInt64) (t₀ : AllocTstats) (cur : UInt64)
    (ts : List UInt64) : Record where
  type := getAllocType allocFn
  allocSize := allocSize
  tstats := t₀.addAll ts
  cur := cur
  arr := ts

@[simp] theorem length_measured (n : UInt64) (times : ℕ → ℕ → UInt64) (j : ℕ) :
    (measured n times j).length = n.toNat := by
  simp [measured]

theorem Collected.writeDataToFile {t₀ : AllocTstats} {len : ℕ} {n : UInt64} {ts : List UInt64}
    {s : Process σ} (hlen : len < 2 ^ 61) (hn : ts.length = n.toNat)
    (hs : Collected t₀ len ts s) (allocFn : AllocFn) (allocSize : UInt64) :
    writeDataToFile allocFn allocSize s = recordAfter allocFn allocSize t₀ n ts := by
  have hcur : s.tcoll.cur = n := UInt64.toNat.inj (hs.cur.trans hn)
  have hfits : n.toNat ≤ len := by
    have htake := congrArg List.length hs.timingArr
    rw [List.length_take, hs.length] at htake
    omega
  have hbytes : (n * 8 / 8).toNat = ts.length := by
    rw [hn, UInt64.toNat_div, UInt64.toNat_mul]
    simp only [UInt64.reduceToNat]
    omega
  simp only [Benchmark.writeDataToFile, recordAfter, hcur, hbytes, hs.tstats, hs.timingArr]

section Records

variable {A : Allocators σ} {allocFn : AllocFn} {testUa testKa : Option Addr}
  {n : UInt64} {times : ℕ → ℕ → UInt64}

theorem Collected.giveBack {t₀ : AllocTstats} {len : ℕ} {ts : List UInt64} {s : Process σ}
    (hs : Collected t₀ len ts s) : Collected t₀ len ts (giveBack A allocFn testUa testKa s) where
  tstats := hs.tstats
  cur := hs.cur
  length := hs.length
  timingArr := hs.timingArr

/-- The records, from the size with number `j` on. -/
theorem eachSize_records {t₀ : AllocTstats} {sizes : List UInt64} {j : ℕ} {s s' : Process σ}
    {records : List Record} (hlen : s.timingArr.length < 2 ^ 61)
    (hs : s.tstats = sumsBefore n times t₀ j)
    (h : eachSize A allocFn testUa testKa n times j sizes s = some (records, s')) :
    records = sizes.mapIdx fun i size =>
      recordAfter allocFn size (sumsBefore n times t₀ (j + i)) n (measured n times (j + i)) := by
  induction sizes generalizing j s records with
  | nil =>
    simp only [eachSize, Option.some.injEq, Prod.mk.injEq] at h
    simp [← h.1]
  | cons size sizes ih =>
    simp only [eachSize, Option.bind_eq_bind, Option.bind_eq_some_iff, Option.some.injEq,
      Prod.mk.injEq, Prod.exists] at h
    obtain ⟨s₁, hrun, records', s₂, hrest, rfl, rfl⟩ := h
    have hall := (Collected.initAllocTcoll n s).run (hlen.trans (by norm_num)) hrun
    have hdone : Collected s.tstats s.timingArr.length (measured n times j)
        (Benchmark.giveBack A allocFn testUa testKa s₁) := hall.giveBack
    have hhead := hdone.writeDataToFile hlen (length_measured n times j) allocFn size
    have htail := ih (j := j + 1) (by rwa [hdone.length]) (by rw [hdone.tstats, hs]; rfl) hrest
    rw [List.mapIdx_cons, hhead, htail, hs]
    simp only [Nat.add_zero, Nat.add_assoc, Nat.add_comm 1]

theorem eachSizeByItself_records {sizes : List UInt64} {s s' : Process σ} {records : List Record}
    (h : eachSizeByItself A allocFn testUa testKa n times sizes s = some (records, s')) :
    records = sizes.mapIdx fun j size =>
      recordAfter allocFn size (sumsBefore n times s.tstats j) n (measured n times j) := by
  have hlen : (List.replicate (n * 8 / 8).toNat (0 : UInt64)).length < 2 ^ 61 := by
    rw [List.length_replicate, UInt64.toNat_div]
    have := (n * 8).toNat_lt
    simp only [UInt64.reduceToNat]
    omega
  have hrecords := eachSize_records hlen (j := 0) rfl h
  simpa using hrecords

end Records

/-! ### Which records describe their size -/

/-- The record is about `n` allocations of `allocSize` bytes, which took the times `ts`. -/
structure Record.Describes (r : Record) (allocSize n : UInt64) (ts : List UInt64) : Prop where
  allocSize : r.allocSize = allocSize
  cur : r.cur = n
  arr : r.arr = ts
  iter : r.tstats.iter = n
  totalTsc : r.tstats.totalTsc = ts.sum

theorem describes_iff {allocFn : AllocFn} {allocSize n : UInt64} {t₀ : AllocTstats}
    {ts : List UInt64} (hn : ts.length = n.toNat) :
    (recordAfter allocFn allocSize t₀ n ts).Describes allocSize n ts ↔
      t₀ = { totalTsc := 0, iter := 0 } := by
  have hlength : UInt64.ofNat ts.length = n := by rw [hn, UInt64.ofNat_toNat]
  constructor
  · intro h
    have hiter : t₀.iter + n = n := by
      rw [← hlength]
      exact h.iter.trans hlength.symm
    have htotal : t₀.totalTsc + ts.sum = ts.sum := h.totalTsc
    rw [add_eq_right] at hiter htotal
    cases t₀
    simp_all
  · rintro rfl
    exact { allocSize := rfl, cur := rfl, arr := rfl
            iter := (zero_add _).trans hlength, totalTsc := zero_add _ }

/-- `average_tsc` of the analysis script. -/
def averageTsc (stats : AllocTstats) : ℚ := stats.totalTsc.toNat / stats.iter.toNat

/-- Where the sum of the times is a number of 64 bits, the script computes their mean. -/
theorem Record.Describes.average {r : Record} {allocSize n : UInt64} {ts : List UInt64}
    (hr : r.Describes allocSize n ts) (hn : ts.length = n.toNat)
    (hsum : (ts.map UInt64.toNat).sum < 2 ^ 64) :
    averageTsc r.tstats = (ts.map UInt64.toNat).sum / ts.length := by
  have htotal : ∀ xs : List UInt64, xs.sum.toNat = (xs.map UInt64.toNat).sum % 2 ^ 64 := by
    intro xs
    induction xs with
    | nil => rfl
    | cons x xs ih =>
      rw [List.sum_cons, UInt64.toNat_add, ih, List.map_cons, List.sum_cons, Nat.add_mod_mod]
  rw [averageTsc, hr.totalTsc, hr.iter, htotal, Nat.mod_eq_of_lt hsum, hn]

/-- Every size has a record, which describes it. -/
def EachDescribesOwn (n : UInt64) (times : ℕ → ℕ → UInt64) (allocSizes : List UInt64)
    (records : List Record) : Prop :=
  ∀ j allocSize, allocSizes[j]? = some allocSize →
    ∃ r : Record, records[j]? = some r ∧ r.Describes allocSize n (measured n times j)

theorem each_describes_own_iff {A : Allocators σ} {allocFn : AllocFn}
    {testUa testKa : Option Addr} {n : UInt64} {times : ℕ → ℕ → UInt64}
    {allocSizes : List UInt64} {s s' : Process σ} {records : List Record} (hn : 1 ≤ n)
    (h : eachSizeByItself A allocFn testUa testKa n times allocSizes s = some (records, s')) :
    EachDescribesOwn n times allocSizes records ↔
      allocSizes = [] ∨ allocSizes.length = 1 ∧ s.tstats = { totalTsc := 0, iter := 0 } := by
  have hrecord : ∀ {j allocSize}, allocSizes[j]? = some allocSize →
      ((∃ r : Record, records[j]? = some r ∧ r.Describes allocSize n (measured n times j)) ↔
        sumsBefore n times s.tstats j = { totalTsc := 0, iter := 0 }) := by
    intro j allocSize hj
    rw [eachSizeByItself_records h, List.getElem?_mapIdx, hj]
    simp [describes_iff]
  constructor
  · intro hall
    cases allocSizes with
    | nil => exact Or.inl rfl
    | cons a rest =>
      have hzero : s.tstats = { totalTsc := 0, iter := 0 } := (hrecord (j := 0) rfl).mp (hall 0 a rfl)
      cases rest with
      | nil => exact Or.inr ⟨rfl, hzero⟩
      | cons b rest =>
        -- the second size begins with the sums of the first
        have hsecond : s.tstats.addAll (measured n times 0) = { totalTsc := 0, iter := 0 } :=
          (hrecord (j := 1) rfl).mp (hall 1 b rfl)
        have hiter : n = 0 := by
          simpa [AllocTstats.addAll, hzero] using congrArg AllocTstats.iter hsecond
        subst hiter
        exact absurd hn (by decide)
  · rintro (rfl | ⟨hone, hzero⟩) j allocSize hj
    · simp at hj
    · have hj0 : j = 0 := by
        have := (List.getElem?_eq_some_iff.mp hj).1
        omega
      subst hj0
      exact (hrecord hj).mpr hzero

/-- Allocators that give out one byte after the other, from address 4096 on; the state is how
    many are in use. -/
def fromOnePlace : Allocators UInt64 :=
  let alloc (sz used : UInt64) : Option Addr × UInt64 := (some (4096 + used.toNat), used + sz)
  let free (_ : Addr) (_ : UInt64) : UInt64 := 0
  { okaAlloc := fun _ => alloc, kaAlloc := fun _ => alloc, uaAlloc := fun _ => alloc
    uaZalloc := fun _ => alloc, uaFalloc := fun _ => alloc, uaFzalloc := fun _ => alloc
    malloc := alloc, calloc := fun nmemb size => alloc (nmemb * size)
    uaFree := free, kaFree := free, okaFree := free
    store := fun _ _ used => some used }

/-- A process that has not timed anything yet. -/
def newProcess : Process UInt64 where
  tstats := { totalTsc := 0, iter := 0 }
  tcoll := { cap := 0, cur := 0 }
  timingArr := []
  world := 0

/-- Two allocations of 32 bytes from an arena, in a new process. -/
theorem each_describes_own_one_size :
    EachDescribesOwn 2 (fun _ i => if i = 0 then 90 else 30) [32]
        [recordAfter .uaAllocTimed 32 { totalTsc := 0, iter := 0 } 2 [90, 30]] ↔
      [(32 : UInt64)] = [] ∨
        [(32 : UInt64)].length = 1 ∧ newProcess.tstats = { totalTsc := 0, iter := 0 } := by
  have hrun : eachSizeByItself fromOnePlace .uaAllocTimed (some 64) none 2
      (fun _ i => if i = 0 then 90 else 30) [32] newProcess =
        some ([recordAfter .uaAllocTimed 32 { totalTsc := 0, iter := 0 } 2 [90, 30]],
          { newProcess with tstats := ⟨120, 2⟩, tcoll := ⟨2, 2⟩, timingArr := [90, 30] }) := rfl
  exact each_describes_own_iff (by decide) hrun

/-- One allocation of 16 bytes and one of 32: the second record counts both. -/
theorem second_size_not_described :
    ∃ records s', eachSizeByItself fromOnePlace .uaAllocTimed (some 64) none 1
        (fun j _ => if j = 0 then 90 else 30) [16, 32] newProcess = some (records, s') ∧
      (records.map Record.tstats = [⟨90, 1⟩, ⟨120, 2⟩] ∧ records.map Record.arr = [[90], [30]]) ∧
      ¬ EachDescribesOwn 1 (fun j _ => if j = 0 then 90 else 30) [16, 32] records := by
  refine ⟨_, _, rfl, ⟨rfl, rfl⟩, ?_⟩
  intro hall
  obtain ⟨r, hr, hdescribes⟩ := hall 1 32 rfl
  obtain rfl := Option.some.inj hr
  exact absurd hdescribes.iter (by decide)

end Lmalloc.Benchmark
