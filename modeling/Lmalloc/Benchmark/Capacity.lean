/-
  Lmalloc/Benchmark/Capacity.lean
  ===============================
  **The capacity check of `tight_loop_test` and the two loops it stands before.**

  The check compares the arena with the largest size times the iterations.  That is
  what `each_size_by_itself` uses at most, which frees the arena after each size.
  `all_sizes_repeatedly` frees it at the end only, so what it needs is the sum of
  the sizes times the iterations; and its index `j` is an `uint`, which never
  reaches a length of `2^32`.

  Both loops are machines that take one round at a time and stop where an
  allocation returns `NULL`, which the round dereferences.
-/
import Lmalloc.Arena.UArena
import Lmalloc.Library.Run

namespace Lmalloc.Benchmark.Capacity

open Lmalloc.Library Lmalloc.Library.Word Lmalloc.Arena

/-! ### The loops -/

/-- `LmAssert` over the size of the arena; the product is a `size_t`. -/
def checkPasses (arenaSz largestSz allocIterations : UInt64) : Prop :=
  largestSz * allocIterations ≤ arenaSz

instance (arenaSz largestSz allocIterations : UInt64) :
    Decidable (checkPasses arenaSz largestSz allocIterations) :=
  inferInstanceAs (Decidable (_ ≤ _))

/-- The allocation of a round, and `*ptr = 1`. -/
def allocateFrom (ua : UArena) (size : UInt64) : Option UArena :=
  match uaAlloc ua size with
  | (some _, ua) => some ua
  | (none, _) => none

structure AllSizes where
  i : ℕ
  j : UInt32
  ua : UArena
deriving DecidableEq, Repr

def allSizesRepeatedly (allocSizes : List UInt64) (allocIterations : UInt64) (s : AllSizes)
    (_ : Unit) : Option AllSizes :=
  if s.i < allocIterations.toNat then
    match allocSizes[s.j.toNat]? with
    | some size => (allocateFrom s.ua size).map fun ua => { s with j := s.j + 1, ua := ua }
    | none => some { s with i := s.i + 1, j := 0 }
  else none

structure EachSize where
  j : ℕ
  i : ℕ
  ua : UArena
deriving DecidableEq, Repr

def eachSizeByItself (allocSizes : List UInt64) (allocIterations : UInt64) (s : EachSize)
    (_ : Unit) : Option EachSize :=
  match allocSizes[s.j]? with
  | some size =>
      if s.i < allocIterations.toNat then
        (allocateFrom s.ua size).map fun ua => { s with i := s.i + 1, ua := ua }
      else some { j := s.j + 1, i := 0, ua := uaFree s.ua }
  | none => none

/-! ### What is claimed -/

/-- No round of `all_sizes_repeatedly` gets `NULL`. -/
def AllSizesServed (allocSizes : List UInt64) (allocIterations : UInt64) (ua : UArena) : Prop :=
  ∀ s, Reachable (allSizesRepeatedly allocSizes allocIterations) ⟨0, 0, ua⟩ s →
    s.i < allocIterations.toNat → ∀ size, allocSizes[s.j.toNat]? = some size →
      (uaAlloc s.ua size).1 ≠ none

def EachSizeServed (allocSizes : List UInt64) (allocIterations : UInt64) (ua : UArena) : Prop :=
  ∀ s, Reachable (eachSizeByItself allocSizes allocIterations) ⟨0, 0, ua⟩ s →
    s.i < allocIterations.toNat → ∀ size, allocSizes[s.j]? = some size →
      (uaAlloc s.ua size).1 ≠ none

def total (sizes : List UInt64) : ℕ := (sizes.map UInt64.toNat).sum

/-- The arena holds the sum of the sizes times the iterations; or nothing is ever
    asked for. -/
def HoldsAll (allocSizes : List UInt64) (allocIterations cap : UInt64) : Prop :=
  allocIterations = 0 ∨ (∀ size ∈ allocSizes.take (2 ^ 32), size = 0) ∨
    (allocSizes.length < 2 ^ 32 ∧ allocIterations.toNat * total allocSizes ≤ cap.toNat)

/-! ### One allocation -/

section Allocation

variable {ua ua' : UArena} {size : UInt64}

theorem allocateFrom_of_fits (h : ua.cur.toNat + size.toNat ≤ ua.cap.toNat) :
    allocateFrom ua size = some { ua with cur := ua.cur + size } := by
  simp only [allocateFrom, uaAlloc_of_fits h]

theorem uaAlloc_ne_none_iff (h : ua.cur.toNat + size.toNat < 2 ^ 64) :
    (uaAlloc ua size).1 ≠ none ↔ ua.cur.toNat + size.toNat ≤ ua.cap.toNat := by
  rw [uaAlloc_of_lt h]
  split
  · rename_i hfits
    exact iff_of_true (Option.some_ne_none _) hfits
  · rename_i hover
    exact iff_of_false (by simp) hover

theorem total_take_succ {sizes : List UInt64} {n : ℕ} (h : sizes[n]? = some size) :
    total (sizes.take (n + 1)) = total (sizes.take n) + size.toNat := by
  rw [total, total, List.take_add_one, h]
  simp

theorem total_append (xs ys : List UInt64) : total (xs ++ ys) = total xs + total ys := by
  simp [total]

theorem total_take_le (sizes : List UInt64) (n : ℕ) : total (sizes.take n) ≤ total sizes := by
  conv_rhs => rw [← List.take_append_drop n sizes, total_append]
  exact Nat.le_add_right _ _

end Allocation

/-! ### Each size by itself -/

section Sizes

variable {sizes : List UInt64} {iters largest : UInt64} {cap : ℕ}

/-- The last of the ascending sizes is the largest. -/
theorem le_largest (hasc : sizes.Pairwise (· ≤ ·)) (hlast : sizes.getLast? = some largest)
    {size : UInt64} (hmem : size ∈ sizes) : size ≤ largest := by
  obtain ⟨init, rfl⟩ := List.getLast?_eq_some_iff.mp hlast
  rw [List.pairwise_append] at hasc
  rcases List.mem_append.mp hmem with hinit | hend
  · exact hasc.2.2 size hinit largest (List.mem_singleton_self largest)
  · exact (List.mem_singleton.mp hend) ▸ UInt64.le_refl _

/-- Round `i` of a size finds `i` blocks of it in the arena. -/
structure EachSizeAt (sizes : List UInt64) (iters : UInt64) (cap : ℕ) (s : EachSize) : Prop where
  cap_eq : s.ua.cap.toNat = cap
  i_le : s.i ≤ iters.toNat
  cur_eq : ∀ size, sizes[s.j]? = some size → s.ua.cur.toNat = s.i * size.toNat

theorem EachSizeAt.fits (hall : ∀ size ∈ sizes, size.toNat * iters.toNat ≤ cap) {s : EachSize}
    (h : EachSizeAt sizes iters cap s) (hi : s.i < iters.toNat) {size : UInt64}
    (hsize : sizes[s.j]? = some size) : s.ua.cur.toNat + size.toNat ≤ s.ua.cap.toNat := by
  have hneeded := hall size (List.mem_of_getElem? hsize)
  have hround : (s.i + 1) * size.toNat ≤ iters.toNat * size.toNat :=
    Nat.mul_le_mul_right _ hi
  rw [h.cur_eq size hsize, h.cap_eq, ← Nat.succ_mul]
  apply le_trans hround
  rwa [Nat.mul_comm]

theorem EachSizeAt.step (hall : ∀ size ∈ sizes, size.toNat * iters.toNat ≤ cap) {s s' : EachSize}
    {u : Unit} (h : EachSizeAt sizes iters cap s) (hstep : eachSizeByItself sizes iters s u = some s') :
    EachSizeAt sizes iters cap s' := by
  simp only [eachSizeByItself] at hstep
  split at hstep
  · rename_i size hsize
    split at hstep
    · rename_i hi
      have hfits := h.fits hall hi hsize
      rw [allocateFrom_of_fits hfits] at hstep
      obtain rfl := Option.some.inj hstep
      refine ⟨h.cap_eq, hi, ?_⟩
      intro size' hsize'
      obtain rfl := Option.some.inj (hsize.symm.trans hsize')
      rw [toNat_cur_add hfits, h.cur_eq size hsize, ← Nat.succ_mul]
    · obtain rfl := Option.some.inj hstep
      refine ⟨h.cap_eq, Nat.zero_le _, ?_⟩
      intro size' _
      simp [uaFree]
  · cases hstep

/-- Whatever the number of sizes, the loop that frees the arena between them needs
    the largest only. -/
theorem eachSizeServed_of_check (hall : ∀ size ∈ sizes, size.toNat * iters.toNat ≤ cap)
    {ua : UArena} (hcap : ua.cap.toNat = cap) (hcur : ua.cur = 0) :
    EachSizeServed sizes iters ua := by
  intro s hreach hi size hsize
  have hstart : EachSizeAt sizes iters cap ⟨0, 0, ua⟩ :=
    ⟨hcap, Nat.zero_le _, by simp [hcur]⟩
  have h := hreach.invariant (fun _ _ _ hs hstep => hs.step hall hstep) hstart
  rw [uaAlloc_of_fits (h.fits hall hi hsize)]
  exact Option.some_ne_none _

/-! ### All sizes repeatedly -/

/-- The cursor is what the rounds so far have taken. -/
structure AllSizesAt (sizes : List UInt64) (iters : UInt64) (cap : ℕ) (s : AllSizes) : Prop where
  cap_eq : s.ua.cap.toNat = cap
  j_le : s.j.toNat ≤ sizes.length
  cur_eq : s.ua.cur.toNat = s.i * total sizes + total (sizes.take s.j.toNat)

theorem toNat_succ_of_lt {j : UInt32} (h : j.toNat + 1 < 2 ^ 32) : (j + 1).toNat = j.toNat + 1 := by
  rw [UInt32.toNat_add]
  exact Nat.mod_eq_of_lt h

theorem AllSizesAt.fits (hsum : iters.toNat * total sizes ≤ cap) {s : AllSizes}
    (h : AllSizesAt sizes iters cap s) (hi : s.i < iters.toNat) {size : UInt64}
    (hsize : sizes[s.j.toNat]? = some size) : s.ua.cur.toNat + size.toNat ≤ s.ua.cap.toNat := by
  have htake := total_take_succ hsize
  have hround : (s.i + 1) * total sizes ≤ iters.toNat * total sizes :=
    Nat.mul_le_mul_right _ hi
  calc s.ua.cur.toNat + size.toNat
      = s.i * total sizes + total (sizes.take (s.j.toNat + 1)) := by
        rw [h.cur_eq, htake, Nat.add_assoc]
    _ ≤ s.i * total sizes + total sizes := Nat.add_le_add_left (total_take_le sizes _) _
    _ = (s.i + 1) * total sizes := (Nat.succ_mul _ _).symm
    _ ≤ cap := hround.trans hsum
    _ = s.ua.cap.toNat := h.cap_eq.symm

theorem AllSizesAt.step (hlen : sizes.length < 2 ^ 32) (hsum : iters.toNat * total sizes ≤ cap)
    {s s' : AllSizes} {u : Unit} (h : AllSizesAt sizes iters cap s)
    (hstep : allSizesRepeatedly sizes iters s u = some s') : AllSizesAt sizes iters cap s' := by
  simp only [allSizesRepeatedly] at hstep
  split at hstep
  · rename_i hi
    split at hstep
    · rename_i size hsize
      have hfits := h.fits hsum hi hsize
      have hj : s.j.toNat < sizes.length := (List.getElem?_eq_some_iff.mp hsize).1
      have hsucc : (s.j + 1).toNat = s.j.toNat + 1 :=
        toNat_succ_of_lt (Nat.lt_of_le_of_lt hj hlen)
      rw [allocateFrom_of_fits hfits] at hstep
      obtain rfl := Option.some.inj hstep
      refine ⟨h.cap_eq, hsucc.trans_le hj, ?_⟩
      simp only
      rw [toNat_cur_add hfits, hsucc, total_take_succ hsize, h.cur_eq, Nat.add_assoc]
    · rename_i hend
      obtain rfl := Option.some.inj hstep
      have hall : sizes.take s.j.toNat = sizes :=
        List.take_of_length_le (List.getElem?_eq_none_iff.mp hend)
      refine ⟨h.cap_eq, Nat.zero_le _, ?_⟩
      simp only
      rw [h.cur_eq, hall, Nat.succ_mul]
      rfl
  · cases hstep

theorem allSizesServed_of_sum (hlen : sizes.length < 2 ^ 32)
    (hsum : iters.toNat * total sizes ≤ cap) {ua : UArena} (hcap : ua.cap.toNat = cap)
    (hcur : ua.cur = 0) : AllSizesServed sizes iters ua := by
  intro s hreach hi size hsize
  have hstart : AllSizesAt sizes iters cap ⟨0, 0, ua⟩ :=
    ⟨hcap, Nat.zero_le _, by simp [hcur, total]⟩
  have h := hreach.invariant (fun _ _ _ hs hstep => hs.step hlen hsum hstep) hstart
  rw [uaAlloc_of_fits (h.fits hsum hi hsize)]
  exact Option.some_ne_none _

/-- With sizes of zero only, as far as `j` reaches, the cursor stays where it is. -/
theorem allSizesServed_of_zero (hzero : ∀ size ∈ sizes.take (2 ^ 32), size = 0) {ua : UArena}
    (hcur : ua.cur = 0) : AllSizesServed sizes iters ua := by
  have hsize : ∀ (j : UInt32) (size : UInt64), sizes[j.toNat]? = some size → size = 0 := by
    intro j size hsize
    apply hzero
    apply List.mem_of_getElem? (i := j.toNat)
    rwa [List.getElem?_take_of_lt j.toNat_lt]
  have hfits : ∀ a : UArena, a.cur = 0 → a.cur.toNat + (0 : UInt64).toNat ≤ a.cap.toNat := by
    intro a ha
    simp [ha]
  intro s hreach _ size hs
  obtain rfl := hsize s.j size hs
  have hinv : s.ua.cur = 0 := by
    refine hreach.invariant (I := fun s => s.ua.cur = 0) ?_ hcur
    intro s u s' hs hstep
    simp only [allSizesRepeatedly] at hstep
    split at hstep
    · split at hstep
      · rename_i size' hsize'
        obtain rfl := hsize s.j size' hsize'
        rw [allocateFrom_of_fits (hfits s.ua hs)] at hstep
        obtain rfl := Option.some.inj hstep
        simpa using hs
      · obtain rfl := Option.some.inj hstep
        exact hs
    · cases hstep
  rw [uaAlloc_of_fits (hfits s.ua hinv)]
  exact Option.some_ne_none _

/-! ### What the second loop needs -/

/-- The loop gets to round `j` of iteration `i` with the cursor at `c`. -/
def Reaches (sizes : List UInt64) (iters : UInt64) (ua : UArena) (i : ℕ) (j : UInt32)
    (c : ℕ) : Prop :=
  ∃ ua', Reachable (allSizesRepeatedly sizes iters) ⟨0, 0, ua⟩ ⟨i, j, ua'⟩ ∧
    ua'.cap = ua.cap ∧ ua'.cur.toNat = c ∧ c ≤ ua.cap.toNat

section Needed

variable {ua : UArena} (hserved : AllSizesServed sizes iters ua)
  (hroom : ∀ size ∈ sizes, ua.cap.toNat + size.toNat < 2 ^ 64)

include hserved hroom

theorem Reaches.round {i c : ℕ} {j : UInt32} (h : Reaches sizes iters ua i j c)
    (hi : i < iters.toNat) {size : UInt64} (hsize : sizes[j.toNat]? = some size) :
    Reaches sizes iters ua i (j + 1) (c + size.toNat) := by
  obtain ⟨ua', hreach, hcap, hcur, hle⟩ := h
  have hsmall := hroom size (List.mem_of_getElem? hsize)
  have hgot := hserved _ hreach hi size hsize
  rw [uaAlloc_ne_none_iff (by rw [hcur]; exact Nat.lt_of_le_of_lt (Nat.add_le_add_right hle _) hsmall)]
    at hgot
  refine ⟨{ ua' with cur := ua'.cur + size }, hreach.trans ⟨[()], ?_⟩, hcap, ?_, ?_⟩
  · simp only [run, allSizesRepeatedly, if_pos hi, hsize, allocateFrom_of_fits hgot,
      Option.map_some]
  · rw [toNat_cur_add hgot, hcur]
  · rwa [← hcur, ← hcap]

/-- As far as `j` reaches, an iteration takes one block of each size. -/
theorem Reaches.rounds {i c : ℕ} (h : Reaches sizes iters ua i 0 c) (hi : i < iters.toNat) (n : ℕ)
    (hn : n ≤ sizes.length) (hword : n ≤ 2 ^ 32) :
    Reaches sizes iters ua i (UInt32.ofNat n) (c + total (sizes.take n)) := by
  induction n with
  | zero => simpa [total] using h
  | succ n ih =>
    have hlt : n < 2 ^ 32 := hword
    have hj : (UInt32.ofNat n).toNat = n := UInt32.toNat_ofNat_of_lt' hlt
    have hsize : sizes[(UInt32.ofNat n).toNat]? = some sizes[n] := by
      rw [hj]
      exact List.getElem?_eq_getElem hn
    have hnext := (ih (Nat.le_of_succ_le hn) hlt.le).round hserved hroom hi hsize
    rw [hj] at hsize
    rwa [UInt32.ofNat_add, total_take_succ hsize, ← Nat.add_assoc]

/-- A whole iteration, where `j` reaches the number of sizes. -/
theorem Reaches.iteration {i c : ℕ} (h : Reaches sizes iters ua i 0 c) (hi : i < iters.toNat)
    (hlen : sizes.length < 2 ^ 32) : Reaches sizes iters ua (i + 1) 0 (c + total sizes) := by
  obtain ⟨ua', hreach, hcap, hcur, hle⟩ := h.rounds hserved hroom hi sizes.length le_rfl hlen.le
  rw [List.take_length] at hcur hle
  have hj : (UInt32.ofNat sizes.length).toNat = sizes.length := UInt32.toNat_ofNat_of_lt' hlen
  refine ⟨ua', hreach.trans ⟨[()], ?_⟩, hcap, hcur, hle⟩
  have hend : sizes[(UInt32.ofNat sizes.length).toNat]? = none := by
    rw [hj]
    exact List.getElem?_eq_none le_rfl
  simp only [run, allSizesRepeatedly, if_pos hi, hend]

theorem sum_le_of_served (hcur : ua.cur = 0) (hlen : sizes.length < 2 ^ 32) :
    iters.toNat * total sizes ≤ ua.cap.toNat := by
  have hall : ∀ i ≤ iters.toNat, Reaches sizes iters ua i 0 (i * total sizes) := by
    intro i
    induction i with
    | zero =>
      intro _
      exact ⟨ua, .refl _, rfl, by simp [hcur], by simp⟩
    | succ i ih =>
      intro hi
      rw [Nat.succ_mul]
      exact (ih (Nat.le_of_succ_le hi)).iteration hserved hroom hi hlen
  obtain ⟨_, _, _, _, hle⟩ := hall iters.toNat le_rfl
  exact hle

/-- With `2^32` sizes the first iteration never ends: `j` goes round, and so does
    the sum, unless it is zero. -/
theorem take_eq_zero_of_served (hcur : ua.cur = 0) (hiters : 0 < iters.toNat)
    (hlen : 2 ^ 32 ≤ sizes.length) : total (sizes.take (2 ^ 32)) = 0 := by
  have hround : ∀ n, Reaches sizes iters ua 0 0 (n * total (sizes.take (2 ^ 32))) := by
    intro n
    induction n with
    | zero => exact ⟨ua, .refl _, rfl, by simp [hcur], by simp⟩
    | succ n ih =>
      rw [Nat.succ_mul]
      exact ih.rounds hserved hroom hiters (2 ^ 32) hlen le_rfl
  by_contra hne
  obtain ⟨_, _, _, _, hle⟩ := hround (ua.cap.toNat + 1)
  have hpos := Nat.le_mul_of_pos_right (ua.cap.toNat + 1) (Nat.pos_of_ne_zero hne)
  exact absurd (hpos.trans hle) (Nat.not_succ_le_self _)

end Needed

theorem total_eq_zero_iff {sizes : List UInt64} : total sizes = 0 ↔ ∀ size ∈ sizes, size = 0 := by
  simp [total, List.sum_eq_zero_iff, ← UInt64.toNat_inj]

/-- Behind the check, neither loop gets `NULL` from a fresh arena exactly if the
    arena holds what the second loop takes. -/
theorem served_iff_holdsAll (contiguous mallocd : Bool) (arenaSz : UInt64) (mem : Addr)
    (allocSizes : List UInt64) (allocIterations : UInt64) (largestSz : UInt64)
    (hasc : allocSizes.Pairwise (· ≤ ·)) (hlast : allocSizes.getLast? = some largestSz)
    (hproduct : largestSz.toNat * allocIterations.toNat < 2 ^ 64)
    (hroom : arenaSz.toNat + largestSz.toNat < 2 ^ 64)
    (hcheck : checkPasses arenaSz largestSz allocIterations) :
    let ua := uaInit contiguous mallocd false arenaSz mem
    EachSizeServed allocSizes allocIterations ua ∧ AllSizesServed allocSizes allocIterations ua ↔
      HoldsAll allocSizes allocIterations arenaSz := by
  intro ua
  have hle : ∀ size ∈ allocSizes, size.toNat ≤ largestSz.toNat :=
    fun size hmem => UInt64.le_iff_toNat_le.mp (le_largest hasc hlast hmem)
  have hall : ∀ size ∈ allocSizes, size.toNat * allocIterations.toNat ≤ arenaSz.toNat := by
    intro size hmem
    have hneeded := UInt64.le_iff_toNat_le.mp hcheck
    rw [UInt64.toNat_mul, Nat.mod_eq_of_lt hproduct] at hneeded
    exact (Nat.mul_le_mul_right _ (hle size hmem)).trans hneeded
  have hroom' : ∀ size ∈ allocSizes, arenaSz.toNat + size.toNat < 2 ^ 64 :=
    fun size hmem => Nat.lt_of_le_of_lt (Nat.add_le_add_left (hle size hmem) _) hroom
  constructor
  · rintro ⟨-, hserved⟩
    rcases Nat.eq_zero_or_pos allocIterations.toNat with hzero | hpos
    · exact .inl (UInt64.toNat_inj.mp hzero)
    · by_cases hlen : allocSizes.length < 2 ^ 32
      · exact .inr (.inr ⟨hlen, sum_le_of_served hserved hroom' rfl hlen⟩)
      · refine .inr (.inl (total_eq_zero_iff.mp ?_))
        exact take_eq_zero_of_served hserved hroom' rfl hpos (Nat.not_lt.mp hlen)
  · intro hholds
    refine ⟨eachSizeServed_of_check hall rfl rfl, ?_⟩
    rcases hholds with hzero | hzero | ⟨hlen, hsum⟩
    · intro s _ hi
      rw [hzero] at hi
      exact absurd hi (Nat.not_lt_zero _)
    · exact allSizesServed_of_zero hzero rfl
    · exact allSizesServed_of_sum hlen hsum rfl rfl

/-- Two sizes of 8 and 16 bytes, four times each: 64 bytes pass the check, 96 are taken. -/
theorem sizes_8_16_served_iff :
    let ua := uaInit true false false 64 4096
    EachSizeServed [8, 16] 4 ua ∧ AllSizesServed [8, 16] 4 ua ↔ HoldsAll [8, 16] 4 64 :=
  served_iff_holdsAll true false 64 4096 [8, 16] 4 16 (by decide) rfl (by decide) (by decide)
    (by decide)

/-- The check does not keep the second loop from `NULL`. -/
theorem check_not_sufficient :
    ¬ ∀ (arenaSz : UInt64) (allocSizes : List UInt64) (allocIterations largestSz : UInt64),
      allocSizes.Pairwise (· ≤ ·) → allocSizes.getLast? = some largestSz →
      largestSz.toNat * allocIterations.toNat < 2 ^ 64 →
      arenaSz.toNat + largestSz.toNat < 2 ^ 64 →
      checkPasses arenaSz largestSz allocIterations →
      let ua := uaInit true false false arenaSz 4096
      EachSizeServed allocSizes allocIterations ua ∧
        AllSizesServed allocSizes allocIterations ua := by
  intro h
  have hserved := (h 64 [8, 16] 4 16 (by decide) rfl (by decide) (by decide) (by decide)).2
  have hreach : Reachable (allSizesRepeatedly [8, 16] 4) ⟨0, 0, uaInit true false false 64 4096⟩
      ⟨2, 1, { uaInit true false false 64 4096 with cur := 56 }⟩ :=
    ⟨List.replicate 7 (), by decide +kernel⟩
  exact hserved _ hreach (by decide) 16 rfl (by decide)

end Sizes

end Lmalloc.Benchmark.Capacity
