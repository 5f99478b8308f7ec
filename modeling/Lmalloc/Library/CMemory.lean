/-
  Lmalloc/Library/CMemory.lean
  ============================
  **Byte memory as a C program reads and writes it.**

  `read` and `write` move lists of bytes.  On top of them are the 64-bit words of
  a little-endian machine, `memcpy`, and `strlen`.  `memcpy` of overlapping
  ranges has no result, and neither has `strlen` of bytes without a `NUL`; a
  virtual address has at most 57 bits, so the search ends after `2^57` bytes.

  Every write changes the bytes it names and no others; the frame lemmas say so
  for bytes, for lists and for words.
-/
import Lmalloc.Library.Memory
import Lmalloc.Library.Bytes

namespace Lmalloc.Library.Memory

open Lmalloc.Library.Bytes

/-! ### Lists of bytes -/

def read (m : Memory) (a n : ℕ) : List UInt8 := (List.range n).map fun i => m (a + i)

def write (m : Memory) (a : ℕ) (bs : List UInt8) : Memory := fun b =>
  if a ≤ b then bs.getD (b - a) (m b) else m b

@[simp] theorem length_read (m : Memory) (a n : ℕ) : (m.read a n).length = n := by
  simp [read]

@[simp] theorem getElem_read (m : Memory) (a n i : ℕ) (h : i < (m.read a n).length) :
    (m.read a n)[i] = m (a + i) := by
  simp [read]

@[simp] theorem read_zero (m : Memory) (a : ℕ) : m.read a 0 = [] := rfl

theorem read_one (m : Memory) (a : ℕ) : m.read a 1 = [m a] := rfl

theorem getElem?_read {m : Memory} {a n i : ℕ} (h : i < n) : (m.read a n)[i]? = some (m (a + i)) := by
  simp [read, h]

theorem read_add (m : Memory) (a n k : ℕ) : m.read a (n + k) = m.read a n ++ m.read (a + n) k := by
  simp [read, List.range_add, Nat.add_assoc]

theorem read_congr {m m' : Memory} {a n : ℕ} (h : ∀ i < n, m (a + i) = m' (a + i)) :
    m.read a n = m'.read a n := by
  refine List.map_congr_left fun i hi => ?_
  exact h i (List.mem_range.mp hi)

theorem write_of_outside {m : Memory} {a b : ℕ} {bs : List UInt8}
    (h : b < a ∨ a + bs.length ≤ b) : m.write a bs b = m b := by
  simp only [write]
  split
  · rw [List.getD_eq_default]
    omega
  · rfl

theorem write_add {m : Memory} {a i : ℕ} {bs : List UInt8} (h : i < bs.length) :
    m.write a bs (a + i) = bs[i] := by
  simp [write, h]

theorem write_single {m : Memory} {a : ℕ} {v : UInt8} : m.write a [v] a = v := by
  simp [write]

@[simp] theorem write_nil (m : Memory) (a : ℕ) : m.write a [] = m := by
  funext b
  exact write_of_outside (by simp; omega)

theorem write_comm {m : Memory} {a b : ℕ} {bs cs : List UInt8}
    (h : a + bs.length ≤ b ∨ b + cs.length ≤ a) :
    (m.write a bs).write b cs = (m.write b cs).write a bs := by
  refine funext fun (x : ℕ) => ?_
  by_cases hb : x < b ∨ b + cs.length ≤ x
  · rw [write_of_outside hb]
    by_cases ha : x < a ∨ a + bs.length ≤ x
    · rw [write_of_outside ha, write_of_outside ha, write_of_outside hb]
    · obtain ⟨i, rfl⟩ : ∃ i, x = a + i := ⟨x - a, by omega⟩
      rw [write_add (by omega), write_add (by omega)]
  · obtain ⟨i, rfl⟩ : ∃ i, x = b + i := ⟨x - b, by omega⟩
    rw [write_add (by omega), write_of_outside (by omega), write_add (by omega)]

/-- Two writes next to each other are one. -/
theorem write_append (m : Memory) (a : ℕ) (bs cs : List UInt8) :
    m.write a (bs ++ cs) = (m.write a bs).write (a + bs.length) cs := by
  refine funext fun (x : ℕ) => ?_
  by_cases hcs : x < a + bs.length ∨ a + bs.length + cs.length ≤ x
  · rw [write_of_outside hcs]
    by_cases hbs : x < a ∨ a + bs.length ≤ x
    · rw [write_of_outside hbs]
      exact write_of_outside (by rw [List.length_append]; omega)
    · obtain ⟨i, rfl⟩ : ∃ i, x = a + i := ⟨x - a, by omega⟩
      have hi : i < bs.length := by omega
      rw [write_add hi, write_add (by rw [List.length_append]; omega)]
      exact List.getElem_append_left hi
  · obtain ⟨i, rfl⟩ : ∃ i, x = a + bs.length + i := ⟨x - (a + bs.length), by omega⟩
    have hi : i < cs.length := by omega
    rw [write_add hi, Nat.add_assoc, write_add (by rw [List.length_append]; omega)]
    simp

theorem read_write_same (m : Memory) (a : ℕ) (bs : List UInt8) :
    (m.write a bs).read a bs.length = bs := by
  refine List.ext_getElem (by simp) ?_
  intro i h₁ h₂
  rw [getElem_read, write_add h₂]

/-- Frame rule for lists. -/
theorem read_write_of_disjoint {m : Memory} {a n b : ℕ} {bs : List UInt8}
    (h : a + n ≤ b ∨ b + bs.length ≤ a) : (m.write b bs).read a n = m.read a n :=
  read_congr fun i hi => write_of_outside (by omega)

/-! ### Words -/

def loadWord (m : Memory) (a : ℕ) : UInt64 := UInt64.ofNat (ofLE (m.read a 8))

def storeWord (m : Memory) (a : ℕ) (v : UInt64) : Memory := m.write a (toLE 8 v.toNat)

theorem loadWord_storeWord (m : Memory) (a : ℕ) (v : UInt64) : (m.storeWord a v).loadWord a = v := by
  have hlt : v.toNat < 2 ^ 64 := v.toNat_lt
  have hread := read_write_same m a (toLE 8 v.toNat)
  rw [length_toLE] at hread
  rw [loadWord, storeWord, hread, ofLE_toLE, Nat.mod_eq_of_lt (by simpa using hlt)]
  exact UInt64.ofNat_toNat

/-- Frame rule for words. -/
theorem loadWord_write_of_disjoint {m : Memory} {a b : ℕ} {bs : List UInt8}
    (h : a + 8 ≤ b ∨ b + bs.length ≤ a) : (m.write b bs).loadWord a = m.loadWord a := by
  rw [loadWord, loadWord, read_write_of_disjoint h]

theorem loadWord_storeWord_of_disjoint {m : Memory} {a b : ℕ} {v : UInt64}
    (h : a + 8 ≤ b ∨ b + 8 ≤ a) : (m.storeWord b v).loadWord a = m.loadWord a :=
  loadWord_write_of_disjoint (by simpa using h)

theorem storeWord_of_outside {m : Memory} {a b : ℕ} {v : UInt64} (h : b < a ∨ a + 8 ≤ b) :
    m.storeWord a v b = m b :=
  write_of_outside (by simpa using h)

theorem read_storeWord_of_disjoint {m : Memory} {a n b : ℕ} {v : UInt64}
    (h : a + n ≤ b ∨ b + 8 ≤ a) : (m.storeWord b v).read a n = m.read a n :=
  read_write_of_disjoint (by simpa using h)

theorem loadWord_congr {m m' : Memory} {a : ℕ} (h : ∀ i : ℕ, i < 8 → m (a + i) = m' (a + i)) :
    m.loadWord a = m'.loadWord a := by
  rw [loadWord, loadWord, read_congr h]

/-! ### `memcpy` and `strlen` -/

/-- `memcpy(dst, src, n)`. -/
def copy? (m : Memory) (dst src n : ℕ) : Option Memory :=
  if n = 0 ∨ dst + n ≤ src ∨ src + n ≤ dst then some (m.write dst (m.read src n)) else none

theorem copy?_of_apart {m : Memory} {dst src n : ℕ} (h : n = 0 ∨ dst + n ≤ src ∨ src + n ≤ dst) :
    m.copy? dst src n = some (m.write dst (m.read src n)) := if_pos h

/-- Look for a `NUL` among the first `fuel` bytes. -/
def strlenIn (m : Memory) (p : ℕ) : ℕ → Option ℕ
  | 0 => none
  | fuel + 1 => if m p = 0 then some 0 else (strlenIn m (p + 1) fuel).map (· + 1)

def strlen (m : Memory) (p : ℕ) : Option ℕ := strlenIn m p (2 ^ 57)

theorem strlenIn_eq_some_iff {m : Memory} {p fuel n : ℕ} :
    strlenIn m p fuel = some n ↔ n < fuel ∧ m (p + n) = 0 ∧ ∀ i < n, m (p + i) ≠ 0 := by
  induction fuel generalizing p n with
  | zero => simp [strlenIn]
  | succ fuel ih =>
    simp only [strlenIn]
    by_cases hp : m p = 0
    · rw [if_pos hp]
      constructor
      · rintro ⟨⟩
        exact ⟨Nat.succ_pos fuel, hp, fun i hi => absurd hi (Nat.not_lt_zero i)⟩
      · rintro ⟨_, _, hbefore⟩
        cases n with
        | zero => rfl
        | succ n => exact absurd hp (hbefore 0 (Nat.succ_pos n))
    · rw [if_neg hp]
      cases n with
      | zero =>
        constructor
        · intro h
          obtain ⟨k, _, hk⟩ := Option.map_eq_some_iff.mp h
          exact absurd hk (Nat.succ_ne_zero k)
        · rintro ⟨_, hzero, _⟩
          exact absurd hzero hp
      | succ n =>
        have hmap : (strlenIn m (p + 1) fuel).map (· + 1) = some (n + 1) ↔
            strlenIn m (p + 1) fuel = some n := by
          simp [Option.map_eq_some_iff]
        have hshift : ∀ i, p + 1 + i = p + (i + 1) := fun i => by omega
        rw [hmap, ih, hshift]
        constructor
        · rintro ⟨hlt, hend, hbefore⟩
          refine ⟨by omega, hend, ?_⟩
          intro i hi
          cases i with
          | zero => exact hp
          | succ i =>
            rw [← hshift]
            exact hbefore i (by omega)
        · rintro ⟨hlt, hend, hbefore⟩
          refine ⟨by omega, hend, ?_⟩
          intro i hi
          rw [hshift]
          exact hbefore (i + 1) (by omega)

/-- `strlen` finds the end of bytes without a `NUL` that one follows. -/
theorem strlen_of_read {m : Memory} {p : ℕ} {bs : List UInt8} (hread : m.read p bs.length = bs)
    (hend : m (p + bs.length) = 0) (hfree : ∀ b ∈ bs, b ≠ 0) (hlt : bs.length < 2 ^ 57) :
    m.strlen p = some bs.length := by
  refine strlenIn_eq_some_iff.mpr ⟨hlt, hend, ?_⟩
  intro i hi
  have hget := getElem?_read (m := m) (a := p) hi
  rw [hread] at hget
  exact hfree _ (List.mem_of_getElem? hget)

theorem strlen_lt {m : Memory} {p n : ℕ} (h : m.strlen p = some n) : n < 2 ^ 57 :=
  (strlenIn_eq_some_iff.mp h).1

end Lmalloc.Library.Memory
