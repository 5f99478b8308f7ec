/-
  Lmalloc/Library/Bytes.lean
  ==========================
  **Fixed-width words as byte lists.**

  `toLE w v` is the value `v` in `w` bytes, least significant byte first, and
  `ofLE` reads such a list; `toBE` and `ofBE` are the same in the other order.
  `swap` exchanges the two, as the `hton` family does on a little-endian host.
-/
import Mathlib

namespace Lmalloc.Library.Bytes

def ofLE : List UInt8 → ℕ
  | [] => 0
  | b :: bs => b.toNat + 256 * ofLE bs

def toLE : ℕ → ℕ → List UInt8
  | 0, _ => []
  | w + 1, v => UInt8.ofNat v :: toLE w (v / 256)

def ofBE (bs : List UInt8) : ℕ := ofLE bs.reverse

def toBE (w v : ℕ) : List UInt8 := (toLE w v).reverse

/-- The value whose little-endian bytes are the big-endian bytes of `v`. -/
def swap (w v : ℕ) : ℕ := ofBE (toLE w v)

@[simp] theorem length_toLE (w v : ℕ) : (toLE w v).length = w := by
  induction w generalizing v with
  | zero => rfl
  | succ w ih => rw [toLE, List.length_cons, ih]

@[simp] theorem length_toBE (w v : ℕ) : (toBE w v).length = w := by
  rw [toBE, List.length_reverse, length_toLE]

theorem ofLE_lt (bs : List UInt8) : ofLE bs < 256 ^ bs.length := by
  induction bs with
  | nil => exact Nat.one_pos
  | cons b bs ih =>
      have hb : b.toNat < 256 := b.toNat_lt
      rw [ofLE, List.length_cons, pow_succ]
      omega

theorem ofLE_toLE (w v : ℕ) : ofLE (toLE w v) = v % 256 ^ w := by
  induction w generalizing v with
  | zero => simp [toLE, ofLE, Nat.mod_one]
  | succ w ih =>
      have hsplit : v % 256 ^ (w + 1) = v % 256 + 256 * (v / 256 % 256 ^ w) := by
        rw [pow_succ', Nat.mod_mul]
      rw [toLE, ofLE, ih, UInt8.toNat_ofNat', hsplit]

theorem toLE_ofLE (bs : List UInt8) : toLE bs.length (ofLE bs) = bs := by
  induction bs with
  | nil => rfl
  | cons b bs ih =>
      have hb : b.toNat < 256 := b.toNat_lt
      have hlow : UInt8.ofNat (b.toNat + 256 * ofLE bs) = b := by
        apply UInt8.toNat_inj.mp
        rw [UInt8.toNat_ofNat']
        omega
      have hhigh : (b.toNat + 256 * ofLE bs) / 256 = ofLE bs := by omega
      rw [List.length_cons, toLE, ofLE, hlow, hhigh, ih]

theorem ofBE_toBE (w v : ℕ) : ofBE (toBE w v) = v % 256 ^ w := by
  rw [ofBE, toBE, List.reverse_reverse, ofLE_toLE]

theorem ofBE_toBE_of_lt {w v : ℕ} (h : v < 256 ^ w) : ofBE (toBE w v) = v := by
  rw [ofBE_toBE, Nat.mod_eq_of_lt h]

/-- The swapped word, stored, is the word in the other byte order. -/
theorem toLE_swap (w v : ℕ) : toLE w (swap w v) = toBE w v := by
  have hlen : (toLE w v).reverse.length = w := by simp
  unfold swap ofBE toBE
  nth_rewrite 1 [← hlen]
  exact toLE_ofLE _

end Lmalloc.Library.Bytes
