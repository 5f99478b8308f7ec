/-
  Lmalloc/Strings/Contents.lean
  =============================
  **What a string in memory holds, and what each operation makes of it.**

  Every operation ends in the same three writes: some bytes into the string, a new
  length, and a `NUL` behind the last byte.  `put` is these writes.  Clearing and
  backspacing put nothing; appending puts behind the old bytes and setting puts at
  the start, both after they have made room.
-/
import Lmalloc.Strings.LmString

namespace Lmalloc.Strings

open Lmalloc.Library Lmalloc.Library.Word Lmalloc.Arena

/-! ### Strings in memory -/

/-- At `string` in memory stands a string of the arena at `ua` with these bytes. -/
structure IsString (m : Memory) (ua string cap : ℕ) (bytes : List UInt8) : Prop where
  header_le : headerSize ≤ string
  ua_eq : lmStringUa m string = ua
  len_eq : (lmStringLen m string).toNat = bytes.length
  cap_eq : (lmStringCap m string).toNat = cap
  len_le : bytes.length ≤ cap
  bytes_eq : m.read string bytes.length = bytes
  nul : m (string + bytes.length) = 0

section IsString

variable {m m' : Memory} {ua s cap : ℕ} {bytes : List UInt8}

theorem IsString.cap_lt (h : IsString m ua s cap bytes) : cap < 2 ^ 64 := by
  rw [← h.cap_eq]
  exact UInt64.toNat_lt _

/-- A string depends on its header, its bytes and its `NUL` only. -/
theorem IsString.congr (h : IsString m ua s cap bytes)
    (hsame : ∀ a, s - headerSize ≤ a → a ≤ s + bytes.length → m' a = m a) :
    IsString m' ua s cap bytes := by
  have hle : 24 ≤ s := h.header_le
  have hword : ∀ k, k ≤ 16 → m'.loadWord (s - headerSize + k) = m.loadWord (s - headerSize + k) := by
    intro k hk
    refine Memory.loadWord_congr fun i hi => hsame _ ?_ ?_
    · simp only [headerSize]
      omega
    · simp only [headerSize]
      omega
  refine ⟨h.header_le, ?_, ?_, ?_, h.len_le, ?_, ?_⟩
  · rw [← h.ua_eq, lmStringUa, lmStringUa]
    exact congrArg UInt64.toNat (hword 0 (by omega))
  · rw [← h.len_eq, lmStringLen, lmStringLen, hword 8 (by omega)]
  · rw [← h.cap_eq, lmStringCap, lmStringCap, hword 16 (by omega)]
  · refine Eq.trans (Memory.read_congr fun i hi => hsame _ ?_ ?_) h.bytes_eq
    · simp only [headerSize]
      omega
    · omega
  · rw [← h.nul]
    refine hsame _ ?_ (Nat.le_refl _)
    simp only [headerSize]
    omega

theorem IsString.setCap (h : IsString m ua s cap bytes) {cap' : UInt64}
    (hle : bytes.length ≤ cap'.toNat) :
    IsString (lmStringSetCap m s cap') ua s cap'.toNat bytes := by
  obtain ⟨p, rfl⟩ := Nat.exists_eq_add_of_le' h.header_le
  have hua := h.ua_eq
  have hlen := h.len_eq
  simp only [lmStringUa, lmStringLen, Nat.add_sub_cancel] at hua hlen
  refine ⟨h.header_le, ?_, ?_, ?_, hle, ?_, ?_⟩
  · rw [← hua]
    simp only [lmStringUa, lmStringSetCap, Nat.add_sub_cancel]
    rw [Memory.loadWord_storeWord_of_disjoint (by omega)]
  · rw [← hlen]
    simp only [lmStringLen, lmStringSetCap, Nat.add_sub_cancel]
    rw [Memory.loadWord_storeWord_of_disjoint (by omega)]
  · simp only [lmStringCap, lmStringSetCap, Memory.loadWord_storeWord]
  · rw [lmStringSetCap, Memory.read_storeWord_of_disjoint]
    · exact h.bytes_eq
    · simp only [headerSize]
      omega
  · rw [lmStringSetCap, Memory.storeWord_of_outside]
    · exact h.nul
    · simp only [headerSize]
      omega

/-- The bytes of a string, its `NUL` included. -/
theorem IsString.read_nul (h : IsString m ua s cap bytes) :
    m.read s (bytes.length + 1) = bytes ++ [0] := by
  rw [Memory.read_add, h.bytes_eq, Memory.read_one, h.nul]

end IsString

/-! ### The three writes -/

/-- Write `src` from byte `k` of the string on, and end the string there. -/
def put (m : Memory) (s k : ℕ) (src : List UInt8) : Memory :=
  (lmStringSetLen (m.write (s + k) src) s (UInt64.ofNat (k + src.length))).write
    (s + (k + src.length)) [0]

section Put

variable {m : Memory} {ua s cap k : ℕ} {bytes src : List UInt8}

theorem put_of_outside {a : ℕ} (hs : headerSize ≤ s) (hheader : a < s - headerSize ∨ s ≤ a)
    (hbytes : a < s + k ∨ s + (k + src.length) < a) : put m s k src a = m a := by
  simp only [headerSize] at hs hheader
  rw [put, Memory.write_of_outside (by rw [List.length_singleton]; omega), lmStringSetLen,
    Memory.storeWord_of_outside (by simp only [headerSize]; omega),
    Memory.write_of_outside (by omega)]

theorem put_bytes (hs : headerSize ≤ s) {i : ℕ} (hi : i < src.length) :
    put m s k src (s + k + i) = src[i] := by
  simp only [headerSize] at hs
  rw [put, Memory.write_of_outside (by omega), lmStringSetLen,
    Memory.storeWord_of_outside (by simp only [headerSize]; omega), Memory.write_add hi]

theorem put_nul : put m s k src (s + (k + src.length)) = 0 := by
  rw [put]
  exact Memory.write_single

theorem lmStringLen_put (hs : headerSize ≤ s) :
    lmStringLen (put m s k src) s = UInt64.ofNat (k + src.length) := by
  simp only [headerSize] at hs
  rw [lmStringLen, put, Memory.loadWord_write_of_disjoint (by simp only [headerSize]; omega),
    lmStringSetLen, Memory.loadWord_storeWord]

/-- **A string stays one under `put`**: the first `k` bytes are kept, `src` follows. -/
theorem IsString.put (h : IsString m ua s cap bytes) (hk : k ≤ bytes.length)
    (hcap : k + src.length ≤ cap) :
    IsString (put m s k src) ua s cap (bytes.take k ++ src) := by
  have hlt := h.cap_lt
  have hle := h.header_le
  obtain ⟨p, rfl⟩ := Nat.exists_eq_add_of_le' hle
  have hlength : (bytes.take k ++ src).length = k + src.length := by
    rw [List.length_append, List.length_take, Nat.min_eq_left hk]
  have hfar : ∀ j, j ≤ 16 → j ≠ 8 → j % 8 = 0 →
      (put m (p + headerSize) k src).loadWord (p + j) = m.loadWord (p + j) := by
    intro j hj hne hmod
    refine Eq.trans (Memory.loadWord_write_of_disjoint ?_) ?_
    · simp only [headerSize]
      omega
    · simp only [lmStringSetLen, Nat.add_sub_cancel]
      rw [Memory.loadWord_storeWord_of_disjoint (by omega), Memory.loadWord_write_of_disjoint]
      simp only [headerSize]
      omega
  have hua := h.ua_eq
  have hcapEq := h.cap_eq
  simp only [lmStringUa, lmStringCap, Nat.add_sub_cancel] at hua hcapEq
  refine ⟨hle, ?_, ?_, ?_, ?_, ?_, ?_⟩
  · simp only [lmStringUa, Nat.add_sub_cancel]
    rw [← hua]
    exact congrArg UInt64.toNat (hfar 0 (by omega) (by omega) rfl)
  · rw [lmStringLen_put hle, hlength]
    exact toNat_ofNat_of_lt_size (Nat.lt_of_le_of_lt hcap hlt)
  · simp only [lmStringCap, Nat.add_sub_cancel]
    rw [hfar 16 (by omega) (by omega) rfl]
    exact hcapEq
  · rw [hlength]
    exact hcap
  · rw [hlength, Memory.read_add]
    refine congrArg₂ (· ++ ·) ?_ ?_
    · have hkept : (Strings.put m (p + headerSize) k src).read (p + headerSize) k =
          m.read (p + headerSize) k :=
        Memory.read_congr fun i hi => put_of_outside hle (Or.inr (by omega)) (Or.inl (by omega))
      have hold := h.bytes_eq
      have hsplit : bytes.length = k + (bytes.length - k) := by omega
      rw [hkept]
      rw [hsplit, Memory.read_add] at hold
      rw [← hold, List.take_left' (by rw [Memory.length_read])]
    · refine List.ext_getElem (by simp) ?_
      intro i _ hi
      rw [Memory.getElem_read, put_bytes hle hi]
  · rw [hlength]
    exact put_nul

end Put

end Lmalloc.Strings
