/-
  Lmalloc/Library/Printf.lean
  ===========================
  **Formatted text written into a buffer of a given size.**

  `snprintf` and `vsnprintf` return the length of the whole text and store as much of
  it as fits with a `NUL` behind it.  `strftime` returns 0 when the text does not fit,
  and what it leaves in the buffer then is not specified.  A call that fails returns
  some negative number, and may leave anything within the size it was given; a text
  of `2^31` bytes or more has no length that an `int` can hold, and fails.

  `Filled` is the state of a buffer that is written front to back, with a count of the
  bytes written and a count of what remains.  A text that fits moves it on; no call
  touches anything outside the buffer.
-/
import Lmalloc.Library.CMemory
import Lmalloc.Library.Word

namespace Lmalloc.Library

open Lmalloc.Library.Word

/-! ### The functions -/

/-- How a call fails, if it does: what it returns then, and what it leaves behind. -/
structure Fault where
  fails : Bool
  ret : Int32
  ret_neg : ret < 0
  junk : List UInt8

namespace Fault

variable (f : Fault) (text : List UInt8)

/-- The text has no length, or something else has gone wrong. -/
def Fails : Prop := f.fails = true ∨ 2 ^ 31 ≤ text.length

instance : Decidable (f.Fails text) := inferInstanceAs (Decidable (_ ∨ _))

def snprintfRet : Int32 := if f.Fails text then f.ret else Int32.ofNat text.length

def snprintf (m : Memory) (dst : ℕ) (n : UInt64) : Memory :=
  if f.Fails text then m.write dst (f.junk.take n.toNat)
  else if n = 0 then m
  else m.write dst (text.take (n.toNat - 1) ++ [0])

end Fault

def strftimeRet (text : List UInt8) (n : UInt64) : UInt64 :=
  if text.length < n.toNat then UInt64.ofNat text.length else 0

def strftime (text junk : List UInt8) (m : Memory) (dst : ℕ) (n : UInt64) : Memory :=
  if text.length < n.toNat then m.write dst (text ++ [0]) else m.write dst (junk.take n.toNat)

/-! ### What they return -/

section Returned

variable {f : Fault} {text : List UInt8}

theorem snprintfRet_of_fails (h : f.Fails text) : f.snprintfRet text < 0 := by
  rw [Fault.snprintfRet, if_pos h]
  exact f.ret_neg

theorem length_lt_of_not_fails (h : ¬ f.Fails text) : text.length < 2 ^ 31 :=
  Nat.not_le.mp fun hlong => h (.inr hlong)

/-- The value returned, read as a `size_t`, is the length of the text. -/
theorem toNat_snprintfRet (h : ¬ f.Fails text) :
    (f.snprintfRet text).toInt64.toUInt64.toNat = text.length := by
  have hlt := length_lt_of_not_fails h
  rw [Fault.snprintfRet, if_neg h, toUInt64_ofNat_of_lt hlt, toNat_ofNat_of_lt_size (by omega)]

theorem snprintfRet_nonneg (h : ¬ f.Fails text) : ¬ f.snprintfRet text < 0 := by
  have hlt := length_lt_of_not_fails h
  have hzero : (0 : Int32).toInt = 0 := rfl
  rw [Fault.snprintfRet, if_neg h, Int32.lt_iff_toInt_lt, Int32.toInt_ofNat_of_lt hlt, hzero]
  omega

theorem snprintfRet_neg_iff : f.snprintfRet text < 0 ↔ f.Fails text := by
  constructor
  · intro hneg
    by_contra h
    exact snprintfRet_nonneg h hneg
  · exact snprintfRet_of_fails

end Returned

/-! ### What they write -/

/-- The two memories differ inside the buffer only. -/
def SameOutside (buf size : ℕ) (m m' : Memory) : Prop :=
  ∀ a : ℕ, a < buf ∨ buf + size ≤ a → m' a = m a

section Written

variable {buf size dst : ℕ} {m₀ m : Memory} {bs : List UInt8}

theorem SameOutside.refl (buf size : ℕ) (m : Memory) : SameOutside buf size m m := fun _ _ => rfl

theorem SameOutside.write (h : SameOutside buf size m₀ m) (hlo : buf ≤ dst)
    (hhi : dst + bs.length ≤ buf + size) : SameOutside buf size m₀ (m.write dst bs) := by
  intro a ha
  have houtside : a < dst ∨ dst + bs.length ≤ a := by omega
  rw [Memory.write_of_outside houtside]
  exact h a ha

theorem SameOutside.fill (h : SameOutside buf size m₀ m) {n : ℕ} {v : UInt8} (hlo : buf ≤ dst)
    (hhi : dst + n ≤ buf + size) : SameOutside buf size m₀ (m.fill ⟨dst, n⟩ v) := by
  intro a ha
  have houtside : a ∉ (Span.mk dst n).cells := by
    rintro ⟨hge, hlt⟩
    change dst ≤ a at hge
    change a < dst + n at hlt
    omega
  rw [Memory.fill_of_notMem houtside]
  exact h a ha

theorem SameOutside.snprintf (h : SameOutside buf size m₀ m) (f : Fault) (text : List UInt8)
    {n : UInt64} (hlo : buf ≤ dst) (hhi : dst + n.toNat ≤ buf + size) :
    SameOutside buf size m₀ (f.snprintf text m dst n) := by
  have hjunk : (f.junk.take n.toNat).length ≤ n.toNat := List.length_take_le _ _
  have htext : (text.take (n.toNat - 1)).length ≤ n.toNat - 1 := List.length_take_le _ _
  rw [Fault.snprintf]
  split
  · exact h.write hlo (by omega)
  · split
    · exact h
    · rename_i hne
      have hpos : 0 < n.toNat := UInt64.pos_iff_ne_zero.mpr hne
      apply h.write hlo
      rw [List.length_append, List.length_singleton]
      omega

theorem SameOutside.strftime (h : SameOutside buf size m₀ m) (text junk : List UInt8) {n : UInt64}
    (hlo : buf ≤ dst) (hhi : dst + n.toNat ≤ buf + size) :
    SameOutside buf size m₀ (strftime text junk m dst n) := by
  have hjunk : (junk.take n.toNat).length ≤ n.toNat := List.length_take_le _ _
  rw [Library.strftime]
  split
  · apply h.write hlo
    rw [List.length_append, List.length_singleton]
    omega
  · exact h.write hlo (by omega)

/-- A text that fits is stored as it is, with a `NUL`. -/
theorem snprintf_of_fits {f : Fault} {text : List UInt8} {n : UInt64} (h : ¬ f.Fails text)
    (hfits : text.length < n.toNat) : f.snprintf text m dst n = m.write dst (text ++ [0]) := by
  have hne : n ≠ 0 := UInt64.pos_iff_ne_zero.mp (Nat.lt_of_le_of_lt (Nat.zero_le _) hfits)
  rw [Fault.snprintf, if_neg h, if_neg hne, List.take_of_length_le (by omega)]

end Written

/-! ### A buffer that is filled front to back -/

/-- The buffer starts with `bytes`; `written` counts them and `remaining` the rest, which is
    not empty. -/
structure Filled (buf : ℕ) (size : UInt64) (m₀ m : Memory) (bytes : List UInt8)
    (written remaining : UInt64) : Prop where
  same : SameOutside buf size.toNat m₀ m
  contents : m.read buf bytes.length = bytes
  written_eq : written.toNat = bytes.length
  remaining_eq : bytes.length + remaining.toNat = size.toNat
  room : 0 < remaining.toNat

section Filling

variable {buf : ℕ} {size : UInt64} {m₀ m : Memory} {bytes text : List UInt8}
  {written remaining : UInt64}

theorem Filled.empty (m : Memory) (hsize : 0 < size.toNat) : Filled buf size m m [] 0 size where
  same := .refl _ _ m
  contents := rfl
  written_eq := rfl
  remaining_eq := Nat.zero_add _
  room := hsize

/-- What is passed to the next call: the first free byte, and all that is free. -/
theorem Filled.bounds (h : Filled buf size m₀ m bytes written remaining) :
    buf ≤ buf + written.toNat ∧ buf + written.toNat + remaining.toNat ≤ buf + size.toNat := by
  have hwritten := h.written_eq
  have hremaining := h.remaining_eq
  omega

/-- Whatever is written to the free part leaves the bytes as they are. -/
theorem Filled.behind (h : Filled buf size m₀ m bytes written remaining) {m' : Memory}
    (hm' : SameOutside (buf + written.toNat) remaining.toNat m m') :
    Filled buf size m₀ m' bytes written remaining where
  same := by
    obtain ⟨hlo, hhi⟩ := h.bounds
    intro a ha
    rw [hm' a (by omega)]
    exact h.same a ha
  contents := by
    refine Eq.trans (Memory.read_congr fun i hi => ?_) h.contents
    apply hm'
    have hwritten := h.written_eq
    exact .inl (by omega)
  written_eq := h.written_eq
  remaining_eq := h.remaining_eq
  room := h.room

theorem Filled.same_snprintf (h : Filled buf size m₀ m bytes written remaining) (f : Fault)
    (text : List UInt8) :
    SameOutside buf size.toNat m₀ (f.snprintf text m (buf + written.toNat) remaining) :=
  h.same.snprintf f text h.bounds.1 h.bounds.2

/-- Bytes behind the ones that are there; the last of them need not be counted. -/
theorem Filled.append (h : Filled buf size m₀ m bytes written remaining) {tail : List UInt8}
    (hfits : text.length + tail.length ≤ remaining.toNat) (hroom : text.length < remaining.toNat) :
    Filled buf size m₀ (m.write (buf + written.toNat) (text ++ tail)) (bytes ++ text)
      (written + UInt64.ofNat text.length) (remaining - UInt64.ofNat text.length) := by
  have hwritten := h.written_eq
  have hremaining := h.remaining_eq
  have hsize := size.toNat_lt
  obtain ⟨hlo, hhi⟩ := h.bounds
  have hlen : (UInt64.ofNat text.length).toNat = text.length :=
    toNat_ofNat_of_lt_size (by omega)
  have hsub : (remaining - UInt64.ofNat text.length).toNat = remaining.toNat - text.length := by
    rw [toNat_sub_of_le (by omega), hlen]
  refine ⟨?_, ?_, ?_, ?_, ?_⟩
  · apply h.same.write hlo
    rw [List.length_append]
    omega
  · rw [List.length_append, Memory.read_add, hwritten, Memory.write_append,
      Memory.read_write_of_disjoint (Or.inl (by omega)), Memory.read_write_of_disjoint (Or.inl (by omega)),
      Memory.read_write_of_disjoint (Or.inl (by omega)), Memory.read_write_same, h.contents]
  · rw [toNat_add_of_lt (by omega), hlen, hwritten, List.length_append]
  · rw [hsub, List.length_append]
    omega
  · rw [hsub]
    omega

/-- A buffer that starts with what `strftime` has stored. -/
theorem filled_strftime {junk : List UInt8} (hret : strftimeRet text size ≠ 0) :
    Filled buf size m (strftime text junk m buf size) text (strftimeRet text size)
      (size - strftimeRet text size) := by
  have hfits : text.length < size.toNat := by
    by_contra hlong
    exact hret (if_neg hlong)
  have hstart : Filled buf size m m [] 0 size :=
    Filled.empty m (Nat.lt_of_le_of_lt (Nat.zero_le _) hfits)
  have hnul : text.length + [(0 : UInt8)].length ≤ size.toNat := hfits
  have hfilled := hstart.append hnul hfits
  rw [List.nil_append, UInt64.zero_add] at hfilled
  rw [strftimeRet, strftime, if_pos hfits, if_pos hfits]
  exact hfilled

end Filling

end Lmalloc.Library
