/-
  Lmalloc/Strings/Operations.lean
  ===============================
  **What each function of `LmString` computes on a string in memory.**

  Making room either leaves the store as it is, or moves the cursor of the arena
  by as many bytes as it adds to the capacity, or is refused.  Where the added
  bytes lie does not matter to the code; that they follow the string is up to
  whoever uses the arena.

  Each function then comes with one lemma: it refuses and changes nothing, or it
  returns the string with its new bytes and has written to the header and to the
  bytes named, nowhere else.
-/
import Lmalloc.Strings.Contents

namespace Lmalloc.Strings

open Lmalloc.Library Lmalloc.Library.Word Lmalloc.Arena

theorem Store.setArena_self (st : Store) (ua : Addr) : st.setArena ua (st.arenas ua) = st := by
  rw [Store.setArena, Function.update_eq_self]

/-! ### Making room -/

/-- `st₁` is `st` with room for `n` more bytes in the string, now of capacity `cap₁`. -/
structure Roomy (st : Store) (ua s cap : ℕ) (bytes : List UInt8) (n : ℕ) (st₁ : Store)
    (cap₁ : ℕ) : Prop where
  isString : IsString st₁.memory ua s cap₁ bytes
  fits : bytes.length + n ≤ cap₁
  cap_cases : cap₁ = cap ∨ (cap < bytes.length + n ∧ cap₁ = cap + n)
  arenas : st₁.arenas =
    Function.update st.arenas ua { st.arenas ua with cur := (st₁.arenas ua).cur }
  cur_eq : (st₁.arenas ua).cur.toNat + cap = (st.arenas ua).cur.toNat + cap₁
  cur_le : (st₁.arenas ua).cur ≤ (st.arenas ua).cap
  frame : ∀ a : ℕ, a < s - headerSize ∨ s ≤ a → st₁.memory a = st.memory a

/-- The arena has no room for the bytes that the string lacks. -/
def Full (ua : UArena) (cap len n : ℕ) : Prop :=
  cap < len + n ∧ ua.cap.toNat < ua.cur.toNat + n

theorem Roomy.not_full {st st₁ : Store} {ua s cap cap₁ n : ℕ} {bytes : List UInt8}
    (h : Roomy st ua s cap bytes n st₁ cap₁) : ¬ Full (st.arenas ua) cap bytes.length n := by
  rintro ⟨hneed, hfull⟩
  have hfits := h.fits
  have hcur := h.cur_eq
  have hle := UInt64.le_iff_toNat_le.mp h.cur_le
  rcases h.cap_cases with hsame | ⟨_, hgrown⟩
  · omega
  · omega

section MakeSpace

variable {st : Store} {ua s cap : ℕ} {bytes : List UInt8} {add : UInt64}

/-- **Making room**: there is enough, or the arena gives all that is asked for, or it refuses. -/
theorem lmStringMakeSpace_eq (hua : lmStringUa st.memory s = ua)
    (hlen : (lmStringLen st.memory s).toNat ≤ (lmStringCap st.memory s).toNat)
    (hcur : (st.arenas ua).cur.toNat ≤ (st.arenas ua).cap.toNat)
    (hwrap : (st.arenas ua).cur.toNat + add.toNat < 2 ^ 64) :
    lmStringMakeSpace st s add =
      if (lmStringLen st.memory s).toNat + add.toNat ≤ (lmStringCap st.memory s).toNat then
        (some s, st)
      else if (st.arenas ua).cur.toNat + add.toNat ≤ (st.arenas ua).cap.toNat then
        (some s,
          { st.setArena ua { st.arenas ua with cur := (st.arenas ua).cur + add } with
            memory := lmStringSetCap st.memory s (lmStringCap st.memory s + add) })
      else (none, st) := by
  have hneed : lmStringSpaceAvail st.memory s < add ↔
      ¬ (lmStringLen st.memory s).toNat + add.toNat ≤ (lmStringCap st.memory s).toNat := by
    rw [UInt64.lt_iff_toNat_lt, lmStringSpaceAvail, toNat_sub_of_le hlen]
    omega
  simp only [lmStringMakeSpace, hneed, hua, uaReserve_of_lt hwrap]
  by_cases havail : (lmStringLen st.memory s).toNat + add.toNat ≤ (lmStringCap st.memory s).toNat
  · rw [if_pos havail, if_neg (not_not_intro havail)]
  rw [if_neg havail, if_pos havail]
  by_cases hfit : (st.arenas ua).cur.toNat + add.toNat ≤ (st.arenas ua).cap.toNat
  · rw [if_pos hfit, if_pos hfit, if_neg (UInt64.lt_irrefl add), Store.setArena]
  · have hleft : (st.arenas ua).cap - (st.arenas ua).cur < add := by
      rw [UInt64.lt_iff_toNat_lt, toNat_sub_of_le hcur]
      omega
    rw [if_neg hfit, if_neg hfit, if_pos hleft, Store.setArena_self]

theorem lmStringMakeSpace_cases (h : IsString st.memory ua s cap bytes)
    (hcur : (st.arenas ua).cur ≤ (st.arenas ua).cap) (hcap : cap ≤ (st.arenas ua).cur.toNat)
    (hwrap : (st.arenas ua).cur.toNat + add.toNat < 2 ^ 64) :
    (Full (st.arenas ua) cap bytes.length add.toNat ∧ lmStringMakeSpace st s add = (none, st)) ∨
      ∃ st₁ cap₁, lmStringMakeSpace st s add = (some s, st₁) ∧
        Roomy st ua s cap bytes add.toNat st₁ cap₁ := by
  have hlen := h.len_le
  have hlenCap : (lmStringLen st.memory s).toNat ≤ (lmStringCap st.memory s).toNat := by
    rw [h.len_eq, h.cap_eq]
    exact hlen
  rw [lmStringMakeSpace_eq h.ua_eq hlenCap (UInt64.le_iff_toNat_le.mp hcur) hwrap, h.len_eq,
    h.cap_eq]
  by_cases hneed : bytes.length + add.toNat ≤ cap
  · rw [if_pos hneed]
    refine Or.inr ⟨st, cap, rfl, h, hneed, Or.inl rfl, ?_, rfl, hcur, fun _ _ => rfl⟩
    rw [Function.update_eq_self]
  rw [if_neg hneed]
  by_cases hfit : (st.arenas ua).cur.toNat + add.toNat ≤ (st.arenas ua).cap.toNat
  · rw [if_pos hfit]
    have hadd := toNat_add_of_lt hwrap
    have hnewCap : (lmStringCap st.memory s + add).toNat = cap + add.toNat := by
      rw [toNat_add_of_lt, h.cap_eq]
      rw [h.cap_eq]
      omega
    have hset : IsString (lmStringSetCap st.memory s (lmStringCap st.memory s + add)) ua s
        (lmStringCap st.memory s + add).toNat bytes := h.setCap (by omega)
    rw [hnewCap] at hset
    refine Or.inr ⟨_, cap + add.toNat, rfl, hset, ?_, ?_, ?_, ?_, ?_, ?_⟩
    · omega
    · exact Or.inr ⟨by omega, rfl⟩
    · simp [Store.setArena]
    · simp only [Store.setArena, Function.update_self, hadd]
      omega
    · simp only [Store.setArena, Function.update_self]
      rw [UInt64.le_iff_toNat_le, hadd]
      exact hfit
    · intro a ha
      have hs : 24 ≤ s := h.header_le
      simp only [headerSize] at ha
      refine Memory.storeWord_of_outside ?_
      simp only [headerSize]
      omega
  · rw [if_neg hfit]
    exact Or.inl ⟨⟨by omega, by omega⟩, rfl⟩

end MakeSpace

/-! ### Copying into a string -/

/-- The source avoids the header of `s` and the `n` bytes from byte `k` on. -/
def Apart (s k src n : ℕ) : Prop :=
  n = 0 ∨ src + n ≤ s - headerSize ∨ (s ≤ src ∧ (s + k + n ≤ src ∨ src + n ≤ s + k))

/-- `st'` is `st` with `src` put at byte `k` of the string. -/
structure Extended (st : Store) (ua s cap : ℕ) (bytes : List UInt8) (k : ℕ) (src : List UInt8)
    (st' : Store) (cap' : ℕ) : Prop where
  isString : IsString st'.memory ua s cap' (bytes.take k ++ src)
  not_full : ¬ Full (st.arenas ua) cap bytes.length src.length
  cap_cases : cap' = cap ∨ (cap < bytes.length + src.length ∧ cap' = cap + src.length)
  arenas : st'.arenas =
    Function.update st.arenas ua { st.arenas ua with cur := (st'.arenas ua).cur }
  cur_eq : (st'.arenas ua).cur.toNat + cap = (st.arenas ua).cur.toNat + cap'
  cur_le : (st'.arenas ua).cur ≤ (st.arenas ua).cap
  frame : ∀ a : ℕ, a < s - headerSize ∨ (s ≤ a ∧ a < s + k) ∨ s + (k + src.length) < a →
    st'.memory a = st.memory a

theorem mem_and_cap_of_update {st st' : Store} {ua : ℕ}
    (h : st'.arenas = Function.update st.arenas ua
      { st.arenas ua with cur := (st'.arenas ua).cur }) :
    (st'.arenas ua).mem = (st.arenas ua).mem ∧ (st'.arenas ua).cap = (st.arenas ua).cap := by
  have hua := congrFun h ua
  rw [Function.update_self] at hua
  constructor
  · rw [hua]
  · rw [hua]

/-- The cursor has moved as far as the capacity has grown. -/
theorem Extended.top_eq {st st' : Store} {ua s cap cap' k : ℕ} {bytes src : List UInt8}
    (h : Extended st ua s cap bytes k src st' cap') :
    (st'.arenas ua).top + cap = (st.arenas ua).top + cap' := by
  have hmem := (mem_and_cap_of_update h.arenas).1
  rw [UArena.top, UArena.top, hmem, Nat.add_assoc, h.cur_eq, ← Nat.add_assoc]

section Extend

variable {st st₁ : Store} {ua s cap cap₁ k : ℕ} {bytes src : List UInt8} {n : ℕ}

/-- Once there is room, `put` extends the string. -/
theorem Roomy.extended (h : Roomy st ua s cap bytes src.length st₁ cap₁) (hk : k ≤ bytes.length) :
    Extended st ua s cap bytes k src { st₁ with memory := put st₁.memory s k src } cap₁ := by
  have hfits := h.fits
  have hs : 24 ≤ s := h.isString.header_le
  refine ⟨h.isString.put hk (by omega), h.not_full, h.cap_cases, h.arenas, h.cur_eq, h.cur_le, ?_⟩
  intro a ha
  simp only [headerSize] at ha
  have hput : put st₁.memory s k src a = st₁.memory a :=
    put_of_outside hs (by simp only [headerSize]; omega) (by omega)
  exact hput.trans (h.frame a (by simp only [headerSize]; omega))

/-- Making room does not change a source that is apart from the string. -/
theorem Roomy.read_eq (h : Roomy st ua s cap bytes n st₁ cap₁) {p : ℕ} (hp : Apart s k p n) :
    st₁.memory.read p n = st.memory.read p n := by
  refine Memory.read_congr fun i hi => h.frame _ ?_
  rcases hp with h0 | hp
  · omega
  · rcases hp with hbelow | ⟨habove, _⟩
    · exact Or.inl (by omega)
    · exact Or.inr (by omega)

/-- `memcpy` of a source apart from the string. -/
theorem Apart.copy_eq {m : Memory} {p : ℕ} (hp : Apart s k p n) :
    m.copy? (s + k) p n = some (m.write (s + k) (m.read p n)) := by
  apply Memory.copy?_of_apart
  rcases hp with h0 | hbelow | ⟨_, habove⟩
  · exact Or.inl h0
  · exact Or.inr (Or.inr (by omega))
  · exact Or.inr habove

end Extend

section Append

variable {st : Store} {ua s cap : ℕ} {bytes : List UInt8} {n : UInt64} {other : ℕ}

/-- **Appending.** -/
theorem lmStringAppendOf_cases (h : IsString st.memory ua s cap bytes)
    (hcur : (st.arenas ua).cur ≤ (st.arenas ua).cap) (hcap : cap ≤ (st.arenas ua).cur.toNat)
    (hwrap : (st.arenas ua).cur.toNat + n.toNat < 2 ^ 64)
    (hother : ¬ Full (st.arenas ua) cap bytes.length n.toNat →
      Apart s bytes.length other n.toNat) :
    (Full (st.arenas ua) cap bytes.length n.toNat ∧
        lmStringAppendOf st s other n = some (none, st)) ∨
      ∃ st' cap', lmStringAppendOf st s other n = some (some s, st') ∧
        Extended st ua s cap bytes bytes.length (st.memory.read other n.toNat) st' cap' := by
  simp only [lmStringAppendOf]
  rcases lmStringMakeSpace_cases h hcur hcap hwrap with ⟨hfull, hnone⟩ | ⟨st₁, cap₁, hsome, hroom⟩
  · rw [hnone]
    exact Or.inl ⟨hfull, rfl⟩
  · replace hother := hother hroom.not_full
    have hlen := hroom.isString.len_eq
    have hread := hroom.read_eq hother
    have hfits := hroom.fits
    have hcapLt := hroom.isString.cap_lt
    have hsum : (lmStringLen st₁.memory s + n).toNat = bytes.length + n.toNat := by
      rw [toNat_add_of_lt, hlen]
      rw [hlen]
      exact Nat.lt_of_le_of_lt hfits hcapLt
    have hword : lmStringLen st₁.memory s + n = UInt64.ofNat (bytes.length + n.toNat) := by
      rw [← hsum, UInt64.ofNat_toNat]
    have hroom' : Roomy st ua s cap bytes (st.memory.read other n.toNat).length st₁ cap₁ := by
      rw [Memory.length_read]
      exact hroom
    refine Or.inr ⟨_, cap₁, ?_, hroom'.extended (Nat.le_refl _)⟩
    simp only [hsome]
    rw [hlen, hother.copy_eq, hread, hsum, hword, Option.map_some, put, Memory.length_read]

theorem lmStringSet_cases {c len : ℕ} (h : IsString st.memory ua s cap bytes)
    (hcur : (st.arenas ua).cur ≤ (st.arenas ua).cap) (hcap : cap ≤ (st.arenas ua).cur.toNat)
    (hlen : st.memory.strlen c = some len)
    (hwrap : (st.arenas ua).cur.toNat + len < 2 ^ 64) (hc : Apart s 0 c len) :
    (Full (st.arenas ua) cap bytes.length len ∧ lmStringSet st s c = some (none, st)) ∨
      ∃ st' cap', lmStringSet st s c = some (some s, st') ∧
        Extended st ua s cap bytes 0 (st.memory.read c len) st' cap' := by
  have hword : (UInt64.ofNat len).toNat = len :=
    toNat_ofNat_of_lt_size (Nat.lt_of_le_of_lt (Nat.le_add_left _ _) hwrap)
  have hwrap' : (st.arenas ua).cur.toNat + (UInt64.ofNat len).toNat < 2 ^ 64 := by
    rw [hword]
    exact hwrap
  simp only [lmStringSet, hlen, Option.bind_some]
  rcases lmStringMakeSpace_cases h hcur hcap hwrap' with ⟨hfull, hnone⟩ | ⟨st₁, cap₁, hsome, hroom⟩
  · rw [hword] at hfull
    rw [hnone]
    exact Or.inl ⟨hfull, rfl⟩
  · rw [hword] at hroom
    have hread := hroom.read_eq hc
    have hs : 24 ≤ s := h.header_le
    have hroom' : Roomy st ua s cap bytes (st.memory.read c len).length st₁ cap₁ := by
      rw [Memory.length_read]
      exact hroom
    refine Or.inr ⟨_, cap₁, ?_, hroom'.extended (Nat.zero_le _)⟩
    simp only [hsome]
    have hcopy := hc.copy_eq (m := st₁.memory)
    rw [Nat.add_zero] at hcopy
    rw [hword, hcopy, hread, Option.map_some, put, Memory.length_read, Nat.add_zero, Nat.zero_add,
      lmStringSetLen, lmStringSetLen, Memory.storeWord, Memory.storeWord, Memory.write_comm]
    simp only [headerSize, List.length_singleton, Bytes.length_toLE]
    omega

end Append

/-! ### The functions that make a string longer -/

/-- A call of one of them, with its arguments after the string. -/
inductive Growth where
  | append (other : ℕ)                   -- `lm_string_append`
  | appendC (other : ℕ)                  -- `lm_string_append_c`
  | appendOf (other : ℕ) (n : UInt64)    -- `lm__string_append__`
  | set (cString : ℕ)                    -- `lm_string_set`
deriving DecidableEq, Repr

/-- The bytes of the C string at `p`. -/
def cBytes (m : Memory) (p : ℕ) : List UInt8 := m.read p ((m.strlen p).getD 0)

/-- The bytes of the `LmString` at `p`. -/
def lmBytes (m : Memory) (p : ℕ) : List UInt8 := m.read p (lmStringLen m p).toNat

namespace Growth

def call (st : Store) (s : ℕ) : Growth → Option (Option Addr × Store)
  | .append other => lmStringAppend st s other
  | .appendC other => lmStringAppendC st s other
  | .appendOf other n => lmStringAppendOf st s other n
  | .set cString => lmStringSet st s cString

/-- The bytes copied. -/
def src (m : Memory) : Growth → List UInt8
  | .append other => lmBytes m other
  | .appendC other => cBytes m other
  | .appendOf other n => m.read other n.toNat
  | .set cString => cBytes m cString

/-- Where in a string of length `len` they go. -/
def start (len : ℕ) : Growth → ℕ
  | .set _ => 0
  | _ => len

/-- What the caller promises.  The source avoids the bytes that the call writes; the
    string itself does.  An object has less than `2^63` bytes. -/
def Legal (m : Memory) (s len : ℕ) : Growth → Prop
  | .append other =>
      (lmStringLen m other).toNat < 2 ^ 63 ∧ Apart s len other (lmStringLen m other).toNat
  | .appendC other => ∃ n, m.strlen other = some n ∧ Apart s len other n
  | .appendOf other n => n.toNat < 2 ^ 63 ∧ Apart s len other n.toNat
  | .set cString => ∃ n, m.strlen cString = some n ∧ Apart s 0 cString n

instance (s k src n : ℕ) : Decidable (Apart s k src n) := by unfold Apart; infer_instance

/-- A caller can check its promises. -/
instance (m : Memory) (s len : ℕ) : DecidablePred (Legal m s len)
  | .append _ => by unfold Legal; infer_instance
  | .appendC other =>
      decidable_of_iff (∃ n ∈ m.strlen other, Apart s len other n) Iff.rfl
  | .appendOf _ _ => by unfold Legal; infer_instance
  | .set cString => decidable_of_iff (∃ n ∈ m.strlen cString, Apart s 0 cString n) Iff.rfl

theorem start_le (g : Growth) (len : ℕ) : g.start len ≤ len := by
  cases g with
  | set _ => exact Nat.zero_le _
  | append _ | appendC _ | appendOf _ _ => exact Nat.le_refl _

section

variable {m : Memory} {s len : ℕ} {g : Growth}

theorem Legal.length_src_lt (h : g.Legal m s len) : (g.src m).length < 2 ^ 63 := by
  cases g with
  | append other =>
    rw [src, lmBytes, Memory.length_read]
    exact h.1
  | appendC other =>
    obtain ⟨n, hn, _⟩ := h
    have hlt : n < 2 ^ 57 := Memory.strlen_lt hn
    rw [src, cBytes, hn, Option.getD_some, Memory.length_read]
    omega
  | appendOf other n =>
    rw [src, Memory.length_read]
    exact h.1
  | set cString =>
    obtain ⟨n, hn, _⟩ := h
    have hlt : n < 2 ^ 57 := Memory.strlen_lt hn
    rw [src, cBytes, hn, Option.getD_some, Memory.length_read]
    omega

end

/-- **Each of them refuses and changes nothing, or extends the string.** -/
theorem call_cases {st : Store} {ua s cap : ℕ} {bytes : List UInt8} {g : Growth}
    (h : IsString st.memory ua s cap bytes)
    (hcur : (st.arenas ua).cur ≤ (st.arenas ua).cap) (hcap : cap ≤ (st.arenas ua).cur.toNat)
    (hwrap : (st.arenas ua).cur.toNat + (g.src st.memory).length < 2 ^ 64)
    (hlegal : g.Legal st.memory s bytes.length) :
    (Full (st.arenas ua) cap bytes.length (g.src st.memory).length ∧
        g.call st s = some (none, st)) ∨
      ∃ st' cap', g.call st s = some (some s, st') ∧
        Extended st ua s cap bytes (g.start bytes.length) (g.src st.memory) st' cap' := by
  cases g with
  | append other =>
    have hcall : call st s (.append other) =
        lmStringAppendOf st s other (lmStringLen st.memory other) := rfl
    rw [src, lmBytes, Memory.length_read] at hwrap ⊢
    rw [hcall]
    exact lmStringAppendOf_cases h hcur hcap hwrap fun _ => hlegal.2
  | appendC other =>
    obtain ⟨n, hn, hapart⟩ := hlegal
    have hlt : n < 2 ^ 57 := Memory.strlen_lt hn
    have hword : (UInt64.ofNat n).toNat = n := toNat_ofNat_of_lt (by omega)
    have hcall : call st s (.appendC other) = lmStringAppendOf st s other (UInt64.ofNat n) := by
      rw [call, lmStringAppendC, hn, Option.bind_some]
    rw [src, cBytes, hn, Option.getD_some, Memory.length_read] at hwrap ⊢
    rw [← hword] at hapart hwrap
    have hcases := lmStringAppendOf_cases h hcur hcap hwrap fun _ => hapart
    rw [hword] at hcases
    rw [hcall]
    exact hcases
  | appendOf other n =>
    have hcall : call st s (.appendOf other n) = lmStringAppendOf st s other n := rfl
    rw [src, Memory.length_read] at hwrap ⊢
    rw [hcall]
    exact lmStringAppendOf_cases h hcur hcap hwrap fun _ => hlegal.2
  | set cString =>
    obtain ⟨n, hn, hapart⟩ := hlegal
    have hcall : call st s (.set cString) = lmStringSet st s cString := rfl
    rw [src, cBytes, hn, Option.getD_some, Memory.length_read] at hwrap ⊢
    rw [hcall]
    exact lmStringSet_cases h hcur hcap hn hwrap hapart

end Growth

/-! ### Shortening a string -/

section Shorten

variable {st : Store} {ua s cap : ℕ} {bytes : List UInt8} {n : UInt64}

theorem put_nil (m : Memory) (s k : ℕ) :
    put m s k [] = (lmStringSetLen m s (UInt64.ofNat k)).write (s + k) [0] := by
  rw [put, Memory.write_nil, List.length_nil, Nat.add_zero]

theorem lmStringClear_eq (st : Store) (s : ℕ) :
    lmStringClear st s = { st with memory := put st.memory s 0 [] } := by
  rw [put_nil]
  rfl

theorem lmStringBackspace_eq (h : IsString st.memory ua s cap bytes) (hn : n.toNat ≤ bytes.length) :
    lmStringBackspace st s n =
      { st with memory := put st.memory s (bytes.length - n.toNat) [] } := by
  have hlen := h.len_eq
  have hnew : (lmStringLen st.memory s - n).toNat = bytes.length - n.toNat := by
    rw [toNat_sub_of_le, hlen]
    rw [hlen]
    exact hn
  have hword : lmStringLen st.memory s - n = UInt64.ofNat (bytes.length - n.toNat) := by
    rw [← hnew, UInt64.ofNat_toNat]
  have hle : n ≤ lmStringLen st.memory s := by
    rw [UInt64.le_iff_toNat_le, hlen]
    exact hn
  simp only [lmStringBackspace, if_pos hle]
  rw [hnew, hword, put_nil]

/-- Cutting the string down to its first `k` bytes. -/
theorem IsString.cut (h : IsString st.memory ua s cap bytes) {k : ℕ} (hk : k ≤ bytes.length) :
    IsString (Strings.put st.memory s k []) ua s cap (bytes.take k) := by
  have hle := h.len_le
  have hput : IsString (Strings.put st.memory s k []) ua s cap (bytes.take k ++ []) :=
    h.put hk (by simp only [List.length_nil]; omega)
  rwa [List.append_nil] at hput

end Shorten

/-! ### A string in a new block -/

/-- What `lm__string_make__` puts into the new string. -/
def initBytes (m : Memory) : Option Addr → ℕ → List UInt8
  | some p, n => m.read p n
  | none, n => List.replicate n 0

/-- `st'` is `st` with a new string at the cursor. -/
structure MadeAt (st : Store) (ua s : ℕ) (bytes : List UInt8) (st' : Store) : Prop where
  isString : IsString st'.memory ua s bytes.length bytes
  start_eq : s = (st.arenas ua).top + headerSize
  arenas : st'.arenas =
    Function.update st.arenas ua { st.arenas ua with cur := (st'.arenas ua).cur }
  cur_eq : (st'.arenas ua).cur.toNat = (st.arenas ua).cur.toNat + (headerSize + bytes.length + 1)
  cur_le : (st'.arenas ua).cur ≤ (st.arenas ua).cap
  frame : ∀ a : ℕ, a < s - headerSize ∨ s + bytes.length < a → st'.memory a = st.memory a

theorem MadeAt.top_eq {st st' : Store} {ua s : ℕ} {bytes : List UInt8}
    (h : MadeAt st ua s bytes st') :
    (st'.arenas ua).top = (st.arenas ua).top + (headerSize + bytes.length + 1) := by
  have hmem := (mem_and_cap_of_update h.arenas).1
  rw [UArena.top, UArena.top, hmem, h.cur_eq]
  exact (Nat.add_assoc _ _ _).symm

section Block

variable {m : Memory} {ua s cap : ℕ} {bytes src : List UInt8}

/-- A block with the three words of a header, and nothing else written. -/
def headed (m : Memory) (mem ua : ℕ) (n : UInt64) : Memory :=
  lmStringSetCap (lmStringSetLen (m.storeWord mem (UInt64.ofNat ua)) (mem + headerSize) n)
    (mem + headerSize) n

theorem headed_of_outside {mem a : ℕ} {n : UInt64} (h : a < mem ∨ mem + headerSize ≤ a) :
    headed m mem ua n a = m a := by
  simp only [headerSize] at h
  simp only [headed, lmStringSetCap, lmStringSetLen, Nat.add_sub_cancel]
  rw [Memory.storeWord_of_outside (by omega), Memory.storeWord_of_outside (by omega),
    Memory.storeWord_of_outside (by omega)]

/-- A header, some bytes and a `NUL` are a string. -/
theorem isString_of_headed (hua : ua < 2 ^ 64) {m' : Memory} {mem : ℕ} {n : UInt64}
    (hheader : ∀ a : ℕ, mem ≤ a → a < mem + headerSize → m' a = headed m mem ua n a)
    (hlen : bytes.length = n.toNat) (hbytes : m'.read (mem + headerSize) n.toNat = bytes)
    (hnul : m' (mem + headerSize + n.toNat) = 0) :
    IsString m' ua (mem + headerSize) n.toNat bytes := by
  have hword : ∀ k, k ≤ 16 → m'.loadWord (mem + k) = (headed m mem ua n).loadWord (mem + k) := by
    intro k hk
    refine Memory.loadWord_congr fun i hi => hheader _ ?_ ?_
    · omega
    · simp only [headerSize]
      omega
  refine ⟨Nat.le_add_left _ _, ?_, ?_, ?_, Nat.le_of_eq hlen, ?_, ?_⟩
  · have hfirst := hword 0 (Nat.zero_le _)
    rw [Nat.add_zero] at hfirst
    rw [lmStringUa, Nat.add_sub_cancel, hfirst]
    simp only [headed, lmStringSetCap, lmStringSetLen, Nat.add_sub_cancel]
    rw [Memory.loadWord_storeWord_of_disjoint (by omega),
      Memory.loadWord_storeWord_of_disjoint (by omega), Memory.loadWord_storeWord]
    exact toNat_ofNat_of_lt_size hua
  · rw [lmStringLen, Nat.add_sub_cancel, hword 8 (by omega), hlen]
    simp only [headed, lmStringSetCap, lmStringSetLen, Nat.add_sub_cancel]
    rw [Memory.loadWord_storeWord_of_disjoint (by omega), Memory.loadWord_storeWord]
  · rw [lmStringCap, Nat.add_sub_cancel, hword 16 (by omega)]
    simp only [headed, lmStringSetCap, Nat.add_sub_cancel, Memory.loadWord_storeWord]
  · rw [hlen]
    exact hbytes
  · rw [hlen]
    exact hnul

/-- A zeroed block with the three words of a header. -/
def blank (m : Memory) (mem ua : ℕ) (n : UInt64) : Memory :=
  lmStringSetCap (lmStringSetLen
    ((m.fill ⟨mem, headerSize + n.toNat + 1⟩ 0).storeWord mem (UInt64.ofNat ua))
    (mem + headerSize) n) (mem + headerSize) n

theorem blank_eq_headed (m : Memory) (mem ua : ℕ) (n : UInt64) :
    blank m mem ua n = headed (m.fill ⟨mem, headerSize + n.toNat + 1⟩ 0) mem ua n := rfl

theorem blank_of_outside {mem a : ℕ} {n : UInt64}
    (h : a < mem ∨ mem + (headerSize + n.toNat) < a) : blank m mem ua n a = m a := by
  rw [blank_eq_headed, headed_of_outside (by omega), Memory.fill_of_notMem]
  simp only [Span.mem_cells, Span.stop]
  omega

theorem blank_of_inside {mem a : ℕ} {n : UInt64}
    (h : mem + headerSize ≤ a ∧ a ≤ mem + (headerSize + n.toNat)) : blank m mem ua n a = 0 := by
  rw [blank_eq_headed, headed_of_outside (Or.inr h.1)]
  refine Memory.fill_of_mem ?_
  simp only [Span.mem_cells, Span.stop]
  omega

theorem isString_blank (hua : ua < 2 ^ 64) (m : Memory) (mem : ℕ) (n : UInt64) :
    IsString (blank m mem ua n) ua (mem + headerSize) n.toNat (List.replicate n.toNat 0) := by
  refine isString_of_headed hua (fun a _ _ => congrFun (blank_eq_headed m mem ua n) a)
    List.length_replicate ?_ (blank_of_inside ⟨by omega, by omega⟩)
  refine List.ext_getElem (by simp) ?_
  intro i hi _
  rw [Memory.length_read] at hi
  rw [Memory.getElem_read, List.getElem_replicate]
  exact blank_of_inside ⟨by omega, by omega⟩

/-- Other bytes, as many as before. -/
theorem IsString.overwrite (h : IsString m ua s cap bytes) (hsrc : src.length = bytes.length) :
    IsString ((m.write s src).write (s + bytes.length) [0]) ua s cap src := by
  have hs : 24 ≤ s := h.header_le
  have hword : ∀ k, k ≤ 16 → ((m.write s src).write (s + bytes.length) [0]).loadWord
      (s - headerSize + k) = m.loadWord (s - headerSize + k) := by
    intro k hk
    rw [Memory.loadWord_write_of_disjoint (by simp only [headerSize]; omega),
      Memory.loadWord_write_of_disjoint (by simp only [headerSize]; omega)]
  refine ⟨h.header_le, ?_, ?_, ?_, hsrc ▸ h.len_le, ?_, ?_⟩
  · rw [← h.ua_eq, lmStringUa, lmStringUa]
    exact congrArg UInt64.toNat (hword 0 (by omega))
  · rw [hsrc, lmStringLen, hword 8 (by omega)]
    exact h.len_eq
  · rw [← h.cap_eq, lmStringCap, lmStringCap, hword 16 (by omega)]
  · rw [← hsrc, Memory.read_write_of_disjoint (by omega), Memory.read_write_same]
  · rw [hsrc]
    exact Memory.write_single

/-- The `NUL` is there already. -/
theorem IsString.write_nul (h : IsString m ua s cap bytes) :
    m.write (s + bytes.length) [0] = m := by
  refine funext fun (a : ℕ) => ?_
  by_cases ha : a = s + bytes.length
  · rw [ha, Memory.write_single, h.nul]
  · exact Memory.write_of_outside (by simp only [List.length_singleton]; omega)

theorem madeAt_of_isString {st : Store} {n : UInt64} {m' : Memory}
    (hsize : n.toNat = headerSize + bytes.length + 1)
    (hwrap : (st.arenas ua).cur.toNat + n.toNat < 2 ^ 64)
    (hfit : (st.arenas ua).cur.toNat + n.toNat ≤ (st.arenas ua).cap.toNat)
    (hs : s = (st.arenas ua).top + headerSize)
    (hstring : IsString m' ua s bytes.length bytes)
    (hframe : ∀ a : ℕ, a < s - headerSize ∨ s + bytes.length < a → m' a = st.memory a) :
    MadeAt st ua s bytes
      { arenas := Function.update st.arenas ua
          { st.arenas ua with cur := (st.arenas ua).cur + n }
        memory := m' } := by
  refine ⟨hstring, hs, ?_, ?_, ?_, hframe⟩
  · simp only [Function.update_self]
  · simp only [Function.update_self]
    rw [toNat_add_of_lt hwrap, hsize]
  · simp only [Function.update_self]
    rw [UInt64.le_iff_toNat_le, toNat_add_of_lt hwrap]
    exact hfit

theorem toNat_stringSize {n : UInt64} (h : headerSize + n.toNat + 1 < 2 ^ 64) :
    (UInt64.ofNat headerSize + n + 1).toNat = headerSize + n.toNat + 1 := by
  have hheader : (UInt64.ofNat headerSize).toNat = headerSize := rfl
  have hfirst : (UInt64.ofNat headerSize + n).toNat = headerSize + n.toNat := by
    rw [toNat_add_of_lt, hheader]
    rw [hheader]
    omega
  rw [toNat_add_of_lt, hfirst, UInt64.toNat_one]
  rw [hfirst, UInt64.toNat_one]
  exact h

end Block

/-! ### Making a string -/

section Make

variable {st : Store} {a : ℕ} {n : UInt64}

/-- The arena after it has given a string of `n` bytes away. -/
def given (st : Store) (a : ℕ) (n : UInt64) (m : Memory) : Store :=
  { arenas := Function.update st.arenas a
      { st.arenas a with cur := (st.arenas a).cur + (UInt64.ofNat headerSize + n + 1) }
    memory := m }

/-- The arena has room for a string of `n` bytes. -/
structure HasRoom (st : Store) (a : ℕ) (n : UInt64) : Prop where
  wrap : (st.arenas a).cur.toNat + (headerSize + n.toNat + 1) < 2 ^ 64
  fit : (st.arenas a).cur.toNat + (headerSize + n.toNat + 1) ≤ (st.arenas a).cap.toNat

/-- A string in the memory that has been given away. -/
theorem HasRoom.madeAt (h : HasRoom st a n) {m' : Memory} {bytes : List UInt8}
    (hlength : bytes.length = n.toNat)
    (hstring : IsString m' a ((st.arenas a).top + headerSize) n.toNat bytes)
    (hframe : ∀ x : ℕ, x < (st.arenas a).top ∨ (st.arenas a).top + (headerSize + n.toNat) < x →
      m' x = st.memory x) :
    MadeAt st a ((st.arenas a).top + headerSize) bytes (given st a n m') := by
  have hsize := toNat_stringSize (n := n) (Nat.lt_of_le_of_lt (Nat.le_add_left _ _) h.wrap)
  refine madeAt_of_isString ?_ ?_ ?_ rfl (hlength.symm ▸ hstring) ?_
  · rw [hsize, hlength]
  · rw [hsize]
    exact h.wrap
  · rw [hsize]
    exact h.fit
  · intro x hx
    apply hframe
    rw [Nat.add_sub_cancel, hlength, Nat.add_assoc] at hx
    exact hx

theorem HasRoom.uaZalloc_eq (h : HasRoom st a n) :
    uaZalloc (st.arenas a) (UInt64.ofNat headerSize + n + 1) st.memory =
      (some (st.arenas a).top, (given st a n st.memory).arenas a,
        st.memory.fill ⟨(st.arenas a).top, headerSize + n.toNat + 1⟩ 0) := by
  have hsize := toNat_stringSize (n := n) (Nat.lt_of_le_of_lt (Nat.le_add_left _ _) h.wrap)
  have hwrap := h.wrap
  rw [← hsize] at hwrap
  simp only [uaZalloc_of_lt hwrap, hsize, if_pos h.fit, given, Function.update_self]
  rfl

/-- Nothing is copied: the `NUL` and the bytes before it are zero already. -/
theorem HasRoom.lmMake_blank (h : HasRoom st a n) (ha : a < 2 ^ 64) {init : Option Addr}
    (hinit : init = none ∨ n = 0) :
    ∃ st', lmStringMakeOf st init n a = some (some ((st.arenas a).top + headerSize), st') ∧
      MadeAt st a ((st.arenas a).top + headerSize) (List.replicate n.toNat 0) st' := by
  have hblank := isString_blank ha st.memory (st.arenas a).top n
  have hnul := hblank.write_nul
  rw [List.length_replicate] at hnul
  refine ⟨given st a n (blank st.memory (st.arenas a).top a n), ?_,
    h.madeAt List.length_replicate hblank fun _ => blank_of_outside⟩
  have hmake : lmStringMakeOf st none n a = some (some ((st.arenas a).top + headerSize),
      given st a n (blank st.memory (st.arenas a).top a n)) := by
    simp only [lmStringMakeOf, h.uaZalloc_eq, given, Function.update_self, Option.map_some]
    exact congrArg (fun m => some (some ((st.arenas a).top + headerSize), given st a n m)) hnul
  rcases hinit with rfl | rfl
  · exact hmake
  · cases init with
    | none => exact hmake
    | some p => exact hmake

/-- The bytes of a source outside the new string are copied. -/
theorem HasRoom.lmMake_copied (h : HasRoom st a n) (ha : a < 2 ^ 64) {p : ℕ} (hn : 0 < n)
    (hp : p + n.toNat ≤ (st.arenas a).top ∨
      (st.arenas a).top + (headerSize + n.toNat + 1) ≤ p) :
    ∃ st', lmStringMakeOf st (some p) n a =
        some (some ((st.arenas a).top + headerSize), st') ∧
      MadeAt st a ((st.arenas a).top + headerSize) (st.memory.read p n.toNat) st' := by
  obtain ⟨mem, hmem⟩ : ∃ mem : ℕ, mem = (st.arenas a).top := ⟨_, rfl⟩
  have hframe : ∀ x : ℕ, x < mem ∨ mem + (headerSize + n.toNat) < x →
      blank st.memory mem a n x = st.memory x := fun x => blank_of_outside
  have hlength := Memory.length_read st.memory p n.toNat
  rw [← hmem] at hp ⊢
  simp only [headerSize] at hp hframe
  have hread : (blank st.memory mem a n).read p n.toNat = st.memory.read p n.toNat :=
    Memory.read_congr fun i hi => hframe _ (by omega)
  have hcopy : (blank st.memory mem a n).copy? (mem + headerSize) p n.toNat = some
      ((blank st.memory mem a n).write (mem + headerSize) (st.memory.read p n.toNat)) := by
    rw [← hread]
    exact Memory.copy?_of_apart (by simp only [headerSize]; omega)
  have hstring := @IsString.overwrite _ _ _ _ _ (st.memory.read p n.toNat)
    (isString_blank ha st.memory mem n) (by rw [hlength, List.length_replicate])
  rw [List.length_replicate] at hstring
  refine ⟨given st a n (((blank st.memory mem a n).write (mem + headerSize)
    (st.memory.read p n.toNat)).write (mem + headerSize + n.toNat) [0]), ?_, ?_⟩
  · simp only [lmStringMakeOf, h.uaZalloc_eq, given, Function.update_self, if_pos hn, ← hmem]
    exact congrArg (Option.map _) hcopy
  · rw [hmem] at hstring hframe ⊢
    refine h.madeAt hlength hstring ?_
    intro x hx
    simp only [headerSize] at hx
    rw [Memory.write_of_outside (by simp only [headerSize, List.length_singleton]; omega),
      Memory.write_of_outside (by simp only [headerSize]; omega)]
    exact hframe x hx

theorem lmStringMakeOf_of_full
    (hwrap : (st.arenas a).cur.toNat + (headerSize + n.toNat + 1) < 2 ^ 64)
    (hfull : (st.arenas a).cap.toNat < (st.arenas a).cur.toNat + (headerSize + n.toNat + 1))
    (init : Option Addr) : lmStringMakeOf st init n a = some (none, st) := by
  have hsize := toNat_stringSize (n := n) (Nat.lt_of_le_of_lt (Nat.le_add_left _ _) hwrap)
  rw [← hsize] at hwrap hfull
  simp only [lmStringMakeOf, uaZalloc_of_lt hwrap, if_neg (Nat.not_le_of_lt hfull)]

/-- **Making a string.** -/
theorem lmStringMakeOf_cases {ua : ℕ} {init : Option Addr} (hua : ua < 2 ^ 64)
    (hwrap : (st.arenas ua).cur.toNat + (headerSize + n.toNat + 1) < 2 ^ 64)
    (hinit : ∀ p : ℕ, init = some p → n.toNat = 0 ∨
      p + n.toNat ≤ (st.arenas ua).top ∨
      (st.arenas ua).top + (headerSize + n.toNat + 1) ≤ p) :
    ((st.arenas ua).cap.toNat < (st.arenas ua).cur.toNat + (headerSize + n.toNat + 1) ∧
        lmStringMakeOf st init n ua = some (none, st)) ∨
      ∃ (s : ℕ) (st' : Store), lmStringMakeOf st init n ua = some (some s, st') ∧
        MadeAt st ua s (initBytes st.memory init n.toNat) st' := by
  rcases Nat.lt_or_ge (st.arenas ua).cap.toNat
    ((st.arenas ua).cur.toNat + (headerSize + n.toNat + 1)) with hfull | hfit
  · exact Or.inl ⟨hfull, lmStringMakeOf_of_full hwrap hfull init⟩
  · have hroom : HasRoom st ua n := ⟨hwrap, hfit⟩
    refine Or.inr ⟨(st.arenas ua).top + headerSize, ?_⟩
    cases init with
    | none => exact hroom.lmMake_blank hua (Or.inl rfl)
    | some p =>
      by_cases hn : n = 0
      · subst hn
        exact hroom.lmMake_blank hua (Or.inr rfl)
      · have hne : n.toNat ≠ 0 := fun h => hn (UInt64.toNat_inj.mp h)
        have hpos : 0 < n := UInt64.lt_iff_toNat_lt.mpr (Nat.pos_of_ne_zero hne)
        exact hroom.lmMake_copied hua hpos ((hinit p rfl).resolve_left hne)

end Make

end Lmalloc.Strings
