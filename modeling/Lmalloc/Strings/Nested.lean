/-
  Lmalloc/Strings/Nested.lean
  ===========================
  **`SdbStringFree` undoes `SdbStringMake`, on a stack of strings.**

  `SdbStringFree` takes as many bytes from the arena as the header of the string
  says that it has: the header, the capacity and one more.  The capacity has grown
  with every byte that was reserved for the string, so that the cursor ends where it
  was when the string was made, whatever has happened to the string since.

  Only the header counts.  The one operation that may write into it is
  `SdbStringBackspace`, when it takes more bytes than there are.
-/
import Lmalloc.Strings.SdbString

namespace Lmalloc.Strings

open Lmalloc.Library Lmalloc.Library.Word Lmalloc.Arena

/-! ### The functions -/

/-- `sdb_string_header` -/
structure SdbStringHeader where
  arena : Addr
  len : UInt64
  cap : UInt64
deriving DecidableEq, Repr

/-- `*SDB_STRING_HEADER(str)` -/
def sdbStringHeader (m : Memory) (str : Addr) : SdbStringHeader :=
  ⟨lmStringUa m str, lmStringLen m str, lmStringCap m str⟩

def sdbStringFree (st : Store) : Option Addr → Store
  | none => st
  | some string =>
      let h := sdbStringHeader st.memory string
      let popSize := UInt64.ofNat headerSize + h.cap + 1
      st.setArena h.arena (uaPop (st.arenas h.arena) popSize)

/-- A change of one string. -/
inductive Change where
  | append (other : Addr)
  | appendC (other : Addr)
  | set (cString : Addr)
  | clear
  | backspace (n : UInt64)
deriving DecidableEq, Repr

def Change.call (st : Store) (s : Addr) : Change → Option (Option Addr × Store)
  | .append other => sdbStringAppend st s other
  | .appendC other => sdbStringAppendC st s other
  | .set cString => sdbStringSet st s cString
  | .clear => some (some s, sdbStringClear st s)
  | .backspace n => some (some s, sdbStringBackspace st s n)

/-! ### Writing around a header -/

section Header

variable {m m' : Memory} {s : ℕ}

theorem sdbStringHeader_eq_iff {a : ℕ} {len cap : UInt64} :
    sdbStringHeader m s = ⟨a, len, cap⟩ ↔
      lmStringUa m s = a ∧ lmStringLen m s = len ∧ lmStringCap m s = cap := by
  rw [sdbStringHeader, SdbStringHeader.mk.injEq]

theorem sdbStringHeader_congr (hs : headerSize ≤ s)
    (h : ∀ y : ℕ, s - headerSize ≤ y → y < s → m' y = m y) :
    sdbStringHeader m' s = sdbStringHeader m s := by
  have hword : ∀ k, k ≤ 16 → m'.loadWord (s - headerSize + k) = m.loadWord (s - headerSize + k) := by
    intro k hk
    simp only [headerSize] at hs h ⊢
    refine Memory.loadWord_congr fun i hi => h _ ?_ ?_
    · omega
    · omega
  have hua := hword 0 (by omega)
  rw [Nat.add_zero] at hua
  rw [sdbStringHeader, sdbStringHeader, lmStringUa, lmStringUa, hua, lmStringLen, lmStringLen,
    hword 8 (by omega), lmStringCap, lmStringCap, hword 16 (Nat.le_refl _)]

/-- Bytes behind the header. -/
theorem sdbStringHeader_write (hs : headerSize ≤ s) {p : ℕ} (hp : s ≤ p) (bs : List UInt8) :
    sdbStringHeader (m.write p bs) s = sdbStringHeader m s :=
  sdbStringHeader_congr hs fun _ _ hy =>
    Memory.write_of_outside (Or.inl (Nat.lt_of_lt_of_le hy hp))

theorem sdbStringHeader_setLen (hs : headerSize ≤ s) (len : UInt64) :
    sdbStringHeader (lmStringSetLen m s len) s = { sdbStringHeader m s with len := len } := by
  obtain ⟨p, rfl⟩ := Nat.exists_eq_add_of_le' hs
  simp only [sdbStringHeader, lmStringUa, lmStringLen, lmStringCap, lmStringSetLen,
    Nat.add_sub_cancel, Memory.loadWord_storeWord]
  rw [Memory.loadWord_storeWord_of_disjoint (by omega),
    Memory.loadWord_storeWord_of_disjoint (by omega)]

theorem sdbStringHeader_setCap (hs : headerSize ≤ s) (cap : UInt64) :
    sdbStringHeader (lmStringSetCap m s cap) s = { sdbStringHeader m s with cap := cap } := by
  obtain ⟨p, rfl⟩ := Nat.exists_eq_add_of_le' hs
  simp only [sdbStringHeader, lmStringUa, lmStringLen, lmStringCap, lmStringSetCap,
    Nat.add_sub_cancel, Memory.loadWord_storeWord]
  rw [Memory.loadWord_storeWord_of_disjoint (by omega),
    Memory.loadWord_storeWord_of_disjoint (by omega)]

variable {y : ℕ}

theorem lmStringSetLen_of_below (hy : y < s - headerSize) (len : UInt64) :
    lmStringSetLen m s len y = m y :=
  Memory.storeWord_of_outside (Or.inl (Nat.lt_add_right _ hy))

theorem lmStringSetCap_of_below (hy : y < s - headerSize) (cap : UInt64) :
    lmStringSetCap m s cap y = m y :=
  Memory.storeWord_of_outside (Or.inl (Nat.lt_add_right _ hy))

theorem write_of_below (hy : y < s - headerSize) {p : ℕ} (hp : s ≤ p) (bs : List UInt8) :
    m.write p bs y = m y :=
  Memory.write_of_outside
    (Or.inl (Nat.lt_of_lt_of_le (Nat.lt_of_lt_of_le hy (Nat.sub_le _ _)) hp))

end Header

/-! ### What the changes do to the header and to the arena -/

/-- At `s` stands a string of the arena `a`, which has taken the capacity from the arena. -/
structure Usable (a s : ℕ) (len cap : UInt64) (st : Store) : Prop where
  header_le : headerSize ≤ s
  header_eq : sdbStringHeader st.memory s = ⟨a, len, cap⟩
  len_le : len.toNat ≤ cap.toNat
  cap_le : cap.toNat ≤ (st.arenas a).cur.toNat
  cur_le : (st.arenas a).cur.toNat ≤ (st.arenas a).cap.toNat
  cap_lt : (st.arenas a).cap.toNat < 2 ^ 63

/-- The cursor has moved as far as the capacity has, and what is below the string is as it was. -/
structure Changes (a s : ℕ) (cap : UInt64) (st st' : Store) (len' cap' : UInt64) : Prop where
  header_eq : sdbStringHeader st'.memory s = ⟨a, len', cap'⟩
  len_le : len'.toNat ≤ cap'.toNat
  arena : st'.arenas a = { st.arenas a with cur := (st'.arenas a).cur }
  cur_eq : (st'.arenas a).cur.toNat + cap.toNat = (st.arenas a).cur.toNat + cap'.toNat
  cur_le : (st'.arenas a).cur.toNat ≤ (st.arenas a).cap.toNat
  below : ∀ y : ℕ, y < s - headerSize → st'.memory y = st.memory y

section Changes

variable {a s : ℕ} {len cap : UInt64} {st st' : Store}

/-- Writes that leave the arena and the capacity alone. -/
theorem Usable.changes_memory (h : Usable a s len cap st) {m : Memory} {len' : UInt64}
    (hheader : sdbStringHeader m s = ⟨a, len', cap⟩) (hle : len'.toNat ≤ cap.toNat)
    (hbelow : ∀ y : ℕ, y < s - headerSize → m y = st.memory y) :
    Changes a s cap st { st with memory := m } len' cap :=
  ⟨hheader, hle, rfl, rfl, h.cur_le, hbelow⟩

theorem Usable.changes_self (h : Usable a s len cap st) : Changes a s cap st st len cap :=
  h.changes_memory h.header_eq h.len_le fun _ _ => rfl

/-- **Making room**: refused, or the arena gives as many bytes as the capacity gains. -/
theorem Usable.makeSpace (h : Usable a s len cap st) {add : UInt64} (hadd : add.toNat < 2 ^ 63) :
    lmStringMakeSpace st s add = (none, st) ∨
      ∃ st₁ cap₁, lmStringMakeSpace st s add = (some s, st₁) ∧ Changes a s cap st st₁ len cap₁ ∧
        len.toNat + add.toNat ≤ cap₁.toNat := by
  obtain ⟨hua, hlen, hcap⟩ := sdbStringHeader_eq_iff.mp h.header_eq
  have hlenLe := h.len_le
  have hcapLe := h.cap_le
  have hcurLe := h.cur_le
  have hcapLt := h.cap_lt
  have hwrap : (st.arenas a).cur.toNat + add.toNat < 2 ^ 64 := by omega
  rw [lmStringMakeSpace_eq hua (by rw [hlen, hcap]; exact hlenLe) hcurLe hwrap, hlen, hcap]
  by_cases hneed : len.toNat + add.toNat ≤ cap.toNat
  · rw [if_pos hneed]
    exact Or.inr ⟨st, cap, rfl, h.changes_self, hneed⟩
  rw [if_neg hneed]
  by_cases hfit : (st.arenas a).cur.toNat + add.toNat ≤ (st.arenas a).cap.toNat
  · have hcur := toNat_add_of_lt hwrap
    have hnew : (cap + add).toNat = cap.toNat + add.toNat := toNat_add_of_lt (by omega)
    rw [if_pos hfit]
    refine Or.inr ⟨_, cap + add, rfl, ⟨?_, ?_, ?_, ?_, ?_, ?_⟩, by omega⟩
    · simp only [sdbStringHeader_setCap h.header_le, h.header_eq]
    · omega
    · simp only [Store.setArena, Function.update_self]
    · simp only [Store.setArena, Function.update_self, hcur, hnew]
      omega
    · simp only [Store.setArena, Function.update_self, hcur]
      exact hfit
    · intro y hy
      exact lmStringSetCap_of_below hy _
  · rw [if_neg hfit]
    exact Or.inl rfl

/-- More writes that leave the arena and the capacity alone. -/
theorem Changes.andMemory {st₁ : Store} {len₁ cap₁ len' : UInt64} {m : Memory}
    (h : Changes a s cap st st₁ len₁ cap₁) (hheader : sdbStringHeader m s = ⟨a, len', cap₁⟩)
    (hle : len'.toNat ≤ cap₁.toNat)
    (hbelow : ∀ y : ℕ, y < s - headerSize → m y = st₁.memory y) :
    Changes a s cap st { st₁ with memory := m } len' cap₁ :=
  ⟨hheader, hle, h.arena, h.cur_eq, h.cur_le, fun y hy => (hbelow y hy).trans (h.below y hy)⟩

theorem eq_write_of_copy? {m m' : Memory} {dst src n : ℕ} (h : m.copy? dst src n = some m') :
    m' = m.write dst (m.read src n) := by
  unfold Memory.copy? at h
  split at h
  · exact (Option.some.inj h).symm
  · cases h

variable {r : Option Addr}

/-- Whatever is appended, and wherever it comes from. -/
theorem Usable.appendOf (h : Usable a s len cap st) {n : UInt64} (hn : n.toNat < 2 ^ 63)
    {other : ℕ} (hcall : lmStringAppendOf st s other n = some (r, st')) :
    ∃ len' cap', Changes a s cap st st' len' cap' := by
  unfold lmStringAppendOf at hcall
  rcases h.makeSpace hn with hnone | ⟨st₁, cap₁, hsome, hroom, hfits⟩
  · rw [hnone] at hcall
    cases hcall
    exact ⟨len, cap, h.changes_self⟩
  · rw [hsome] at hcall
    obtain ⟨m, hcopy, heq⟩ := Option.map_eq_some_iff.mp hcall
    cases heq
    obtain ⟨_, hlen, _⟩ := sdbStringHeader_eq_iff.mp hroom.header_eq
    have hcapLt : cap₁.toNat < 2 ^ 64 := UInt64.toNat_lt _
    have hsum : (len + n).toNat = len.toNat + n.toNat := toNat_add_of_lt (by omega)
    rw [hlen] at hcopy ⊢
    rw [eq_write_of_copy? hcopy]
    refine ⟨len + n, cap₁, hroom.andMemory ?_ (hsum ▸ hfits) ?_⟩
    · rw [sdbStringHeader_write h.header_le (Nat.le_add_right _ _),
        sdbStringHeader_setLen h.header_le,
        sdbStringHeader_write h.header_le (Nat.le_add_right _ _), hroom.header_eq]
    · intro y hy
      rw [write_of_below hy (Nat.le_add_right _ _), lmStringSetLen_of_below hy,
        write_of_below hy (Nat.le_add_right _ _)]

theorem Usable.set (h : Usable a s len cap st) {cString : ℕ}
    (hcall : sdbStringSet st s cString = some (r, st')) :
    ∃ len' cap', Changes a s cap st st' len' cap' := by
  obtain ⟨n, hn, hcall⟩ := Option.bind_eq_some_iff.mp hcall
  have hlt : n < 2 ^ 57 := Memory.strlen_lt hn
  have hword : (UInt64.ofNat n).toNat = n := toNat_ofNat_of_lt (by omega)
  rcases @Usable.makeSpace a s len cap st h (UInt64.ofNat n) (by omega) with
    hnone | ⟨st₁, cap₁, hsome, hroom, hfits⟩
  · simp only [hnone] at hcall
    cases hcall
    exact ⟨len, cap, h.changes_self⟩
  · simp only [hsome] at hcall
    obtain ⟨m, hcopy, heq⟩ := Option.map_eq_some_iff.mp hcall
    cases heq
    rw [eq_write_of_copy? hcopy]
    refine ⟨UInt64.ofNat n, cap₁, hroom.andMemory ?_ (Nat.le_trans (Nat.le_add_left _ _) hfits) ?_⟩
    · rw [sdbStringHeader_setLen h.header_le,
        sdbStringHeader_write h.header_le (Nat.le_add_right _ _),
        sdbStringHeader_write h.header_le (Nat.le_refl _), hroom.header_eq]
    · intro y hy
      rw [lmStringSetLen_of_below hy, write_of_below hy (Nat.le_add_right _ _),
        write_of_below hy (Nat.le_refl _)]

/-- A shorter length and a `NUL` behind it. -/
theorem Usable.shorten (h : Usable a s len cap st) {len' : UInt64} (hle : len'.toNat ≤ cap.toNat)
    {p : ℕ} (hp : s ≤ p) :
    Changes a s cap st { st with memory := (lmStringSetLen st.memory s len').write p [0] }
      len' cap := by
  apply h.changes_memory
  · rw [sdbStringHeader_write h.header_le hp, sdbStringHeader_setLen h.header_le, h.header_eq]
  · exact hle
  · intro y hy
    rw [write_of_below hy hp, lmStringSetLen_of_below hy]

theorem Usable.backspace (h : Usable a s len cap st) {n : UInt64} (hn : n ≤ len) :
    ∃ len' cap', Changes a s cap st (sdbStringBackspace st s n) len' cap' := by
  obtain ⟨_, hlen, _⟩ := sdbStringHeader_eq_iff.mp h.header_eq
  have hlenLe := h.len_le
  have hsub : (len - n).toNat = len.toNat - n.toNat :=
    toNat_sub_of_le (UInt64.le_iff_toNat_le.mp hn)
  simp only [sdbStringBackspace, lmStringBackspace, hlen, if_pos hn]
  exact ⟨len - n, cap, h.shorten (by omega) (Nat.le_add_right _ _)⟩

/-- An `sdb_string` that is appended has a length that an object can have. -/
def Change.Legal (m : Memory) : Change → Prop
  | .append other => (lmStringLen m other).toNat < 2 ^ 63
  | _ => True

/-- No more bytes are taken from a string than it has. -/
def Change.Within (len : UInt64) : Change → Prop
  | .backspace n => n ≤ len
  | _ => True

/-- **Every change moves the cursor as far as the capacity, and writes nothing below the
    string.** -/
theorem Usable.change (h : Usable a s len cap st) {c : Change} (hlegal : c.Legal st.memory)
    (hwithin : c.Within len) (hcall : c.call st s = some (r, st')) :
    ∃ len' cap', Changes a s cap st st' len' cap' := by
  cases c with
  | append other =>
    have hlen : (lmStringLen st.memory other).toNat < 2 ^ 63 := hlegal
    have happend : lmStringAppendOf st s other (lmStringLen st.memory other) = some (r, st') := by
      rw [← hcall]
      rfl
    exact h.appendOf hlen happend
  | appendC other =>
    obtain ⟨n, hn, hcall⟩ := Option.bind_eq_some_iff.mp hcall
    have hlt : n < 2 ^ 57 := Memory.strlen_lt hn
    have hword : (UInt64.ofNat n).toNat = n := toNat_ofNat_of_lt (by omega)
    exact h.appendOf (by omega) hcall
  | set cString => exact h.set hcall
  | clear =>
    cases hcall
    exact ⟨0, cap, h.shorten (Nat.zero_le _) (Nat.le_refl _)⟩
  | backspace n =>
    cases hcall
    exact h.backspace hwithin

end Changes

/-! ### Making and freeing -/

/-- `s` is the last string of the arena; without it the arena would be as in `before`. -/
structure Topmost (a : ℕ) (before : Store) (s : ℕ) (st : Store) : Prop where
  string_eq : s = (before.arenas a).top + headerSize
  usable : ∃ len cap, Usable a s len cap st ∧ (st.arenas a).cur.toNat =
    (before.arenas a).cur.toNat + (headerSize + cap.toNat + 1)
  arena : st.arenas a = { before.arenas a with cur := (st.arenas a).cur }

section Make

variable {a : ℕ} {st st' : Store} {n : UInt64} {r : Option Addr}

theorem sdbStringHeader_headed (ha : a < 2 ^ 64) (m : Memory) (mem : ℕ) :
    sdbStringHeader (headed m mem a n) (mem + headerSize) = ⟨a, n, n⟩ := by
  have hs : headerSize ≤ mem + headerSize := Nat.le_add_left _ _
  have hua : lmStringUa (m.storeWord mem (UInt64.ofNat a)) (mem + headerSize) = a := by
    rw [lmStringUa, Nat.add_sub_cancel, Memory.loadWord_storeWord]
    exact toNat_ofNat_of_lt_size ha
  rw [headed, sdbStringHeader_setCap hs, sdbStringHeader_setLen hs]
  simp only [sdbStringHeader, hua]

/-- A string with this header in the block that the arena has given away. -/
theorem HasRoom.topmost (h : HasRoom st a n) (hcap : (st.arenas a).cap.toNat < 2 ^ 63)
    {m : Memory} (hheader : sdbStringHeader m ((st.arenas a).top + headerSize) = ⟨a, n, n⟩) :
    Topmost a st ((st.arenas a).top + headerSize) (given st a n m) := by
  have hwrap := h.wrap
  have hfit := h.fit
  have hsize : (UInt64.ofNat headerSize + n + 1).toNat = headerSize + n.toNat + 1 :=
    toNat_stringSize (Nat.lt_of_le_of_lt (Nat.le_add_left _ _) hwrap)
  have hcur : ((given st a n m).arenas a).cur.toNat =
      (st.arenas a).cur.toNat + (headerSize + n.toNat + 1) := by
    simp only [given, Function.update_self]
    rw [toNat_add_of_lt, hsize]
    rw [hsize]
    exact hwrap
  have harena : (given st a n m).arenas a =
      { st.arenas a with cur := ((given st a n m).arenas a).cur } := by
    simp only [given, Function.update_self]
  have hcapEq : ((given st a n m).arenas a).cap = (st.arenas a).cap := by rw [harena]
  refine ⟨rfl, ⟨n, n, ⟨Nat.le_add_left _ _, hheader, Nat.le_refl _, ?_, ?_, ?_⟩, hcur⟩, harena⟩
  · rw [hcur]
    omega
  · rw [hcur, hcapEq]
    exact hfit
  · rw [hcapEq]
    exact hcap

/-- What `Sdb__StringMake__` returns, and what it leaves below the new string. -/
def Makes (a : ℕ) (st : Store) (r : Option Addr) (st' : Store) : Prop :=
  (r = none ∧ st' = st) ∨ ∃ s, r = some s ∧ Topmost a st s st' ∧
    ∀ y : ℕ, y < (st.arenas a).top → st'.memory y = st.memory y

theorem HasRoom.makes (h : HasRoom st a n) (hcap : (st.arenas a).cap.toNat < 2 ^ 63) {m : Memory}
    (hheader : sdbStringHeader m ((st.arenas a).top + headerSize) = ⟨a, n, n⟩)
    (hbelow : ∀ y : ℕ, y < (st.arenas a).top → m y = st.memory y) :
    Makes a st (some ((st.arenas a).top + headerSize)) (given st a n m) :=
  Or.inr ⟨_, rfl, h.topmost hcap hheader, hbelow⟩

theorem sdbStringMakeOf_makes (ha : a < 2 ^ 64)
    (hcur : (st.arenas a).cur.toNat ≤ (st.arenas a).cap.toNat)
    (hcap : (st.arenas a).cap.toNat < 2 ^ 63) (hn : headerSize + n.toNat + 1 < 2 ^ 63)
    {init : Option Addr} (hcall : sdbStringMakeOf st a init n = some (r, st')) :
    Makes a st r st' := by
  have hwrap : (st.arenas a).cur.toNat + (headerSize + n.toNat + 1) < 2 ^ 64 := by omega
  rcases Nat.lt_or_ge (st.arenas a).cap.toNat
    ((st.arenas a).cur.toNat + (headerSize + n.toNat + 1)) with hfull | hfit
  · rw [sdbStringMakeOf_of_full hwrap hfull] at hcall
    cases hcall
    exact Or.inl ⟨rfl, rfl⟩
  · have hroom : HasRoom st a n := ⟨hwrap, hfit⟩
    have hs : headerSize ≤ (st.arenas a).top + headerSize := Nat.le_add_left _ _
    have hheader := @sdbStringHeader_headed a n ha
    have hheaded : ∀ m : Memory, ∀ y : ℕ, y < (st.arenas a).top →
        headed m (st.arenas a).top a n y = m y := fun m y hy => headed_of_outside (Or.inl hy)
    simp only [sdbStringMakeOf, hroom.uaAlloc_eq] at hcall
    obtain ⟨m, hcopied, heq⟩ := Option.map_eq_some_iff.mp hcall
    have hgiven : (some ((st.arenas a).top + headerSize), given st a n m) = (r, st') := by
      rw [← heq]
      simp only [given, Function.update_self]
    cases hgiven
    cases init with
    | none =>
      cases hcopied
      refine hroom.makes hcap (hheader _ _) fun y hy => (hheaded _ y hy).trans ?_
      exact Memory.fill_of_notMem fun hmem => absurd hmem.1 (Nat.not_le.mpr hy)
    | some p =>
      by_cases hpos : 0 < n
      · simp only [if_pos hpos] at hcopied
        obtain ⟨m', hcopy, rfl⟩ := Option.map_eq_some_iff.mp hcopied
        rw [eq_write_of_copy? hcopy]
        apply hroom.makes hcap
        · rw [sdbStringHeader_write hs (Nat.le_add_right _ _),
            sdbStringHeader_write hs (Nat.le_refl _)]
          exact hheader _ _
        · intro y hy
          have hbelow : y < (st.arenas a).top + headerSize - headerSize := by
            rw [Nat.add_sub_cancel]
            exact hy
          rw [write_of_below hbelow (Nat.le_add_right _ _), write_of_below hbelow (Nat.le_refl _)]
          exact hheaded _ y hy
      · simp only [if_neg hpos] at hcopied
        cases hcopied
        exact hroom.makes hcap (hheader _ _) (hheaded _)

/-- An `sdb_string` that is duplicated has a length that an object can have. -/
def Origin.Fits (m : Memory) : Origin → Prop
  | .duplicate string => headerSize + (lmStringLen m string).toNat + 1 < 2 ^ 63
  | .make _ => True

theorem Origin.call_makes (ha : a < 2 ^ 64)
    (hcur : (st.arenas a).cur.toNat ≤ (st.arenas a).cap.toNat)
    (hcap : (st.arenas a).cap.toNat < 2 ^ 63) {o : Origin} (ho : o.Fits st.memory)
    (hcall : o.call st a = some (r, st')) : Makes a st r st' := by
  cases o with
  | make string =>
    cases string with
    | none =>
      have hmake : sdbStringMakeOf st a none 0 = some (r, st') := hcall
      exact sdbStringMakeOf_makes ha hcur hcap (by decide) hmake
    | some p =>
      obtain ⟨len, hlen, hcall⟩ := Option.bind_eq_some_iff.mp hcall
      have hlt : len < 2 ^ 57 := Memory.strlen_lt hlen
      have hword : (UInt64.ofNat len).toNat = len := toNat_ofNat_of_lt (by omega)
      refine sdbStringMakeOf_makes ha hcur hcap ?_ hcall
      rw [hword]
      simp only [headerSize]
      omega
  | duplicate p =>
    have hsmall : headerSize + (lmStringLen st.memory p).toNat + 1 < 2 ^ 63 := ho
    have hmake : sdbStringMakeOf st a (some p) (lmStringLen st.memory p) = some (r, st') := hcall
    exact sdbStringMakeOf_makes ha hcur hcap hsmall hmake

/-- **Freeing the last string gives the arena as it was before the string was made.** -/
theorem Topmost.free {before : Store} {s : ℕ} (h : Topmost a before s st) :
    sdbStringFree st (some s) = st.setArena a (before.arenas a) := by
  obtain ⟨len, cap, hs, hcur⟩ := h.usable
  have hcapLe := hs.cap_le
  have hcurLe := hs.cur_le
  have hcapLt := hs.cap_lt
  have hsize : (UInt64.ofNat headerSize + cap + 1).toNat = headerSize + cap.toNat + 1 :=
    toNat_stringSize (by omega)
  have hback : (st.arenas a).cur - (UInt64.ofNat headerSize + cap + 1) = (before.arenas a).cur := by
    apply UInt64.toNat_inj.mp
    rw [toNat_sub_of_le, hsize]
    · omega
    · rw [hsize]
      omega
  have hpop : uaPop (st.arenas a) (UInt64.ofNat headerSize + cap + 1) = before.arenas a := by
    rw [uaPop_of_lt (by omega) (by omega), if_pos (by omega), hback, h.arena]
  simp only [sdbStringFree, hs.header_eq, hpop]

end Make

/-! ### A stack of strings -/

/-- A string that has been made, and the store from before that. -/
structure Made where
  string : Addr
  before : Store

/-- The strings of one arena, the topmost first. -/
structure StringStack where
  store : Store
  made : List Made

inductive StackOp where
  | make (o : Origin)
  | change (c : Change)       -- of the topmost string
  | free                      -- of the topmost string
  | elsewhere (st : Store)    -- the rest of the program leaves this store

/-- One operation on the strings of the arena at `a`.  A string that is refused is none. -/
def StringStack.step (a : Addr) (x : StringStack) : StackOp → Option StringStack
  | .make o => (o.call x.store a).map fun r =>
      match r.1 with
      | some s => ⟨r.2, ⟨s, x.store⟩ :: x.made⟩
      | none => ⟨r.2, x.made⟩
  | .change c =>
      match x.made with
      | m :: _ => (c.call x.store m.string).map fun r => { x with store := r.2 }
      | [] => none
  | .free =>
      match x.made with
      | m :: ms => some ⟨sdbStringFree x.store (some m.string), ms⟩
      | [] => none
  | .elsewhere st => some { x with store := st }

/-- The address is in a string or behind one. -/
def InStrings (ms : List Made) (y : ℕ) : Prop := ∃ m ∈ ms, m.string - headerSize ≤ y

/-- What the program promises: the strings that it copies have lengths that an object can have,
    and all else leaves the arena and its strings alone. -/
def StringStack.Legal (a : Addr) (x : StringStack) : StackOp → Prop
  | .make o => o.Fits x.store.memory
  | .change c => c.Legal x.store.memory
  | .free => True
  | .elsewhere st => st.arenas a = x.store.arenas a ∧
      ∀ y : ℕ, InStrings x.made y → y < (x.store.arenas a).top → st.memory y = x.store.memory y

/-- No more bytes are taken from the topmost string than it has. -/
def StringStack.Within (x : StringStack) : StackOp → Prop
  | .change c => ∀ m ∈ x.made.head?, c.Within (lmStringLen x.store.memory m.string)
  | .make _ | .free | .elsewhere _ => True

/-! A run can be checked. -/

instance (m : Memory) : DecidablePred (Change.Legal m)
  | .append other => inferInstanceAs (Decidable ((lmStringLen m other).toNat < 2 ^ 63))
  | .appendC _ | .set _ | .clear | .backspace _ => isTrue trivial

instance (len : UInt64) : DecidablePred (Change.Within len)
  | .backspace n => inferInstanceAs (Decidable (n ≤ len))
  | .append _ | .appendC _ | .set _ | .clear => isTrue trivial

instance (m : Memory) : DecidablePred (Origin.Fits m)
  | .duplicate string =>
      inferInstanceAs (Decidable (headerSize + (lmStringLen m string).toNat + 1 < 2 ^ 63))
  | .make _ => isTrue trivial

instance (ms : List Made) : DecidablePred (InStrings ms) := fun y =>
  inferInstanceAs (Decidable (∃ m ∈ ms, m.string - headerSize ≤ y))

instance (a : Addr) (x : StringStack) : DecidablePred (x.Legal a)
  | .make o => inferInstanceAs (Decidable (o.Fits x.store.memory))
  | .change c => inferInstanceAs (Decidable (c.Legal x.store.memory))
  | .free => isTrue trivial
  | .elsewhere st =>
      decidable_of_iff
        (st.arenas a = x.store.arenas a ∧ ∀ y < (x.store.arenas a).top, InStrings x.made y →
          st.memory y = x.store.memory y)
        (and_congr_right' ⟨fun h y hin hlt => h y hlt hin, fun h y hlt hin => h y hin hlt⟩)

instance (x : StringStack) : DecidablePred x.Within
  | .change c => inferInstanceAs
      (Decidable (∀ m ∈ x.made.head?, c.Within (lmStringLen x.store.memory m.string)))
  | .make _ | .free | .elsewhere _ => isTrue trivial

/-- The header of a string and what it has taken from the arena. -/
def block (m : Memory) (s : Addr) : Span :=
  ⟨s - headerSize, headerSize + (lmStringCap m s).toNat + 1⟩

/-- A free moves the arena back to where it was before the string was made, and the remaining
    strings are what they were then. -/
def StringStack.Undoes (a : Addr) (x : StringStack) (op : StackOp) : Prop :=
  op = .free → ∀ m ms x', x.made = m :: ms → x.step a op = some x' →
    uaPos (x'.store.arenas a) = uaPos (m.before.arenas a) ∧
      ∀ r ∈ ms, ∀ y ∈ (block m.before.memory r.string).cells,
        x'.store.memory y = m.before.memory y

/-! ### The invariant -/

/-- Every string is the topmost one of the store in which the next one was made, and nothing has
    been written to the strings below it since. -/
def Stacked (a : Addr) : Store → List Made → Prop
  | st, [] => (st.arenas a).cur.toNat ≤ (st.arenas a).cap.toNat ∧
      (st.arenas a).cap.toNat < 2 ^ 63
  | st, m :: ms => Topmost a m.before m.string st ∧
      (∀ y : ℕ, InStrings ms y → y < (m.before.arenas a).top →
        st.memory y = m.before.memory y) ∧
      Stacked a m.before ms

section Stacked

variable {a : ℕ} {st st' : Store} {m : Made} {ms : List Made}

theorem Stacked.bounds (h : Stacked a st ms) :
    (st.arenas a).cur.toNat ≤ (st.arenas a).cap.toNat ∧ (st.arenas a).cap.toNat < 2 ^ 63 := by
  cases ms with
  | nil => exact h
  | cons m ms =>
    obtain ⟨_, _, hs, _⟩ := h.1.usable
    exact ⟨hs.cur_le, hs.cap_lt⟩

/-- Where the topmost string ends. -/
theorem Topmost.top_eq {before : Store} {s : ℕ} (h : Topmost a before s st) :
    s + (lmStringCap st.memory s).toNat + 1 = (st.arenas a).top := by
  obtain ⟨len, cap, hs, hcur⟩ := h.usable
  obtain ⟨_, _, hcap⟩ := sdbStringHeader_eq_iff.mp hs.header_eq
  have hmem : (st.arenas a).mem = (before.arenas a).mem := by rw [h.arena]
  rw [hcap, h.string_eq, UArena.top, UArena.top, hmem, hcur]
  simp only [Nat.add_assoc]

theorem Topmost.before_lt {before : Store} {s : ℕ} (h : Topmost a before s st) :
    (before.arenas a).top < (st.arenas a).top := by
  rw [← h.top_eq, h.string_eq]
  omega

/-- A string is the topmost one of every store with the same arena and the same bytes there. -/
theorem Topmost.congr {before : Store} {s : ℕ} (h : Topmost a before s st)
    (harena : st'.arenas a = st.arenas a)
    (hsame : ∀ y : ℕ, s - headerSize ≤ y → y < (st.arenas a).top → st'.memory y = st.memory y) :
    Topmost a before s st' := by
  obtain ⟨len, cap, hs, hcur⟩ := h.usable
  have htop := h.top_eq
  have hheader : sdbStringHeader st'.memory s = ⟨a, len, cap⟩ := by
    refine Eq.trans (sdbStringHeader_congr hs.header_le fun y hlo hhi => hsame y hlo ?_)
      hs.header_eq
    omega
  refine ⟨h.string_eq, ⟨len, cap, ⟨hs.header_le, hheader, hs.len_le, ?_, ?_, ?_⟩, ?_⟩, ?_⟩
  · rw [harena]
    exact hs.cap_le
  · rw [harena]
    exact hs.cur_le
  · rw [harena]
    exact hs.cap_lt
  · rw [harena]
    exact hcur
  · rw [harena]
    exact h.arena

/-- **A stack of strings stands as long as its arena and the bytes of its strings do.** -/
theorem Stacked.congr (h : Stacked a st ms) (harena : st'.arenas a = st.arenas a)
    (hsame : ∀ y : ℕ, InStrings ms y → y < (st.arenas a).top → st'.memory y = st.memory y) :
    Stacked a st' ms := by
  cases ms with
  | nil =>
    rw [Stacked, harena]
    exact h
  | cons m ms =>
    obtain ⟨htop, hframe, hrest⟩ := h
    refine ⟨htop.congr harena fun y hlo => hsame y ⟨m, List.mem_cons_self, hlo⟩, ?_, hrest⟩
    rintro y ⟨r, hr, hlo⟩ hlt
    have hold := hframe y ⟨r, hr, hlo⟩ hlt
    rw [hsame y ⟨r, List.mem_cons_of_mem m hr, hlo⟩ (Nat.lt_trans hlt htop.before_lt), hold]

/-- A change of the topmost string. -/
theorem Stacked.changes (h : Stacked a st (m :: ms)) {len cap len' cap' : UInt64}
    (hs : Usable a m.string len cap st) (hch : Changes a m.string cap st st' len' cap') :
    Stacked a st' (m :: ms) := by
  obtain ⟨htop, hframe, hrest⟩ := h
  obtain ⟨len₁, cap₁, hs₁, hcur⟩ := htop.usable
  have hsame : cap₁ = cap := by
    have heq := hs₁.header_eq.symm.trans hs.header_eq
    exact congrArg SdbStringHeader.cap heq
  subst hsame
  have hcurEq := hch.cur_eq
  have hcapEq : (st'.arenas a).cap = (st.arenas a).cap := by rw [hch.arena]
  refine ⟨⟨htop.string_eq, ⟨len', cap', ⟨hs.header_le, hch.header_eq, hch.len_le, ?_, ?_, ?_⟩, ?_⟩,
    ?_⟩, ?_, hrest⟩
  · omega
  · rw [hcapEq]
    exact hch.cur_le
  · rw [hcapEq]
    exact hs.cap_lt
  · omega
  · rw [hch.arena, htop.arena]
  · intro y hin hlt
    rw [← hframe y hin hlt]
    apply hch.below
    rw [htop.string_eq, Nat.add_sub_cancel]
    exact hlt

/-- The strings end at the cursor or below. -/
theorem Stacked.block_le (h : Stacked a st ms) {r : Made} (hr : r ∈ ms) :
    headerSize ≤ r.string ∧ r.string + (lmStringCap st.memory r.string).toNat + 1 ≤
      (st.arenas a).top := by
  induction ms generalizing st with
  | nil => cases hr
  | cons m ms ih =>
    obtain ⟨htop, hframe, hrest⟩ := h
    rcases List.mem_cons.mp hr with rfl | hr
    · obtain ⟨_, _, hs, _⟩ := htop.usable
      exact ⟨hs.header_le, Nat.le_of_eq htop.top_eq⟩
    · obtain ⟨hle, hend⟩ := ih hrest hr
      have hbelow : r.string < (m.before.arenas a).top :=
        Nat.lt_of_lt_of_le (Nat.lt_succ_of_le (Nat.le_add_right _ _)) hend
      have hheader : sdbStringHeader st.memory r.string =
          sdbStringHeader m.before.memory r.string :=
        sdbStringHeader_congr hle fun y hlo hhi =>
          hframe y ⟨r, hr, hlo⟩ (Nat.lt_trans hhi hbelow)
      have hcap : lmStringCap st.memory r.string = lmStringCap m.before.memory r.string :=
        (SdbStringHeader.mk.inj hheader).2.2
      rw [hcap]
      exact ⟨hle, Nat.le_trans hend (Nat.le_of_lt htop.before_lt)⟩

variable {x x' : StringStack} {op : StackOp}

/-- **Every operation keeps the strings stacked.** -/
theorem Stacked.step (ha : a < 2 ^ 64) (h : Stacked a x.store x.made) (hlegal : x.Legal a op)
    (hwithin : x.Within op) (hstep : x.step a op = some x') : Stacked a x'.store x'.made := by
  obtain ⟨st, ms⟩ := x
  obtain ⟨hcur, hcap⟩ := h.bounds
  cases op with
  | make o =>
    obtain ⟨⟨r, st'⟩, hcall, rfl⟩ := Option.map_eq_some_iff.mp hstep
    rcases Origin.call_makes ha hcur hcap hlegal hcall with ⟨rfl, rfl⟩ | ⟨s, rfl, htop, hbelow⟩
    · exact h
    · exact ⟨htop, fun y _ hlt => hbelow y hlt, h⟩
  | change c =>
    cases ms with
    | nil => cases hstep
    | cons m ms =>
      obtain ⟨⟨r, st'⟩, hcall, rfl⟩ := Option.map_eq_some_iff.mp hstep
      obtain ⟨len, cap, hs, _⟩ := h.1.usable
      obtain ⟨_, hlen, _⟩ := sdbStringHeader_eq_iff.mp hs.header_eq
      have hc : c.Within len := by
        rw [← hlen]
        exact hwithin m rfl
      obtain ⟨len', cap', hch⟩ := hs.change hlegal hc hcall
      exact h.changes hs hch
  | free =>
    cases ms with
    | nil => cases hstep
    | cons m ms =>
      cases hstep
      rw [h.1.free]
      apply h.2.2.congr
      · simp only [Store.setArena, Function.update_self]
      · exact h.2.1
  | elsewhere st' =>
    cases hstep
    exact h.congr hlegal.1 hlegal.2

/-- **Freeing the topmost string of a stack undoes making it.** -/
theorem Stacked.undoes (h : Stacked a x.store x.made) (op : StackOp) : x.Undoes a op := by
  rintro rfl m ms x' hmade hstep
  obtain ⟨st, made⟩ := x
  obtain rfl : made = m :: ms := hmade
  cases hstep
  obtain ⟨htop, hframe, hrest⟩ := h
  rw [htop.free]
  constructor
  · simp only [Store.setArena, Function.update_self]
  · intro r hr y hy
    obtain ⟨hle, hend⟩ := hrest.block_le hr
    refine hframe y ⟨r, hr, hy.1⟩ ?_
    refine Nat.lt_of_lt_of_le hy.2 (Nat.le_trans (Nat.le_of_eq ?_) hend)
    simp only [block, Span.stop]
    rw [← Nat.add_assoc, ← Nat.add_assoc, Nat.sub_add_cancel hle]

end Stacked

/-! ### The main result -/

/-- **In every run on an arena each free undoes the make of its string, as long as no
    `SdbStringBackspace` takes more than the string has.** -/
theorem free_undoes_make {a : Addr} (ha : a < 2 ^ 64) {st : Store}
    (hcur : (st.arenas a).cur ≤ (st.arenas a).cap) (hcap : (st.arenas a).cap.toNat < 2 ^ 63)
    {ops : List StackOp}
    (hlegal : Along (StringStack.step a) (StringStack.Legal a) ⟨st, []⟩ ops)
    (hwithin : Along (StringStack.step a) StringStack.Within ⟨st, []⟩ ops) :
    Along (StringStack.step a) (StringStack.Undoes a) ⟨st, []⟩ ops := by
  have hstart : Stacked a st [] := ⟨UInt64.le_iff_toNat_le.mp hcur, hcap⟩
  exact along_of_along (I := fun x => Stacked a x.store x.made)
    (fun _ _ _ hx hP hstep => hx.step ha hP.1 hP.2 hstep)
    (fun _ op hx _ => hx.undoes op) hstart (hlegal.and hwithin)

/-- The arena of `thirty` with a hundred bytes. -/
def hundred : Store := { thirty with arenas := fun _ => uaInit false false false 100 1000 }

/-- Two strings, the second made after the first has grown, and both are freed. -/
def twoStrings : List StackOp :=
  [.make (.make (some 10)), .change (.appendC 10), .make (.make none), .change (.set 10),
    .change (.backspace 1), .free, .change .clear, .free]

theorem free_undoes_make_two :
    Along (StringStack.step 64) (StringStack.Undoes 64) ⟨hundred, []⟩ twoStrings :=
  free_undoes_make (show 64 < 2 ^ 64 by decide)
    (show (hundred.arenas 64).cur ≤ (hundred.arenas 64).cap by decide)
    (show (hundred.arenas 64).cap.toNat < 2 ^ 63 by decide)
    (show Along (StringStack.step 64) (StringStack.Legal 64) ⟨hundred, []⟩ twoStrings by decide)
    (show Along (StringStack.step 64) StringStack.Within ⟨hundred, []⟩ twoStrings by decide)

/-- Ten bytes are taken from the string `ab`: the `NUL` is written into the capacity, which becomes
    0, and the free leaves two bytes in use. -/
theorem backspace_breaks_free :
    ((run (StringStack.step 64) ⟨thirty, []⟩
        [.make (.make (some 10)), .change (.backspace 10), .free]).map fun x =>
          uaPos (x.store.arenas 64)) = some 2 ∧
      ¬ Along (StringStack.step 64) (StringStack.Undoes 64) ⟨thirty, []⟩
        [.make (.make (some 10)), .change (.backspace 10), .free] := by
  refine ⟨by decide, ?_⟩
  rintro ⟨_, hmade⟩
  obtain ⟨_, hchanged⟩ := hmade _ rfl
  obtain ⟨hundo, _⟩ := hchanged _ rfl
  obtain ⟨hpos, _⟩ := hundo rfl _ _ _ rfl rfl
  exact absurd hpos (by decide)

end Lmalloc.Strings
