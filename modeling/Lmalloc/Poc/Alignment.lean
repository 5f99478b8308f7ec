/-
  Lmalloc/Poc/Alignment.lean
  ==========================
  **Where the blocks of the page-zeroing experiment start.**

  The arena aligns the sizes it adds to the cursor and never the cursor itself, so
  its blocks are aligned as long as every operation leaves the cursor a multiple of
  the alignment in force.  `u_arena_seek` and `u_arena_pop` check the position and the
  size they are given.  `u_arena_set_alignment` checks the alignment and not the
  cursor.  The other test of `u_arena_pop` is a signed difference, which a size of
  `2^63` or more passes from below: the cursor moves up, past the capacity if the
  difference is large enough.

  What `u_arena_zalloc` clears plays no part here.
-/
import Lmalloc.Library.Run
import Lmalloc.Poc.UArena

namespace Lmalloc.Poc.Alignment

open Lmalloc.Library Lmalloc.Library.Word

/-! ### Runs -/

inductive Call where
  | alloc (size : UInt64)
  | zalloc (size : UInt64)
  | pop (size : UInt64)
  | seek (pos : UInt64)
  | free
  | setAlignment (alignment : UInt64)
deriving DecidableEq, Repr

def respond (a : UArena) : Call → Result
  | .alloc size => uArenaAlloc a size
  | .zalloc size => uArenaZalloc a size
  | .pop size => ⟨none, uArenaPop a size, none⟩
  | .seek pos => uArenaSeek a pos
  | .free => ⟨none, uArenaFree a, none⟩
  | .setAlignment alignment => ⟨none, uArenaSetAlignment a alignment, none⟩

/-- The additions of the call do not wrap. -/
def NoWrap (a : UArena) : Call → Prop
  | .alloc size | .zalloc size =>
      RoundsUp a size ∧ a.cur.toNat + (alignedSz a size).toNat < 2 ^ 64
  | _ => True

instance (a : UArena) (c : Call) : Decidable (NoWrap a c) :=
  match c with
  | .alloc _ | .zalloc _ => inferInstanceAs (Decidable (_ < _ ∧ _ < _))
  | .pop _ | .seek _ | .free | .setAlignment _ => isTrue trivial

/-- Only calls without a wrapping addition are made. -/
def step (a : UArena) (c : Call) : Option UArena :=
  if NoWrap a c then some (respond a c).arena else none

structure Created (a : UArena) : Prop where
  power : lmIsPowerOfTwo a.alignment
  alignment_le : a.alignment ≤ 4096
  cur : a.cur = 0

/-! ### What is claimed, and when it holds -/

/-- The cursor is within bounds, and a call that returns an address returns an aligned one. -/
structure Sound (a : UArena) : Prop where
  cur_le : a.cur ≤ a.cap
  aligned : ∀ c, NoWrap a c → ∀ p, (respond a c).ptr = some p →
    ∃ offset, p = a.mem + offset ∧ a.alignment.toNat ∣ offset

/-- The condition: an alignment that is accepted divides the cursor, and a size above the
    cursor that passes the signed test moves it up to no more than the capacity. -/
def KeepsAligned (a : UArena) : Call → Prop
  | .setAlignment alignment =>
      lmIsPowerOfTwo alignment ∧ alignment ≤ 4096 → alignment.toNat ∣ a.cur.toNat
  | .pop size =>
      a.alignment.toNat ∣ size.toNat → a.cur.toNat < size.toNat →
        2 ^ 63 + a.cur.toNat < size.toNat → 2 ^ 64 + a.cur.toNat ≤ a.cap.toNat + size.toNat
  | _ => True

instance (a : UArena) (c : Call) : Decidable (KeepsAligned a c) :=
  match c with
  | .setAlignment _ => inferInstanceAs (Decidable (_ ∧ _ → _))
  | .pop _ => inferInstanceAs (Decidable (_ ∣ _ → _ < _ → _ < _ → _ ≤ _))
  | .alloc _ | .zalloc _ | .seek _ | .free => isTrue trivial

/-- The cursor is a multiple of the alignment. -/
structure Aligned (a : UArena) : Prop where
  power : lmIsPowerOfTwo a.alignment
  alignment_le : a.alignment ≤ 4096
  cur_le : a.cur.toNat ≤ a.cap.toNat
  dvd : a.alignment.toNat ∣ a.cur.toNat

theorem Created.aligned {a : UArena} (h : Created a) : Aligned a where
  power := h.power
  alignment_le := h.alignment_le
  cur_le := by
    rw [h.cur]
    exact Nat.zero_le _
  dvd := by
    rw [h.cur]
    exact Nat.dvd_zero _

theorem created_uArenaInit {asserts : Bool} {old a : UArena} {alignment pageSz cap : UInt64}
    {mem : ℕ} (hpower : lmIsPowerOfTwo alignment) (hle : alignment ≤ 4096)
    (h : uArenaInit asserts old alignment pageSz cap mem = some a) : Created a := by
  rw [uArenaInit_of_valid hpower hle] at h
  cases h
  exact ⟨hpower, hle, rfl⟩

/-! ### Powers of two -/

theorem toNat_of_lmIsPowerOfTwo {n : UInt64} (h : lmIsPowerOfTwo n) : ∃ k, n.toNat = 2 ^ k := by
  have hne : n.toNat ≠ 0 := by
    intro hzero
    exact h.1 (UInt64.toNat_inj.mp hzero)
  have hone : (1 : UInt64).toNat ≤ n.toNat := Nat.pos_of_ne_zero hne
  have hand : n.toNat &&& (n.toNat - 1) = 0 := by
    have hbits := congrArg UInt64.toNat h.2
    rwa [UInt64.toNat_and, toNat_sub_of_le hone] at hbits
  exact (Nat.and_sub_one_eq_zero_iff_isPowerOfTwo hne).mp hand

theorem dvd_of_lmIsPowerOfTwo {n : UInt64} (h : lmIsPowerOfTwo n) : n.toNat ∣ 2 ^ 64 := by
  obtain ⟨k, hk⟩ := toNat_of_lmIsPowerOfTwo h
  have hlt : 2 ^ k < 2 ^ 64 := by
    rw [← hk]
    exact n.toNat_lt
  have hle : k < 64 := (Nat.pow_lt_pow_iff_right (by omega)).mp hlt
  rw [hk]
  exact Nat.pow_dvd_pow 2 (Nat.le_of_lt hle)

/-! ### What each function keeps -/

section Kept

variable {a : UArena}

theorem Aligned.alignment_pos (h : Aligned a) : 0 < a.alignment.toNat :=
  UInt64.pos_iff_ne_zero.mpr h.power.1

theorem Aligned.dvd_alignedSz (h : Aligned a) {size : UInt64} (hrounds : RoundsUp a size) :
    a.alignment.toNat ∣ (alignedSz a size).toNat := by
  rw [toNat_alignedSz h.alignment_pos hrounds]
  exact dvd_alignUp h.alignment_pos _

/-- The cursor moves up by a rounded size, as far as the capacity. -/
theorem Aligned.bump (h : Aligned a) {size last : UInt64} (hrounds : RoundsUp a size)
    (hsum : a.cur.toNat + (alignedSz a size).toNat < 2 ^ 64)
    (hcap : a.cur.toNat + (alignedSz a size).toNat ≤ a.cap.toNat) :
    Aligned { a with lastPageStart := last, cur := a.cur + alignedSz a size } where
  power := h.power
  alignment_le := h.alignment_le
  cur_le := by
    show (a.cur + alignedSz a size).toNat ≤ a.cap.toNat
    rw [toNat_add_of_lt hsum]
    exact hcap
  dvd := by
    show a.alignment.toNat ∣ (a.cur + alignedSz a size).toNat
    rw [toNat_add_of_lt hsum]
    exact Nat.dvd_add h.dvd (h.dvd_alignedSz hrounds)

theorem Aligned.alloc (h : Aligned a) {size : UInt64} (hnowrap : NoWrap a (.alloc size)) :
    Aligned (uArenaAlloc a size).arena := by
  simp only [uArenaAlloc, add_le_iff_of_lt hnowrap.2]
  split
  case isTrue hcap => exact h.bump hnowrap.1 hnowrap.2 hcap
  case isFalse => exact h

theorem Aligned.zalloc (h : Aligned a) {size : UInt64} (hnowrap : NoWrap a (.zalloc size)) :
    Aligned (uArenaZalloc a size).arena := by
  rw [uArenaZalloc_of_lt hnowrap.2]
  simp only
  rw [zeroNewPages_snd]
  split
  case isTrue hcap => exact h.bump hnowrap.1 hnowrap.2 hcap
  case isFalse => exact ⟨h.power, h.alignment_le, h.cur_le, h.dvd⟩

/-- The signed test of `u_arena_pop` passes where the difference of the words is below
    `2^63`. -/
theorem uArenaPop_eq (size : UInt64) :
    uArenaPop a size =
      if a.alignment.toNat ∣ size.toNat ∧ (a.cur - size).toNat < 2 ^ 63 then
        { a with cur := a.cur - size }
      else a := by
  have hmod : size % a.alignment = 0 ↔ a.alignment.toNat ∣ size.toNat := by
    rw [← UInt64.toNat_inj, UInt64.toNat_mod]
    exact (Nat.dvd_iff_mod_eq_zero).symm
  simp only [uArenaPop, hmod, signed_sub_nonneg_iff_lt]

theorem Aligned.pop (h : Aligned a) {size : UInt64} (hkeeps : KeepsAligned a (.pop size)) :
    Aligned (uArenaPop a size) := by
  rw [uArenaPop_eq]
  split
  case isFalse => exact h
  case isTrue haccepted =>
    obtain ⟨hdvd, hsigned⟩ := haccepted
    rcases Nat.lt_or_ge a.cur.toNat size.toNat with hbelow | hle
    · have hsize := size.toNat_lt
      have hdiff : (a.cur - size).toNat = 2 ^ 64 + a.cur.toNat - size.toNat :=
        toNat_sub_of_lt hbelow
      have hcap := hkeeps hdvd hbelow (by omega)
      refine ⟨h.power, h.alignment_le, ?_, ?_⟩
      · show (a.cur - size).toNat ≤ a.cap.toNat
        omega
      · show a.alignment.toNat ∣ (a.cur - size).toNat
        rw [hdiff]
        exact Nat.dvd_sub (Nat.dvd_add (dvd_of_lmIsPowerOfTwo h.power) h.dvd) hdvd
    · have hdiff : (a.cur - size).toNat = a.cur.toNat - size.toNat := toNat_sub_of_le hle
      refine ⟨h.power, h.alignment_le, ?_, ?_⟩
      · show (a.cur - size).toNat ≤ a.cap.toNat
        rw [hdiff]
        exact Nat.le_trans (Nat.sub_le _ _) h.cur_le
      · show a.alignment.toNat ∣ (a.cur - size).toNat
        rw [hdiff]
        exact Nat.dvd_sub h.dvd hdvd

theorem uArenaSeek_eq (pos : UInt64) :
    uArenaSeek a pos =
      if pos.toNat ≤ a.cap.toNat ∧ a.alignment.toNat ∣ pos.toNat then
        ⟨some (a.mem + pos.toNat), { a with cur := pos }, none⟩
      else ⟨none, a, none⟩ := by
  have hmod : pos % a.alignment = 0 ↔ a.alignment.toNat ∣ pos.toNat := by
    rw [← UInt64.toNat_inj, UInt64.toNat_mod]
    exact (Nat.dvd_iff_mod_eq_zero).symm
  simp only [uArenaSeek, hmod, UInt64.le_iff_toNat_le]

theorem Aligned.seek (h : Aligned a) (pos : UInt64) : Aligned (uArenaSeek a pos).arena := by
  rw [uArenaSeek_eq]
  split
  case isTrue hpos => exact ⟨h.power, h.alignment_le, hpos.1, hpos.2⟩
  case isFalse => exact h

theorem Aligned.free (h : Aligned a) : Aligned (uArenaFree a) where
  power := h.power
  alignment_le := h.alignment_le
  cur_le := Nat.zero_le _
  dvd := Nat.dvd_zero _

theorem Aligned.setAlignment (h : Aligned a) {alignment : UInt64}
    (hkeeps : KeepsAligned a (.setAlignment alignment)) :
    Aligned (uArenaSetAlignment a alignment) := by
  rw [uArenaSetAlignment]
  split
  case isTrue haccepted => exact ⟨haccepted.1, haccepted.2, h.cur_le, hkeeps haccepted⟩
  case isFalse => exact h

theorem step_eq_some {a' : UArena} {c : Call} (hs : step a c = some a') :
    NoWrap a c ∧ (respond a c).arena = a' := by
  obtain ⟨hnowrap, harena⟩ := Option.ite_none_right_eq_some.mp hs
  exact ⟨hnowrap, Option.some.inj harena⟩

theorem Aligned.step {a' : UArena} (h : Aligned a) {c : Call} (hkeeps : KeepsAligned a c)
    (hs : step a c = some a') : Aligned a' := by
  obtain ⟨hnowrap, rfl⟩ := step_eq_some hs
  cases c with
  | alloc size => exact h.alloc hnowrap
  | zalloc size => exact h.zalloc hnowrap
  | pop size => exact h.pop hkeeps
  | seek pos => exact h.seek pos
  | free => exact h.free
  | setAlignment alignment => exact h.setAlignment hkeeps

/-- The address an allocation returns is the cursor's, whether or not it clears. -/
theorem ptr_of_alloc {size : UInt64} {p : ℕ} {c : Call} (hc : c = .alloc size ∨ c = .zalloc size)
    (hnowrap : NoWrap a c) (hp : (respond a c).ptr = some p) : p = a.mem + a.cur.toNat := by
  rcases hc with rfl | rfl
  · simp only [respond, uArenaAlloc] at hp
    split at hp
    · exact (Option.some.inj hp).symm
    · cases hp
  · simp only [respond, uArenaZalloc_of_lt hnowrap.2] at hp
    split at hp
    · exact (Option.some.inj hp).symm
    · cases hp

theorem Aligned.sound (h : Aligned a) : Sound a := by
  refine ⟨UInt64.le_iff_toNat_le.mpr h.cur_le, ?_⟩
  intro c hnowrap p hp
  cases c with
  | alloc size => exact ⟨_, ptr_of_alloc (.inl rfl) hnowrap hp, h.dvd⟩
  | zalloc size => exact ⟨_, ptr_of_alloc (.inr rfl) hnowrap hp, h.dvd⟩
  | seek pos =>
    simp only [respond, uArenaSeek_eq] at hp
    split at hp
    case isTrue hpos => exact ⟨_, (Option.some.inj hp).symm, hpos.2⟩
    case isFalse => cases hp
  | pop size => cases hp
  | free => cases hp
  | setAlignment alignment => cases hp

end Kept

/-! ### Runs that keep the cursor aligned -/

/-- A block of no bytes is served wherever the cursor is, at the cursor. -/
theorem alloc_zero {a : UArena} (hcap : a.cur ≤ a.cap) (hpos : 0 < a.alignment.toNat) :
    NoWrap a (.alloc 0) ∧ (respond a (.alloc 0)).ptr = some (a.mem + a.cur.toNat) := by
  have hpad : (lmPaddingToAlign 0 a.alignment).toNat = 0 := by
    rw [toNat_lmPaddingToAlign hpos, UInt64.toNat_zero, padding, Nat.zero_mod, Nat.sub_zero,
      Nat.mod_self]
  have hrounds : RoundsUp a 0 := by
    rw [RoundsUp, hpad]
    exact (by decide : (0 : UInt64).toNat + 0 < 2 ^ 64)
  have hsize : (alignedSz a 0).toNat = 0 := by
    rw [toNat_alignedSz hpos hrounds]
    exact alignUp_of_dvd (Nat.dvd_zero _)
  have hsum : a.cur.toNat + (alignedSz a 0).toNat < 2 ^ 64 := by
    rw [hsize]
    exact a.cur.toNat_lt
  refine ⟨⟨hrounds, hsum⟩, ?_⟩
  have hfits : a.cur.toNat + (alignedSz a 0).toNat ≤ a.cap.toNat := by
    rw [hsize]
    exact UInt64.le_iff_toNat_le.mp hcap
  simp only [respond, uArenaAlloc, add_le_iff_of_lt hsum]
  rw [if_pos hfits]

theorem Sound.dvd {a : UArena} (h : Sound a) (hpos : 0 < a.alignment.toNat) :
    a.alignment.toNat ∣ a.cur.toNat := by
  obtain ⟨hnowrap, hptr⟩ := alloc_zero h.cur_le hpos
  obtain ⟨offset, hoffset, hdvd⟩ := h.aligned _ hnowrap _ hptr
  have hcur : a.cur.toNat = offset := Nat.add_left_cancel hoffset
  rw [hcur]
  exact hdvd

/-- A call that fails the condition leaves an arena that is not sound. -/
theorem not_sound_of_not_keepsAligned {a : UArena} {c : Call} (hbad : ¬ KeepsAligned a c) :
    ∃ a', step a c = some a' ∧ ¬ Sound a' := by
  cases c with
  | setAlignment alignment =>
    obtain ⟨haccepted, hdvd⟩ := Classical.not_imp.mp hbad
    have hset : uArenaSetAlignment a alignment = { a with alignment := alignment } :=
      if_pos haccepted
    refine ⟨_, if_pos trivial, ?_⟩
    intro hsound
    change Sound (uArenaSetAlignment a alignment) at hsound
    rw [hset] at hsound
    exact hdvd (hsound.dvd (UInt64.pos_iff_ne_zero.mpr haccepted.1.1))
  | pop size =>
    simp only [KeepsAligned, Classical.not_imp] at hbad
    obtain ⟨hdvd, hbelow, hsigned, hcap⟩ := hbad
    have hsize := size.toNat_lt
    have hdiff : (a.cur - size).toNat = 2 ^ 64 + a.cur.toNat - size.toNat :=
      toNat_sub_of_lt hbelow
    have hpop : uArenaPop a size = { a with cur := a.cur - size } := by
      rw [uArenaPop_eq]
      exact if_pos ⟨hdvd, by omega⟩
    refine ⟨_, if_pos trivial, ?_⟩
    intro hsound
    change Sound (uArenaPop a size) at hsound
    rw [hpop] at hsound
    have hle : (a.cur - size).toNat ≤ a.cap.toNat := UInt64.le_iff_toNat_le.mp hsound.cur_le
    omega
  | alloc size => exact absurd trivial hbad
  | zalloc size => exact absurd trivial hbad
  | seek pos => exact absurd trivial hbad
  | free => exact absurd trivial hbad

/-- An arena of 4096 bytes whose blocks are aligned to 8. -/
def byEights : UArena where
  alignment := 8
  pageSz := 4096
  lastPageStart := 0
  cap := 4096
  cur := 0
  mem := 65536

theorem created_byEights : Created byEights := ⟨by decide, by decide, rfl⟩

end Lmalloc.Poc.Alignment
