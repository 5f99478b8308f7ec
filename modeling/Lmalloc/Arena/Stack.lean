/-
  Lmalloc/Arena/Stack.lean
  ========================
  **The stack discipline of a `UArena`.**

  There are two ways to give memory back: `ua_pop` of what the last call has
  taken, and the release of a scratch, which seeks back to where it began.  In a
  well-nested word each allocation is paired with its pop and each scratch with
  its release; inside a scratch allocations may stay unpaired, since the release
  undoes them all.  Executing such a word leaves the arena as it was.

  Inside a scratch the cursor need not return, but it never falls below where it
  started.  This weaker statement holds of every word, and the release turns it
  into the full one.
-/
import Lmalloc.Arena.Cursor

namespace Lmalloc.Arena

open Lmalloc.Library Lmalloc.Library.Word

/-! ### Words -/

inductive StackWord where
  | done
  | pair (zero : Bool) (size : UInt64) (body rest : StackWord)   -- alloc or zalloc, body, pop
  | scratch (body rest : StackWord)
  | unpaired (c : Call) (rest : StackWord)

namespace StackWord

/-- Every unpaired call stands inside a scratch. -/
def WellNested : StackWord → Prop
  | .done => True
  | .pair _ _ body rest => body.WellNested ∧ rest.WellNested
  | .scratch _ rest => rest.WellNested
  | .unpaired _ _ => False

/-- All sizes are below `2^63`. -/
def Small : StackWord → Prop
  | .done => True
  | .pair _ size body rest => size.toNat < 2 ^ 63 ∧ body.Small ∧ rest.Small
  | .scratch body rest => body.Small ∧ rest.Small
  | .unpaired c rest => c.size.toNat < 2 ^ 63 ∧ rest.Small

def allocation (zero : Bool) (size : UInt64) : Call := if zero then .zalloc size else .alloc size

/-- Execute a word on the arena at address `self`.  A paired allocation has to
    succeed; an unpaired one may fail. -/
def exec (self : Addr) : StackWord → Heap → Option Heap
  | .done, h => some h
  | .pair zero size body rest, h =>
      match h.call (allocation zero size) with
      | (none, _) => none
      | (some _, h) =>
          match body.exec self h with
          | none => none
          | some h => rest.exec self { h with ua := uaPop h.ua size }
  | .scratch body rest, h =>
      let uas := uaScratchBegin (some (self, h.ua))
      match body.exec self h with
      | none => none
      | some h => rest.exec self { h with ua := uaScratchRelease uas h.ua }
  | .unpaired c rest, h => rest.exec self (h.call c).2

end StackWord

/-! ### What a piece of a word leaves alone -/

/-- The arena is the same but for a cursor that has not gone down, and no byte
    below the old cursor has changed. -/
structure Above (h h' : Heap) : Prop where
  flags_eq : h'.ua.flags = h.ua.flags
  cap_eq : h'.ua.cap = h.ua.cap
  mem_eq : h'.ua.mem = h.ua.mem
  cur_le : h.ua.cur.toNat ≤ h'.ua.cur.toNat
  below : ∀ a < h.ua.mem + h.ua.cur.toNat, h'.memory a = h.memory a

theorem Above.refl (h : Heap) : Above h h := ⟨rfl, rfl, rfl, Nat.le_refl _, fun _ _ => rfl⟩

theorem Above.trans {h₁ h₂ h₃ : Heap} (h₁₂ : Above h₁ h₂) (h₂₃ : Above h₂ h₃) : Above h₁ h₃ where
  flags_eq := h₂₃.flags_eq.trans h₁₂.flags_eq
  cap_eq := h₂₃.cap_eq.trans h₁₂.cap_eq
  mem_eq := h₂₃.mem_eq.trans h₁₂.mem_eq
  cur_le := Nat.le_trans h₁₂.cur_le h₂₃.cur_le
  below := by
    intro a ha
    have hcur := h₁₂.cur_le
    have ha' : a < h₂.ua.mem + h₂.ua.cur.toNat := by
      rw [h₁₂.mem_eq]
      exact Nat.lt_of_lt_of_le ha (Nat.add_le_add_left hcur _)
    rw [h₂₃.below a ha', h₁₂.below a ha]

theorem cur_lt_half {h : Heap} (hcap : h.ua.cap.toNat < 2 ^ 63) (hcur : h.ua.cur ≤ h.ua.cap) :
    h.ua.cur.toNat < 2 ^ 63 :=
  Nat.lt_of_le_of_lt (UInt64.le_iff_toNat_le.mp hcur) hcap

/-- **A call that does not wrap**: it leaves what is below the cursor alone, and if
    it succeeds the cursor has gone up by the size. -/
theorem above_call {h : Heap} {c : Call} (hw : NoWrap h c) : Above h (h.call c).2 := by
  have hsum : (h.ua.cur + c.size).toNat = h.ua.cur.toNat + c.size.toNat := toNat_add_of_lt hw
  have hup : h.ua.cur.toNat ≤ (h.ua.cur + c.size).toNat := by
    rw [hsum]
    exact Nat.le_add_right _ _
  cases c with
  | alloc size =>
    simp only [Heap.call, uaAlloc]
    split
    · exact ⟨rfl, rfl, rfl, hup, fun _ _ => rfl⟩
    · exact Above.refl h
  | zalloc size =>
    simp only [Heap.call, uaZalloc]
    split
    · refine ⟨rfl, rfl, rfl, hup, ?_⟩
      intro a ha
      refine Memory.fill_of_notMem ?_
      rintro ⟨hle, _⟩
      exact Nat.not_lt.mpr hle ha
    · exact Above.refl h
  | reserve sz =>
    simp only [Heap.call, uaReserve]
    split
    · exact ⟨rfl, rfl, rfl, hup, fun _ _ => rfl⟩
    · exact Above.refl h

/-- An allocation that succeeds has moved the cursor up by its size. -/
theorem ua_allocation {h : Heap} {zero : Bool} {size : UInt64} {s : Span}
    (hok : (h.call (StackWord.allocation zero size)).1 = some s) :
    (h.call (StackWord.allocation zero size)).2.ua = { h.ua with cur := h.ua.cur + size } := by
  cases zero with
  | false =>
    simp only [StackWord.allocation, Bool.false_eq_true, if_false, Heap.call, uaAlloc] at hok ⊢
    split at hok
    · rename_i hfit
      rw [if_pos hfit]
    · cases hok
  | true =>
    simp only [StackWord.allocation, if_true, Heap.call, uaZalloc] at hok ⊢
    split at hok
    · rename_i hfit
      rw [if_pos hfit]
    · cases hok

/-- Popping what was taken, after anything above it. -/
theorem above_pop {h h₁ h₂ : Heap} {size : UInt64} (hcap : h₂.ua.cap.toNat < 2 ^ 63)
    (hcur : h₂.ua.cur ≤ h₂.ua.cap) (hsize : size.toNat < 2 ^ 63)
    (htaken : h₁.ua.cur.toNat = h.ua.cur.toNat + size.toNat) (h₁₂ : Above h₁ h₂)
    (hh₁ : Above h h₁) :
    Above h { h₂ with ua := uaPop h₂.ua size } ∧
      (uaPop h₂.ua size).cur = h₂.ua.cur - size ∧ (uaPop h₂.ua size).cur ≤ h₂.ua.cap := by
  have hle : size.toNat ≤ h₂.ua.cur.toNat := by
    have hup := h₁₂.cur_le
    omega
  have hpop : uaPop h₂.ua size = { h₂.ua with cur := h₂.ua.cur - size } := by
    rw [uaPop_of_lt (cur_lt_half hcap hcur) hsize, if_pos hle]
  have habove := hh₁.trans h₁₂
  refine ⟨⟨?_, ?_, ?_, ?_, habove.below⟩, ?_, ?_⟩
  · rw [hpop]
    exact habove.flags_eq
  · rw [hpop]
    exact habove.cap_eq
  · rw [hpop]
    exact habove.mem_eq
  · have hup := h₁₂.cur_le
    rw [hpop]
    show h.ua.cur.toNat ≤ (h₂.ua.cur - size).toNat
    rw [toNat_sub_of_le hle]
    omega
  · rw [hpop]
  · rw [hpop]
    exact UInt64.le_trans (UInt64.sub_le (UInt64.le_iff_toNat_le.mpr hle)) hcur

/-- The release of a scratch restores the arena it was begun on. -/
theorem release_eq {h h₂ : Heap} (self : Addr) (hcur : h.ua.cur ≤ h.ua.cap) (ha : Above h h₂) :
    uaScratchRelease (uaScratchBegin (some (self, h.ua))) h₂.ua = h.ua := by
  simp only [uaScratchRelease, uaScratchBegin, uaSeek, ha.flags_eq, ha.cap_eq, ha.mem_eq,
    if_pos hcur]

/-! ### Words -/

/-- What the parts of a pair do, taken apart. -/
theorem exec_pair {self : Addr} {zero : Bool} {size : UInt64} {body rest : StackWord}
    {h h' : Heap} (hexec : (StackWord.pair zero size body rest).exec self h = some h') :
    ∃ s h₂, (h.call (StackWord.allocation zero size)).1 = some s ∧
      body.exec self (h.call (StackWord.allocation zero size)).2 = some h₂ ∧
      rest.exec self { h₂ with ua := uaPop h₂.ua size } = some h' := by
  simp only [StackWord.exec] at hexec
  rcases hcall : h.call (StackWord.allocation zero size) with ⟨_ | s, h₁⟩
  · simp only [hcall] at hexec
    cases hexec
  · simp only [hcall] at hexec
    rcases hbody : body.exec self h₁ with _ | h₂
    · simp only [hbody] at hexec
      cases hexec
    · simp only [hbody] at hexec
      exact ⟨s, h₂, rfl, rfl, hexec⟩

theorem exec_scratch {self : Addr} {body rest : StackWord} {h h' : Heap}
    (hexec : (StackWord.scratch body rest).exec self h = some h') :
    ∃ h₂, body.exec self h = some h₂ ∧
      rest.exec self
        { h₂ with ua := uaScratchRelease (uaScratchBegin (some (self, h.ua))) h₂.ua } =
          some h' := by
  simp only [StackWord.exec] at hexec
  rcases hbody : body.exec self h with _ | h₂
  · simp only [hbody] at hexec
    cases hexec
  · simp only [hbody] at hexec
    exact ⟨h₂, rfl, hexec⟩

theorem size_allocation (zero : Bool) (size : UInt64) :
    (StackWord.allocation zero size).size = size := by
  cases zero with
  | false => rfl
  | true => rfl

theorem noWrap_of_small {h : Heap} (hcap : h.ua.cap.toNat < 2 ^ 63)
    (hcur : h.ua.cur ≤ h.ua.cap) {c : Call} (hsize : c.size.toNat < 2 ^ 63) : NoWrap h c := by
  have hlt := cur_lt_half hcap hcur
  simp only [NoWrap]
  omega

/-- **No word of small sizes touches anything below its start**, and the cursor it
    leaves is at or above the one it found. -/
theorem exec_above (self : Addr) (w : StackWord) {h h' : Heap} (hcap : h.ua.cap.toNat < 2 ^ 63)
    (hcur : h.ua.cur ≤ h.ua.cap) (hsmall : w.Small) (hexec : w.exec self h = some h') :
    Above h h' ∧ h'.ua.cur ≤ h'.ua.cap := by
  induction w generalizing h h' with
  | done =>
    cases hexec
    exact ⟨Above.refl h, hcur⟩
  | pair zero size body rest ihb ihr =>
    obtain ⟨s, h₂, hok, hbody, hrest⟩ := exec_pair hexec
    obtain ⟨hsize, hsb, hsr⟩ := hsmall
    have hw : NoWrap h (StackWord.allocation zero size) :=
      noWrap_of_small hcap hcur (by rw [size_allocation]; exact hsize)
    have h₁ := above_call hw
    have htaken : (h.call (StackWord.allocation zero size)).2.ua.cur.toNat =
        h.ua.cur.toNat + size.toNat := by
      rw [NoWrap, size_allocation] at hw
      rw [ua_allocation hok]
      exact toNat_add_of_lt hw
    obtain ⟨h₁₂, hcur₂⟩ := ihb (by rw [h₁.cap_eq]; exact hcap) (cur_call_le hcur _) hsb hbody
    have hcap₂ : h₂.ua.cap.toNat < 2 ^ 63 := by
      rw [h₁₂.cap_eq, h₁.cap_eq]
      exact hcap
    obtain ⟨h₃, _, hcur₃⟩ := above_pop hcap₂ hcur₂ hsize htaken h₁₂ h₁
    obtain ⟨h₃', hcur'⟩ := ihr (by rw [h₃.cap_eq]; exact hcap)
      (by rw [cap_uaPop]; exact hcur₃) hsr hrest
    exact ⟨h₃.trans h₃', hcur'⟩
  | scratch body rest ihb ihr =>
    obtain ⟨h₂, hbody, hrest⟩ := exec_scratch hexec
    obtain ⟨h₂', _⟩ := ihb hcap hcur hsmall.1 hbody
    rw [release_eq self hcur h₂'] at hrest
    have hback : Above h { h₂ with ua := h.ua } := ⟨rfl, rfl, rfl, Nat.le_refl _, h₂'.below⟩
    obtain ⟨h₃', hcur'⟩ := ihr (h := { h₂ with ua := h.ua }) hcap hcur hsmall.2 hrest
    exact ⟨hback.trans h₃', hcur'⟩
  | unpaired c rest ih =>
    have h₁ := above_call (noWrap_of_small hcap hcur hsmall.1)
    obtain ⟨h₂, hcur'⟩ := ih (by rw [h₁.cap_eq]; exact hcap) (cur_call_le hcur c) hsmall.2 hexec
    exact ⟨h₁.trans h₂, hcur'⟩

/-- **A well-nested word restores the arena.** -/
theorem exec_wellNested (self : Addr) (w : StackWord) {h h' : Heap}
    (hcap : h.ua.cap.toNat < 2 ^ 63) (hcur : h.ua.cur ≤ h.ua.cap) (hsmall : w.Small)
    (hnest : w.WellNested) (hexec : w.exec self h = some h') : h'.ua = h.ua := by
  induction w generalizing h h' with
  | done =>
    cases hexec
    rfl
  | pair zero size body rest ihb ihr =>
    obtain ⟨s, h₂, hok, hbody, hrest⟩ := exec_pair hexec
    obtain ⟨hsize, hsb, hsr⟩ := hsmall
    have hw : NoWrap h (StackWord.allocation zero size) :=
      noWrap_of_small hcap hcur (by rw [size_allocation]; exact hsize)
    have hcap₁ : (h.call (StackWord.allocation zero size)).2.ua.cap.toNat < 2 ^ 63 := by
      rw [(above_call hw).cap_eq]
      exact hcap
    have hcur₁ := cur_call_le hcur (StackWord.allocation zero size)
    have hback : uaPop h₂.ua size = h.ua := by
      rw [NoWrap, size_allocation] at hw
      have hsum : (h.ua.cur + size).toNat = h.ua.cur.toNat + size.toNat := toNat_add_of_lt hw
      rw [ihb hcap₁ hcur₁ hsb hnest.1 hbody, uaPop_of_lt (cur_lt_half hcap₁ hcur₁) hsize,
        ua_allocation hok]
      simp only [hsum, Nat.le_add_left, if_true, UInt64.add_sub_cancel]
    rw [hback] at hrest
    exact ihr (h := { h₂ with ua := h.ua }) hcap hcur hsr hnest.2 hrest
  | scratch body rest ihb ihr =>
    obtain ⟨h₂, hbody, hrest⟩ := exec_scratch hexec
    obtain ⟨h₂', _⟩ := exec_above self body hcap hcur hsmall.1 hbody
    rw [release_eq self hcur h₂'] at hrest
    exact ihr (h := { h₂ with ua := h.ua }) hcap hcur hsmall.2 hnest hrest
  | unpaired c rest ih => exact hnest.elim

/-! ### The discipline -/

/-- What a list of calls returns, one answer for each. -/
def answers : Heap → List Call → List (Option Span)
  | _, [] => []
  | h, c :: cs => (h.call c).1 :: answers (h.call c).2 cs

/-- The answers depend on the arena, not on the bytes in memory. -/
theorem answers_congr {h h' : Heap} (hua : h'.ua = h.ua) (cs : List Call) :
    answers h' cs = answers h cs := by
  have hcall : ∀ {h h' : Heap}, h'.ua = h.ua → ∀ c, (h'.call c).1 = (h.call c).1 ∧
      (h'.call c).2.ua = (h.call c).2.ua := by
    intro h h' hua c
    cases c with
    | alloc size => simp only [Heap.call, hua, and_self]
    | zalloc size =>
      simp only [Heap.call, hua, uaZalloc]
      split
      · exact ⟨rfl, rfl⟩
      · exact ⟨rfl, rfl⟩
    | reserve sz => simp only [Heap.call, hua, and_self]
  induction cs generalizing h h' with
  | nil => rfl
  | cons c cs ih =>
    obtain ⟨hsame, hrest⟩ := hcall hua c
    simp only [answers, hsame, ih hrest]

/-- **Executing a well-nested word brings the arena back to where it was, changes no
    byte below the cursor, and leaves every later call the answers it would have
    had before.** -/
theorem stack_discipline (self : Addr) (w : StackWord) {h h' : Heap}
    (hcap : h.ua.cap.toNat < 2 ^ 63) (hcur : h.ua.cur ≤ h.ua.cap) (hsmall : w.Small)
    (hnest : w.WellNested) (hexec : w.exec self h = some h') :
    h'.ua.cur = h.ua.cur ∧ (∀ a < h.ua.mem + h.ua.cur.toNat, h'.memory a = h.memory a) ∧
      ∀ cs, answers h' cs = answers h cs := by
  have hua := exec_wellNested self w hcap hcur hsmall hnest hexec
  obtain ⟨habove, _⟩ := exec_above self w hcap hcur hsmall hexec
  exact ⟨by rw [hua], habove.below, answers_congr hua⟩

/-- Two nested pairs around a scratch with a reserve left unpaired. -/
def nestedWord : StackWord :=
  .pair false 10 (.scratch (.unpaired (.reserve 30) (.pair true 20 .done .done)) .done) .done

theorem stack_discipline_nested :
    ∃ h', nestedWord.exec 64 hundred = some h' ∧ h'.ua.cur = hundred.ua.cur ∧
      (∀ a < hundred.ua.mem + hundred.ua.cur.toNat, h'.memory a = hundred.memory a) ∧
      ∀ cs, answers h' cs = answers hundred cs := by
  have hsome : (nestedWord.exec 64 hundred).isSome := by decide
  obtain ⟨h', hexec⟩ := Option.isSome_iff_exists.mp hsome
  have hsmall : nestedWord.Small := by
    simp only [nestedWord, StackWord.Small, Call.size]
    decide
  exact ⟨h', hexec, stack_discipline 64 nestedWord (by decide) (by decide) hsmall
    ⟨trivial, trivial⟩ hexec⟩

end Lmalloc.Arena
