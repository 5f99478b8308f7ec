/-
  Lmalloc/Strings/Growing.lean
  ============================
  **A string at the end of a bump allocator.**

  What a caller of `Sdb.h` sees of a string that is the last thing allocated in its
  arena: the text, the capacity and the room that the arena has left.  An append
  that has no room leaves everything as it was, and a caller that ignores its
  result goes on with a text that lacks the fragment.

  A string without spare capacity takes as many bytes from the arena as it gains,
  so a list of fragments is appended completely if and only if all of it fits.
-/
import Lmalloc.Library.Bump
import Lmalloc.Strings.SdbString

namespace Lmalloc.Strings

open Lmalloc.Library Lmalloc.Library.Word Lmalloc.Arena

structure Growing (α : Type) where
  arena : Bump
  cap : ℕ
  text : List α
  len_le : text.length ≤ cap

namespace Growing

variable {α : Type}

theorem length_append_le {g : Growing α} {other : List α} {n : ℕ}
    (h : g.text.length + other.length ≤ n) : (g.text ++ other).length ≤ n := by
  rw [List.length_append]
  exact h

/-- `SdbStringMake` of a text. -/
def make (arena : Bump) (text : List α) : Option (Growing α) :=
  if h : arena.cur + (headerSize + text.length + 1) ≤ arena.cap then
    some ⟨arena.moveTo _ h, text.length, text, Nat.le_refl _⟩
  else none

/-- `SdbStringAppend` and `SdbStringAppendC` of a text. -/
def append (g : Growing α) (other : List α) : Growing α :=
  if h : g.text.length + other.length ≤ g.cap then
    { g with text := g.text ++ other, len_le := length_append_le h }
  else if h : g.arena.cur + other.length ≤ g.arena.cap then
    { arena := g.arena.moveTo _ h
      cap := g.cap + other.length
      text := g.text ++ other
      len_le := length_append_le (Nat.add_le_add_right g.len_le _) }
  else g

/-- `SdbStringBackspace` of no more than the string has. -/
def backspace (g : Growing α) (n : ℕ) : Growing α :=
  { g with
    text := g.text.take (g.text.length - n)
    len_le := Nat.le_trans (List.length_take_le' _ _) g.len_le }

/-! ### Appending fragments -/

/-- The string has no spare capacity. -/
def Tight (g : Growing α) : Prop := g.cap = g.text.length

theorem make_eq_some_iff {arena : Bump} {text : List α} {g : Growing α} :
    make arena text = some g ↔ ∃ h : arena.cur + (headerSize + text.length + 1) ≤ arena.cap,
      g = ⟨arena.moveTo _ h, text.length, text, Nat.le_refl _⟩ := by
  rw [make]
  constructor
  · intro hmake
    by_cases h : arena.cur + (headerSize + text.length + 1) ≤ arena.cap
    · rw [dif_pos h] at hmake
      exact ⟨h, (Option.some.inj hmake).symm⟩
    · rw [dif_neg h] at hmake
      cases hmake
  · rintro ⟨h, rfl⟩
    rw [dif_pos h]

theorem make_eq_none_iff {arena : Bump} {text : List α} :
    make arena text = none ↔ arena.cap < arena.cur + (headerSize + text.length + 1) := by
  rw [make]
  by_cases h : arena.cur + (headerSize + text.length + 1) ≤ arena.cap
  · rw [dif_pos h]
    exact iff_of_false (fun hnone => by cases hnone) (Nat.not_lt.mpr h)
  · rw [dif_neg h]
    exact iff_of_true rfl (Nat.lt_of_not_le h)

/-- A string that has just been made. -/
structure Fresh (arena : Bump) (text : List α) (g : Growing α) : Prop where
  tight : g.Tight
  text_eq : g.text = text
  cap : g.arena.cap = arena.cap
  cur : g.arena.cur = arena.cur + (headerSize + text.length + 1)

theorem fresh_of_make {arena : Bump} {text : List α} {g : Growing α}
    (h : make arena text = some g) : Fresh arena text g := by
  obtain ⟨_, rfl⟩ := make_eq_some_iff.mp h
  exact ⟨rfl, rfl, rfl, rfl⟩

/-- With room the string grows by the fragment, and the arena by as much. -/
theorem append_of_fits {g : Growing α} (ht : g.Tight) {other : List α}
    (h : g.arena.cur + other.length ≤ g.arena.cap) :
    (g.append other).text = g.text ++ other ∧ (g.append other).Tight ∧
      (g.append other).arena = g.arena.moveTo _ h := by
  rw [append]
  by_cases hfit : g.text.length + other.length ≤ g.cap
  · -- nothing to append
    have hnil : other.length = 0 := by
      rw [ht] at hfit
      omega
    rw [dif_pos hfit]
    refine ⟨rfl, ?_, ?_⟩
    · simp only [Tight, List.length_append, hnil, Nat.add_zero]
      exact ht
    · simp only [hnil]
      rfl
  · rw [dif_neg hfit, dif_pos h]
    refine ⟨rfl, ?_, rfl⟩
    simp only [Tight, List.length_append]
    rw [ht]

theorem append_of_full {g : Growing α} (ht : g.Tight) {other : List α}
    (h : ¬ g.arena.cur + other.length ≤ g.arena.cap) : g.append other = g := by
  have hcur := g.arena.cur_le
  rw [append, dif_neg, dif_neg h]
  rw [ht]
  omega

/-- Spare capacity is used without the arena. -/
theorem append_of_spare {g : Growing α} {other : List α}
    (h : g.text.length + other.length ≤ g.cap) :
    (g.append other).text = g.text ++ other ∧ (g.append other).arena = g.arena := by
  rw [append, dif_pos h]
  exact ⟨rfl, rfl⟩

/-- All bytes of the fragments are there, and taken from the arena. -/
structure Complete (g : Growing α) (frags : List (List α)) (g' : Growing α) : Prop where
  text : g'.text = g.text ++ frags.flatten
  tight : g'.Tight
  cap : g'.arena.cap = g.arena.cap
  cur : g'.arena.cur = g.arena.cur + frags.flatten.length

theorem complete_of_fits {g : Growing α} (ht : g.Tight) {frags : List (List α)}
    (h : g.arena.cur + frags.flatten.length ≤ g.arena.cap) :
    g.Complete frags (frags.foldl append g) := by
  induction frags generalizing g with
  | nil => exact ⟨(List.append_nil _).symm, ht, rfl, rfl⟩
  | cons frag frags ih =>
    rw [List.flatten_cons, List.length_append] at h
    have hfrag : g.arena.cur + frag.length ≤ g.arena.cap := by omega
    obtain ⟨htext, htight, harena⟩ := append_of_fits ht hfrag
    have hrest : (g.append frag).arena.cur + frags.flatten.length ≤ (g.append frag).arena.cap := by
      rw [harena, Bump.cur_moveTo, Bump.cap_moveTo]
      omega
    obtain ⟨hall, htight', hcap, hcur⟩ := ih htight hrest
    refine ⟨?_, htight', ?_, ?_⟩
    · rw [List.foldl_cons, hall, htext, List.flatten_cons, List.append_assoc]
    · rw [List.foldl_cons, hcap, harena, Bump.cap_moveTo]
    · rw [List.foldl_cons, hcur, harena, Bump.cur_moveTo, List.flatten_cons, List.length_append]
      omega

/-- Whatever is refused, string and arena grow by the same number of bytes. -/
structure Kept (g g' : Growing α) : Prop where
  tight : g'.Tight
  cap : g'.arena.cap = g.arena.cap
  cur : g'.arena.cur + g.text.length = g.arena.cur + g'.text.length
  length_le : g.text.length ≤ g'.text.length

theorem kept_append {g : Growing α} (ht : g.Tight) (other : List α) : g.Kept (g.append other) := by
  by_cases h : g.arena.cur + other.length ≤ g.arena.cap
  · obtain ⟨htext, htight, harena⟩ := append_of_fits ht h
    refine ⟨htight, ?_, ?_, ?_⟩
    · rw [harena, Bump.cap_moveTo]
    · rw [harena, htext, Bump.cur_moveTo, List.length_append]
      omega
    · rw [htext, List.length_append]
      exact Nat.le_add_right _ _
  · rw [append_of_full ht h]
    exact ⟨ht, rfl, rfl, Nat.le_refl _⟩

theorem kept_foldl {g : Growing α} (ht : g.Tight) (frags : List (List α)) :
    g.Kept (frags.foldl append g) := by
  induction frags generalizing g with
  | nil => exact ⟨ht, rfl, rfl, Nat.le_refl _⟩
  | cons frag frags ih =>
    obtain ⟨htight, hcap, hcur, hle⟩ := kept_append ht frag
    obtain ⟨htight', hcap', hcur', hle'⟩ := ih htight
    refine ⟨htight', hcap'.trans hcap, ?_, Nat.le_trans hle hle'⟩
    rw [List.foldl_cons]
    omega

/-- If the fragments do not all fit, the text is shorter than it should be. -/
theorem length_lt_of_not_fits {g : Growing α} (ht : g.Tight) {frags : List (List α)}
    (h : ¬ g.arena.cur + frags.flatten.length ≤ g.arena.cap) :
    (frags.foldl append g).text.length < g.text.length + frags.flatten.length := by
  obtain ⟨-, hcap, hcur, -⟩ := kept_foldl ht frags
  have hle := (frags.foldl append g).arena.cur_le
  omega

/-! ### Removing the last separator -/

/-- Append all, take the last `n` bytes away, append what ends the text. -/
def finish (g : Growing α) (frags : List (List α)) (n : ℕ) (ending : List α) : Growing α :=
  ((frags.foldl append g).backspace n).append ending

/-- The bytes that the ending takes from the arena.  It uses the place of the bytes
    taken away only if it fits there. -/
def endingRoom (n : ℕ) (ending : List α) : ℕ := if ending.length ≤ n then 0 else ending.length

theorem length_append_text_le (g : Growing α) (other : List α) :
    (g.append other).text.length ≤ g.text.length + other.length := by
  rw [append]
  split
  · exact Nat.le_of_eq List.length_append
  · split
    · exact Nat.le_of_eq List.length_append
    · exact Nat.le_add_right _ _

theorem length_backspace {g : Growing α} {n : ℕ} :
    (g.backspace n).text.length = g.text.length - n := by
  simp only [backspace, List.length_take]
  exact Nat.min_eq_left (Nat.sub_le _ _)

theorem append_text_eq_iff {g : Growing α} {n : ℕ} (ht : g.Tight) (hn : n ≤ g.text.length)
    (ending : List α) :
    ((g.backspace n).append ending).text = (g.backspace n).text ++ ending ↔
      g.arena.cur + endingRoom n ending ≤ g.arena.cap := by
  have hcur := g.arena.cur_le
  have hlen := length_backspace (g := g) (n := n)
  have hcap : (g.backspace n).cap = g.text.length := ht
  rw [endingRoom]
  by_cases hspare : ending.length ≤ n
  · rw [if_pos hspare]
    exact iff_of_true (append_of_spare (by omega)).1 (by omega)
  · rw [if_neg hspare, append, dif_neg (by omega)]
    by_cases hfit : g.arena.cur + ending.length ≤ g.arena.cap
    · have hroom : (g.backspace n).arena.cur + ending.length ≤ (g.backspace n).arena.cap := hfit
      rw [dif_pos hroom]
      exact iff_of_true rfl hfit
    · have hfull : ¬ (g.backspace n).arena.cur + ending.length ≤ (g.backspace n).arena.cap := hfit
      rw [dif_neg hfull]
      refine iff_of_false ?_ hfit
      intro hsame
      have hlength := congrArg List.length hsame
      rw [List.length_append] at hlength
      omega

/-- **The text is complete if and only if everything fits.** -/
theorem finish_text_iff {g : Growing α} (ht : g.Tight) (frags : List (List α)) {n : ℕ}
    (hn : n ≤ g.text.length) (ending : List α) :
    (g.finish frags n ending).text =
        (g.text ++ frags.flatten).take ((g.text ++ frags.flatten).length - n) ++ ending ↔
      g.arena.cur + frags.flatten.length + endingRoom n ending ≤ g.arena.cap := by
  by_cases hfit : g.arena.cur + frags.flatten.length ≤ g.arena.cap
  · obtain ⟨htext, htight, hcap, hcur⟩ := complete_of_fits ht hfit
    have hle : n ≤ (frags.foldl append g).text.length := by
      rw [htext, List.length_append]
      omega
    have hend := append_text_eq_iff htight hle ending
    rw [hcap, hcur] at hend
    rw [← hend, ← htext]
    exact Iff.rfl
  · have hshort := length_lt_of_not_fits ht hfit
    have hold := (kept_foldl ht frags).length_le
    have hlong := length_append_text_le ((frags.foldl append g).backspace n) ending
    rw [length_backspace] at hlong
    refine iff_of_false ?_ (by omega)
    intro hsame
    have hlength := congrArg List.length hsame
    rw [List.length_append, List.length_take, Nat.min_eq_left (Nat.sub_le _ _),
      List.length_append] at hlength
    simp only [finish] at hlength
    omega

/-- What a complete text takes from the arena. -/
theorem finish_arena {g : Growing α} (ht : g.Tight) (frags : List (List α)) {n : ℕ}
    (hn : n ≤ g.text.length) (ending : List α)
    (hfit : g.arena.cur + frags.flatten.length + endingRoom n ending ≤ g.arena.cap) :
    (g.finish frags n ending).arena.cap = g.arena.cap ∧
      (g.finish frags n ending).arena.cur =
        g.arena.cur + frags.flatten.length + endingRoom n ending := by
  obtain ⟨htext, htight, hcap, hcur⟩ := complete_of_fits ht (Nat.le_of_add_right_le hfit)
  have hlen : ((frags.foldl append g).backspace n).text.length =
      (frags.foldl append g).text.length - n := length_backspace
  have hlong : g.text.length ≤ (frags.foldl append g).text.length := by
    rw [htext, List.length_append]
    exact Nat.le_add_right _ _
  have hcapEq : ((frags.foldl append g).backspace n).cap = (frags.foldl append g).text.length :=
    htight
  rw [finish, append]
  by_cases hspare : ending.length ≤ n
  · rw [endingRoom, if_pos hspare, dif_pos (by omega)]
    exact ⟨hcap, hcur⟩
  · rw [endingRoom, if_neg hspare] at hfit ⊢
    have hroom : ((frags.foldl append g).backspace n).arena.cur + ending.length ≤
        ((frags.foldl append g).backspace n).arena.cap := by
      change (frags.foldl append g).arena.cur + _ ≤ (frags.foldl append g).arena.cap
      omega
    rw [dif_neg (by omega), dif_pos hroom]
    refine ⟨hcap, ?_⟩
    rw [Bump.cur_moveTo]
    exact congrArg (· + ending.length) hcur

/-- However much is refused, the text is not longer than this. -/
theorem length_finish_le {g : Growing α} (ht : g.Tight) (frags : List (List α)) (n : ℕ)
    (ending : List α) :
    (g.finish frags n ending).text.length ≤
      g.text.length + frags.flatten.length - n + ending.length := by
  have hlong := length_append_text_le ((frags.foldl append g).backspace n) ending
  have hfold : (frags.foldl append g).text.length ≤ g.text.length + frags.flatten.length := by
    by_cases hfit : g.arena.cur + frags.flatten.length ≤ g.arena.cap
    · rw [(complete_of_fits ht hfit).text, List.length_append]
    · exact Nat.le_of_lt (length_lt_of_not_fits ht hfit)
  rw [length_backspace] at hlong
  exact Nat.le_trans hlong (Nat.add_le_add_right (Nat.sub_le_sub_right hfold n) _)

/-! ### The string in memory -/

/-- A string in memory that is the last allocation of its arena looks like this. -/
structure Shows (ua : ℕ) (t : Text) (g : Growing UInt8) : Prop where
  sound : t.Sound ua
  text : g.text = t.ref
  cap : g.cap = (lmStringCap t.store.memory t.string).toNat
  arena_cur : g.arena.cur = (t.store.arenas ua).cur.toNat
  arena_cap : g.arena.cap = (t.store.arenas ua).cap.toNat

/-- The bytes that an appending call puts behind the string. -/
def Appends (c : Growth) : Prop := ∀ len, c.start len = len

/-- **Each append of `Sdb.h` shows as `append`.** -/
theorem Shows.append {ua : ℕ} {t : Text} {g : Growing UInt8} (h : g.Shows ua t) {c : Growth}
    (hc : Appends c) (hlegal : t.Legal (.grow c)) :
    ∃ r, t.call (.grow c) = some r ∧
      (g.append (c.src t.store.memory)).Shows ua (t.after (.grow c) r) := by
  have hcur := UInt64.le_iff_toNat_le.mp h.sound.cur_le
  have hcapLt := h.sound.cap_lt
  have hsrc := Growth.Legal.length_src_lt hlegal
  have hlen := h.sound.isString.len_le
  have hstart := hc t.ref.length
  rcases Growth.call_cases h.sound.isString h.sound.cur_le (Nat.le_of_lt h.sound.cap_lt_cur)
    (by omega) hlegal with ⟨⟨hneed, hfull⟩, hnone⟩ | ⟨st', cap', hsome, hext⟩
  · refine ⟨_, hnone, ?_⟩
    rw [Growing.append, dif_neg, dif_neg]
    · exact h
    · rw [h.arena_cur, h.arena_cap]
      omega
    · rw [h.text, h.cap]
      omega
  · have hsound := sound_of_extended h.sound hext
    have hstring := hext.isString.cap_eq
    have harena := (mem_and_cap_of_update hext.arenas).2
    have hmoved := hext.cur_eq
    have hle := UInt64.le_iff_toNat_le.mp hext.cur_le
    have hbytes : t.ref.take (c.start t.ref.length) ++ c.src t.store.memory =
        t.ref ++ c.src t.store.memory := by
      rw [hstart, List.take_length]
    have hspec : t.spec (.grow c) = t.ref ++ c.src t.store.memory := by
      rw [spec_grow, hbytes]
    rw [hbytes] at hsound
    have hfits := hext.isString.len_le
    rw [hbytes, List.length_append] at hfits
    refine ⟨_, hsome, ?_⟩
    simp only [Text.after, hspec]
    have hgText := h.text
    have hgCap := h.cap
    have hgCur := h.arena_cur
    have hgArena := h.arena_cap
    rcases hext.cap_cases with hsame | ⟨hneed, hgrown⟩
    · rw [Growing.append, dif_pos (by rw [hgText, hgCap]; omega)]
      refine ⟨hsound, congrArg (· ++ _) hgText, ?_, ?_, ?_⟩
      · exact hgCap.trans (hsame.symm.trans hstring.symm)
      · have hstill : g.arena.cur = (st'.arenas ua).cur.toNat := by omega
        exact hstill
      · exact hgArena.trans (congrArg UInt64.toNat harena.symm)
    · rw [Growing.append, dif_neg (by rw [hgText, hgCap]; omega),
        dif_pos (by rw [hgCur, hgArena]; omega)]
      refine ⟨hsound, congrArg (· ++ _) hgText, ?_, ?_, ?_⟩
      · have hmore : g.cap + (c.src t.store.memory).length = cap' := by omega
        exact hmore.trans hstring.symm
      · have hahead : g.arena.cur + (c.src t.store.memory).length = (st'.arenas ua).cur.toNat := by
          omega
        exact hahead
      · exact hgArena.trans (congrArg UInt64.toNat harena.symm)

theorem Shows.backspace {ua : ℕ} {t : Text} {g : Growing UInt8} (h : g.Shows ua t) {n : UInt64}
    (hn : n.toNat ≤ t.ref.length) :
    (g.backspace n.toNat).Shows ua
      (t.after (.backspace n) (some t.string, lmStringBackspace t.store t.string n)) := by
  have hcut := h.sound.isString.cut (Nat.sub_le t.ref.length n.toNat)
  simp only [Text.after, Text.spec]
  rw [lmStringBackspace_eq h.sound.isString hn]
  refine ⟨sound_of_cut h.sound (Nat.sub_le _ _), ?_, ?_, h.arena_cur, h.arena_cap⟩
  · simp only [Growing.backspace, h.text]
  · exact h.cap.trans hcut.cap_eq.symm

/-- **Making a string of a C string shows as `make`.** -/
theorem shows_make {st : Store} {a p n : ℕ} {arena : Bump} (ha : a < 2 ^ 64)
    (hcap : (st.arenas a).cap.toNat < 2 ^ 63) (hn : st.memory.strlen p = some n) (hpos : 0 < n)
    (hp : Origin.Outside st a p n) (hcurEq : arena.cur = (st.arenas a).cur.toNat)
    (hcapEq : arena.cap = (st.arenas a).cap.toNat) :
    (make arena (cBytes st.memory p) = none ∧ sdbStringMake st a (some p) = some (none, st)) ∨
      ∃ g s st', make arena (cBytes st.memory p) = some g ∧
        sdbStringMake st a (some p) = some (some s, st') ∧
        g.Shows a ⟨st', s, cBytes st.memory p⟩ := by
  have hlt : n < 2 ^ 57 := Memory.strlen_lt hn
  have hle := arena.cur_le
  have hword : (UInt64.ofNat n).toNat = n := toNat_ofNat_of_lt (by omega)
  have hbytes : cBytes st.memory p = st.memory.read p (UInt64.ofNat n).toNat := by
    rw [cBytes, hn, Option.getD_some, hword]
  have hlength : (cBytes st.memory p).length = n := by
    rw [hbytes, Memory.length_read, hword]
  have hcall : sdbStringMake st a (some p) = sdbStringMakeOf st a (some p) (UInt64.ofNat n) := by
    rw [sdbStringMake, hn, Option.bind_some]
  have hwrap : (st.arenas a).cur.toNat + (headerSize + (UInt64.ofNat n).toNat + 1) < 2 ^ 64 := by
    rw [hword]
    simp only [headerSize]
    omega
  rw [hcall]
  by_cases hfit : arena.cur + (headerSize + (cBytes st.memory p).length + 1) ≤ arena.cap
  · have hroom : HasRoom st a (UInt64.ofNat n) := by
      refine ⟨hwrap, ?_⟩
      rw [hword]
      omega
    have houtside : Origin.Outside st a p (UInt64.ofNat n).toNat := by
      rw [hword]
      exact hp
    obtain ⟨st', hmake, hconstructed⟩ := @HasRoom.constructed_some st a (UInt64.ofNat n) ha hroom
      (.make (some p)) p (fun h => by cases h) hbytes houtside
    have hends : (Origin.make (some p)).Ends st a := by
      refine Or.inr (Or.inl fun hnil => ?_)
      have hzero := congrArg List.length hnil
      rw [Origin.source, hlength] at hzero
      exact Nat.ne_of_gt hpos hzero
    have hmade : MadeAt st a _ (cBytes st.memory p) st' := hconstructed.madeAt hends
    have hstring := hmade.isString.cap_eq
    have hmoved := hmade.cur_eq
    have harena := (mem_and_cap_of_update hmade.arenas).2
    refine Or.inr ⟨_, _, st', make_eq_some_iff.mpr ⟨hfit, rfl⟩, hmake, sound_of_madeAt hmade hcap,
      rfl, hstring.symm, ?_, ?_⟩
    · rw [Bump.cur_moveTo, hcurEq]
      exact hmoved.symm
    · exact hcapEq.trans (congrArg UInt64.toNat harena.symm)
  · refine Or.inl ⟨make_eq_none_iff.mpr (Nat.lt_of_not_le hfit), ?_⟩
    refine sdbStringMakeOf_of_full hwrap ?_ _
    rw [hword]
    omega

end Growing

end Lmalloc.Strings
