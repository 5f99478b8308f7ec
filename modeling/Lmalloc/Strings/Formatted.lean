/-
  Lmalloc/Strings/Formatted.lean
  ==============================
  **Appending formatted text through a buffer of 1024 bytes.**

  `vsnprintf` is told that the buffer has 1023 bytes.  It stores at most 1022 bytes
  of the text and a `NUL`, and returns the length that the whole text has.  Both
  functions append that many bytes of the buffer.  Behind the 1022 bytes the buffer
  is zero, so a text of 1023 or 1024 bytes ends in zeros; of a longer one the rest
  is read from beyond the buffer.
-/
import Lmalloc.Strings.SdbString

namespace Lmalloc.Strings

open Lmalloc.Library Lmalloc.Library.Word Lmalloc.Arena

/-- `SdbStringAppendFmt`; the body is that of `lm_string_append_fmt`. -/
def sdbStringAppendFmt (st : Store) (string buf : Addr) (expansion : List UInt8) :
    Option (Option Addr × Store) :=
  lmStringAppendFmt st string buf expansion

/-- The store after `vsnprintf`. -/
def Store.vsnprintf (st : Store) (buf : ℕ) (expansion : List UInt8) : Store :=
  { st with memory := (st.memory.fill ⟨buf, 1024⟩ 0).write buf (expansion.take 1022) }

/-- What the `memcpy` of `lm__string_append__` reads. -/
def lmStringAppendReads (st : Store) (string other : ℕ) (otherLen : UInt64) : Span :=
  match lmStringMakeSpace st string otherLen with
  | (none, _) => ⟨other, 0⟩
  | (some _, _) => ⟨other, otherLen.toNat⟩

/-! ### The buffer -/

section Buffer

variable {st : Store} {buf : ℕ} {expansion : List UInt8}

theorem vsnprintf_of_outside {a : ℕ} (ha : a < buf ∨ buf + 1024 ≤ a) :
    (st.vsnprintf buf expansion).memory a = st.memory a := by
  have hlen : (expansion.take 1022).length ≤ 1022 := List.length_take_le _ _
  have houtside : a ∉ Span.cells ⟨buf, 1024⟩ := by
    rintro ⟨hlo, hhi⟩
    have hlast : a < buf + 1024 := hhi
    have hfirst : buf ≤ a := hlo
    omega
  refine Eq.trans (Memory.write_of_outside ?_) (Memory.fill_of_notMem houtside)
  omega

/-- Behind what was stored the buffer is zero. -/
theorem vsnprintf_of_behind {i : ℕ} (hi : (expansion.take 1022).length ≤ i) (hlt : i < 1024) :
    (st.vsnprintf buf expansion).memory (buf + i) = 0 := by
  refine Eq.trans (Memory.write_of_outside (Or.inr ?_)) (Memory.fill_of_mem ?_)
  · exact Nat.add_le_add_left hi _
  · exact ⟨Nat.le_add_right _ _, Nat.add_lt_add_left hlt _⟩

/-- The first 1022 bytes of the text, then zeros. -/
theorem read_vsnprintf (hlen : expansion.length ≤ 1024) :
    (st.vsnprintf buf expansion).memory.read buf expansion.length =
      expansion.take 1022 ++ List.replicate (expansion.drop 1022).length 0 := by
  have hsum : expansion.length =
      (expansion.take 1022).length + (expansion.drop 1022).length := by
    rw [← List.length_append, List.take_append_drop]
  have hstored : (st.vsnprintf buf expansion).memory.read buf (expansion.take 1022).length =
      expansion.take 1022 := Memory.read_write_same _ _ _
  have hzero : (st.vsnprintf buf expansion).memory.read (buf + (expansion.take 1022).length)
      (expansion.drop 1022).length = List.replicate (expansion.drop 1022).length 0 := by
    refine List.eq_replicate_iff.mpr ⟨Memory.length_read _ _ _, ?_⟩
    intro b hb
    obtain ⟨i, hi, rfl⟩ := List.getElem_of_mem hb
    rw [Memory.length_read] at hi
    rw [Memory.getElem_read, Nat.add_assoc]
    apply vsnprintf_of_behind
    · exact Nat.le_add_right _ _
    · omega
  conv_lhs => rw [hsum]
  rw [Memory.read_add, hstored, hzero]

/-- The buffer holds the whole text if only zeros are missing. -/
theorem read_vsnprintf_eq_iff (hlen : expansion.length ≤ 1024) :
    (st.vsnprintf buf expansion).memory.read buf expansion.length = expansion ↔
      ∀ b ∈ expansion.drop 1022, b = 0 := by
  rw [read_vsnprintf hlen]
  constructor
  · intro h
    conv_rhs at h => rw [← List.take_append_drop 1022 expansion]
    have htail := List.append_cancel_left h
    intro b hb
    rw [← htail] at hb
    exact List.eq_of_mem_replicate hb
  · intro h
    rw [← List.eq_replicate_iff.mpr ⟨rfl, h⟩, List.take_append_drop]

end Buffer

/-! ### One call -/

/-- The call returns the null pointer and writes to its buffer only, or it returns the
    string with the whole text behind the old bytes; it reads from its buffer only. -/
structure AppendsText (t : Text) (ua buf : ℕ) (expansion : List UInt8)
    (call : Store → Addr → Addr → List UInt8 → Option (Option Addr × Store)) : Prop where
  defined : ∃ r, call t.store t.string buf expansion = some r
  null : ∀ st', call t.store t.string buf expansion = some (none, st') →
    st'.arenas = t.store.arenas ∧
      ∀ a : ℕ, a < buf ∨ buf + 1024 ≤ a → st'.memory a = t.store.memory a
  contents : ∀ s' st', call t.store t.string buf expansion = some (some s', st') →
    s' = t.string ∧ Text.Represents ua ⟨st', t.string, t.ref ++ expansion⟩
  inBuffer : (lmStringAppendReads (t.store.vsnprintf buf expansion) t.string buf
    (UInt64.ofNat expansion.length)).stop ≤ buf + 1024

/-- The arena refuses the bytes that the string lacks. -/
def Text.Refused (t : Text) (ua n : ℕ) : Prop :=
  Full (t.store.arenas ua) (lmStringCap t.store.memory t.string).toNat t.ref.length n

section Append

variable {ua buf : ℕ} {t : Text} {expansion : List UInt8}

/-- The buffer is not in the memory from the string's header to the end of the arena. -/
def Text.ApartFrom (t : Text) (ua buf : ℕ) : Prop :=
  buf + 1024 ≤ t.string - headerSize ∨ (t.store.arenas ua).area.stop ≤ buf

/-- The string is as it was after `vsnprintf`. -/
theorem sound_vsnprintf (h : t.Sound ua) (hbuf : t.ApartFrom ua buf) (expansion : List UInt8) :
    Text.Sound ua { t with store := t.store.vsnprintf buf expansion } := by
  have hcap := h.cap_lt
  have hcur := UInt64.le_iff_toNat_le.mp h.cur_le
  have htop := h.top_eq
  have htopEq : (t.store.arenas ua).top =
    (t.store.arenas ua).area.start + (t.store.arenas ua).cur.toNat := rfl
  have hstop : (t.store.arenas ua).area.stop =
    (t.store.arenas ua).area.start + (t.store.arenas ua).cap.toNat := rfl
  refine sound_elsewhere h ⟨rfl, ?_⟩
  intro a hlo hhi
  apply vsnprintf_of_outside
  rcases hbuf with hbelow | habove
  · exact Or.inr (Nat.le_trans hbelow hlo)
  · refine Or.inl ?_
    omega

theorem lmStringCap_vsnprintf (h : t.Sound ua) (hbuf : t.ApartFrom ua buf) :
    lmStringCap (t.store.vsnprintf buf expansion).memory t.string =
      lmStringCap t.store.memory t.string := by
  have hs : 24 ≤ t.string := h.isString.header_le
  have hcur := UInt64.le_iff_toNat_le.mp h.cur_le
  have htop := h.top_eq
  have htopEq : (t.store.arenas ua).top =
    (t.store.arenas ua).area.start + (t.store.arenas ua).cur.toNat := rfl
  have hstop : (t.store.arenas ua).area.stop =
    (t.store.arenas ua).area.start + (t.store.arenas ua).cap.toNat := rfl
  refine Memory.loadWord_congr fun i hi => vsnprintf_of_outside ?_
  simp only [headerSize]
  rcases hbuf with hbelow | habove
  · simp only [headerSize] at hbelow
    exact Or.inr (by omega)
  · exact Or.inl (by omega)

/-- A buffer apart from the arena is apart from what a call writes that is not refused. -/
theorem apart_of_not_refused (h : t.Sound ua) (hbuf : t.ApartFrom ua buf) {n : ℕ}
    (hn : n ≤ 1024) (hfits : ¬ t.Refused ua n) : Apart t.string t.ref.length buf n := by
  have hlen := h.isString.len_le
  have hs : 24 ≤ t.string := h.isString.header_le
  have hcur := UInt64.le_iff_toNat_le.mp h.cur_le
  have htop := h.top_eq
  have htopEq : (t.store.arenas ua).top =
    (t.store.arenas ua).area.start + (t.store.arenas ua).cur.toNat := rfl
  have hstop : (t.store.arenas ua).area.stop =
    (t.store.arenas ua).area.start + (t.store.arenas ua).cap.toNat := rfl
  simp only [Text.Refused, Full, not_and, Nat.not_lt] at hfits
  rcases hbuf with hbelow | habove
  · exact Or.inr (Or.inl (by omega))
  · refine Or.inr (Or.inr ⟨by omega, Or.inl ?_⟩)
    rcases Nat.lt_or_ge (lmStringCap t.store.memory t.string).toNat (t.ref.length + n) with
      hneed | henough
    · have hfit := hfits hneed
      omega
    · omega

theorem refused_vsnprintf (h : t.Sound ua) (hbuf : t.ApartFrom ua buf) (expansion : List UInt8)
    {n : ℕ} : Text.Refused { t with store := t.store.vsnprintf buf expansion } ua n ↔
      t.Refused ua n := by
  simp only [Text.Refused, lmStringCap_vsnprintf h hbuf]
  exact Iff.rfl

theorem reads_of_not_refused (h : t.Sound ua) {n : UInt64}
    (hwrap : (t.store.arenas ua).cur.toNat + n.toNat < 2 ^ 64) (hfits : ¬ t.Refused ua n.toNat) :
    lmStringAppendReads t.store t.string buf n = ⟨buf, n.toNat⟩ := by
  rw [lmStringAppendReads]
  rcases lmStringMakeSpace_cases h.isString h.cur_le (Nat.le_of_lt h.cap_lt_cur) hwrap with
    ⟨hfull, _⟩ | ⟨st₁, cap₁, hsome, _⟩
  · exact absurd hfull hfits
  · rw [hsome]

/-- A call that is refused is safe. -/
theorem appendsText_of_refused (h : t.Sound ua) (hbuf : t.ApartFrom ua buf)
    (hlen : expansion.length < 2 ^ 31) (hfull : t.Refused ua expansion.length) :
    AppendsText t ua buf expansion lmStringAppendFmt := by
  have hword : (UInt64.ofNat expansion.length).toNat = expansion.length :=
    toNat_ofNat_of_lt (by omega)
  have hcur := UInt64.le_iff_toNat_le.mp h.cur_le
  have hcap := h.cap_lt
  have ht := sound_vsnprintf h hbuf expansion
  have hwrap : (t.store.arenas ua).cur.toNat + (UInt64.ofNat expansion.length).toNat < 2 ^ 64 := by
    rw [hword]
    omega
  have hspace : lmStringMakeSpace (t.store.vsnprintf buf expansion) t.string
      (UInt64.ofNat expansion.length) = (none, t.store.vsnprintf buf expansion) := by
    rcases lmStringMakeSpace_cases ht.isString ht.cur_le (Nat.le_of_lt ht.cap_lt_cur) hwrap with
      ⟨_, hnone⟩ | ⟨_, _, _, hroom⟩
    · exact hnone
    · refine absurd ?_ hroom.not_full
      rw [hword]
      exact (refused_vsnprintf h hbuf _).mpr hfull
  have hcall : lmStringAppendFmt t.store t.string buf expansion =
      some (none, t.store.vsnprintf buf expansion) := by
    change lmStringAppendOf (t.store.vsnprintf buf expansion) t.string buf _ = _
    rw [lmStringAppendOf, hspace]
  refine ⟨⟨_, hcall⟩, ?_, ?_, ?_⟩
  · intro st' hst'
    rw [hcall] at hst'
    cases hst'
    exact ⟨rfl, fun a ha => vsnprintf_of_outside ha⟩
  · intro s' st' hst'
    rw [hcall] at hst'
    cases hst'
  · rw [lmStringAppendReads, hspace]
    exact Nat.add_le_add_left (Nat.zero_le _) buf

/-- A call that is not refused appends what is in the buffer. -/
theorem extended_appendFmt (h : t.Sound ua) (hbuf : t.ApartFrom ua buf)
    (hlen : expansion.length ≤ 1024) (hfits : ¬ t.Refused ua expansion.length) :
    ∃ st', lmStringAppendFmt t.store t.string buf expansion = some (some t.string, st') ∧
      Text.Sound ua ⟨st', t.string, t.ref ++
        (t.store.vsnprintf buf expansion).memory.read buf expansion.length⟩ := by
  have hword : (UInt64.ofNat expansion.length).toNat = expansion.length :=
    toNat_ofNat_of_lt (by omega)
  have hcur := UInt64.le_iff_toNat_le.mp h.cur_le
  have hcap := h.cap_lt
  have ht := sound_vsnprintf h hbuf expansion
  have hfits' := fun hfull => hfits ((refused_vsnprintf h hbuf expansion).mp hfull)
  have hcases := @lmStringAppendOf_cases (t.store.vsnprintf buf expansion) ua t.string _ t.ref
    (UInt64.ofNat expansion.length) buf ht.isString ht.cur_le (Nat.le_of_lt ht.cap_lt_cur)
  rw [hword] at hcases
  have hwrap : (t.store.arenas ua).cur.toNat + expansion.length < 2 ^ 64 := by omega
  rcases hcases hwrap fun _ => apart_of_not_refused h hbuf hlen hfits with
    ⟨hfull, _⟩ | ⟨st', cap', hsome, hext⟩
  · exact absurd hfull hfits'
  · have hsound := sound_of_extended ht hext
    rw [List.take_length] at hsound
    exact ⟨st', hsome, hsound⟩

/-- A call that is not refused needs a text of which the buffer holds everything. -/
theorem appendsText_iff_of_not_refused (h : t.Sound ua) (hbuf : t.ApartFrom ua buf)
    (hlen : expansion.length < 2 ^ 31) (hfits : ¬ t.Refused ua expansion.length) :
    AppendsText t ua buf expansion lmStringAppendFmt ↔
      expansion.length ≤ 1024 ∧ ∀ b ∈ expansion.drop 1022, b = 0 := by
  have hword : (UInt64.ofNat expansion.length).toNat = expansion.length :=
    toNat_ofNat_of_lt (by omega)
  have hcur := UInt64.le_iff_toNat_le.mp h.cur_le
  have hcap := h.cap_lt
  have hreads := @reads_of_not_refused ua buf _ (sound_vsnprintf h hbuf expansion)
    (UInt64.ofNat expansion.length)
  rw [hword] at hreads
  have hwrap : (t.store.arenas ua).cur.toNat + expansion.length < 2 ^ 64 := by omega
  replace hreads := hreads hwrap fun hfull => hfits ((refused_vsnprintf h hbuf _).mp hfull)
  constructor
  · intro hsafe
    have hin := hsafe.inBuffer
    rw [hreads, Span.stop] at hin
    have hshort : expansion.length ≤ 1024 := Nat.le_of_add_le_add_left hin
    obtain ⟨st', hcall, hsound⟩ := extended_appendFmt h hbuf hshort hfits
    have hwhole := (hsafe.contents _ _ hcall).2.isString.bytes_eq
    have hstored := hsound.isString.bytes_eq
    rw [List.length_append, Memory.length_read, ← List.length_append] at hstored
    have hbuffer : (t.store.vsnprintf buf expansion).memory.read buf expansion.length = expansion :=
      List.append_cancel_left (hstored.symm.trans hwhole)
    exact ⟨hshort, (read_vsnprintf_eq_iff hshort).mp hbuffer⟩
  · rintro ⟨hshort, hzero⟩
    obtain ⟨st', hcall, hsound⟩ := extended_appendFmt h hbuf hshort hfits
    rw [(read_vsnprintf_eq_iff hshort).mpr hzero] at hsound
    refine ⟨⟨_, hcall⟩, ?_, ?_, ?_⟩
    · intro st'' hst''
      rw [hcall] at hst''
      cases hst''
    · intro s' st'' hst''
      rw [hcall] at hst''
      cases hst''
      exact ⟨rfl, hsound.toRepresents⟩
    · rw [hreads]
      exact Nat.add_le_add_left hshort buf

/-- What fits into the buffer, or is refused. -/
theorem lmStringAppendFmt_safe_iff (h : t.Sound ua) (hbuf : t.ApartFrom ua buf)
    (hlen : expansion.length < 2 ^ 31) :
    AppendsText t ua buf expansion lmStringAppendFmt ↔
      t.Refused ua expansion.length ∨
        (expansion.length ≤ 1024 ∧ ∀ b ∈ expansion.drop 1022, b = 0) := by
  by_cases hfull : t.Refused ua expansion.length
  · exact iff_of_true (appendsText_of_refused h hbuf hlen hfull) (Or.inl hfull)
  · rw [appendsText_iff_of_not_refused h hbuf hlen hfull]
    exact (or_iff_right hfull).symm

/-- **Formatted appends are complete if and only if they are refused or the text fits
    into 1022 bytes**, but for zero bytes behind it that the buffer has anyway. -/
theorem appendFmt_complete_iff (h : t.Sound ua) (hbuf : t.ApartFrom ua buf)
    (hlen : expansion.length < 2 ^ 31) :
    (AppendsText t ua buf expansion lmStringAppendFmt ↔
        t.Refused ua expansion.length ∨
          (expansion.length ≤ 1024 ∧ ∀ b ∈ expansion.drop 1022, b = 0)) ∧
      (AppendsText t ua buf expansion sdbStringAppendFmt ↔
        t.Refused ua expansion.length ∨
          (expansion.length ≤ 1024 ∧ ∀ b ∈ expansion.drop 1022, b = 0)) :=
  ⟨lmStringAppendFmt_safe_iff h hbuf hlen, lmStringAppendFmt_safe_iff h hbuf hlen⟩

end Append

/-- The arena of `thirty` with four kilobytes, and an empty string in it. -/
def fourKilobytes : Store :=
  { thirty with arenas := fun _ => uaInit false false false 4096 1000 }

def emptyText : Text :=
  ⟨((lmStringMake fourKilobytes none 64).getD (none, fourKilobytes)).2, 1024, []⟩

theorem emptyText_sound : emptyText.Sound 64 := by
  have hmake : lmStringMake fourKilobytes none 64 = some (some 1024, emptyText.store) := by rfl
  rcases @lmStringMake_sound fourKilobytes 64 (by decide) (by decide) (by decide) none [] rfl with
    hnone | ⟨s, st₁, hsome, hsound⟩
  · rw [hmake] at hnone
    cases hnone
  · rw [hmake] at hsome
    cases hsome
    exact hsound

/-- The bytes of `1.5`. -/
def oneAndAHalf : List UInt8 := [49, 46, 53]

theorem appendFmt_complete_iff_empty :
    (AppendsText emptyText 64 9000 oneAndAHalf lmStringAppendFmt ↔
        emptyText.Refused 64 3 ∨ (3 ≤ 1024 ∧ ∀ b ∈ oneAndAHalf.drop 1022, b = 0)) ∧
      (AppendsText emptyText 64 9000 oneAndAHalf sdbStringAppendFmt ↔
        emptyText.Refused 64 3 ∨ (3 ≤ 1024 ∧ ∀ b ∈ oneAndAHalf.drop 1022, b = 0)) :=
  @appendFmt_complete_iff 64 9000 emptyText oneAndAHalf emptyText_sound (Or.inr (by decide))
    (by decide)

/-- A text of 1023 bytes, all `A`, loses its last byte. -/
theorem appendFmt_truncates :
    ¬ AppendsText emptyText 64 9000 (List.replicate 1023 65) lmStringAppendFmt ∧
      ¬ AppendsText emptyText 64 9000 (List.replicate 1023 65) sdbStringAppendFmt := by
  have hlen : (List.replicate 1023 (65 : UInt8)).length = 1023 := List.length_replicate
  have hfits : ¬ emptyText.Refused 64 1023 := by
    rintro ⟨_, hfull⟩
    exact absurd hfull (by decide)
  have hnot : ¬ AppendsText emptyText 64 9000 (List.replicate 1023 65) lmStringAppendFmt := by
    intro hsafe
    have hcond := (@lmStringAppendFmt_safe_iff 64 9000 emptyText (List.replicate 1023 65)
      emptyText_sound (Or.inr (by decide)) (by rw [hlen]; decide)).mp hsafe
    rw [hlen] at hcond
    rcases hcond with hfull | ⟨_, hzero⟩
    · exact hfits hfull
    · refine absurd (hzero 65 ?_) (by decide)
      rw [List.drop_replicate]
      exact List.mem_replicate.mpr ⟨by decide, rfl⟩
  exact ⟨hnot, hnot⟩

end Lmalloc.Strings
