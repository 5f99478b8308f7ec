/-
  Lmalloc/Strings/Reference.lean
  ==============================
  **A growing string and the list of bytes it stands for.**

  `Text` is a string that is the last thing allocated in its arena, next to the
  list that its bytes should be.  The capacity of the string and the cursor of the
  arena are kept in different places and move together: the cursor is always one
  byte, the `NUL`, past the capacity.  That relation is what makes the bytes
  reserved at the end of the arena the bytes behind the string.
-/
import Lmalloc.Library.Run
import Lmalloc.Strings.Operations

namespace Lmalloc.Strings

open Lmalloc.Library Lmalloc.Library.Word Lmalloc.Arena

structure Text where
  store : Store
  string : ℕ
  ref : List UInt8

inductive TextOp where
  | grow (g : Growth)
  | clear                     -- `lm_string_clear`
  | backspace (n : UInt64)    -- `lm_string_backspace`
  | elsewhere (st : Store)    -- the rest of the program leaves this store

/-! ### One operation -/

/-- What the function returns, and the store it leaves. -/
def Text.call (t : Text) : TextOp → Option (Option Addr × Store)
  | .grow g => g.call t.store t.string
  | .clear => some (some t.string, lmStringClear t.store t.string)
  | .backspace n => some (some t.string, lmStringBackspace t.store t.string n)
  | .elsewhere st => some (some t.string, st)

/-- The operation on lists of bytes. -/
def Text.spec (t : Text) : TextOp → List UInt8
  | .grow (.append other) => t.ref ++ lmBytes t.store.memory other
  | .grow (.appendC other) => t.ref ++ cBytes t.store.memory other
  | .grow (.appendOf other n) => t.ref ++ t.store.memory.read other n.toNat
  | .grow (.set cString) => cBytes t.store.memory cString
  | .clear => []
  | .backspace n => t.ref.take (t.ref.length - n.toNat)
  | .elsewhere _ => t.ref

/-- A null pointer leaves the list as it is. -/
def Text.after (t : Text) (op : TextOp) : Option Addr × Store → Text
  | (some string, st) => { store := st, string := string, ref := t.spec op }
  | (none, st) => { t with store := st }

def Text.step (t : Text) (op : TextOp) : Option Text := (t.call op).map (t.after op)

/-- What the caller promises. -/
def Text.Legal (t : Text) : TextOp → Prop
  | .grow g => g.Legal t.store.memory t.string t.ref.length
  | .clear => True
  | .backspace n => n.toNat ≤ t.ref.length
  | .elsewhere st =>
      st.arenas (lmStringUa t.store.memory t.string) =
          t.store.arenas (lmStringUa t.store.memory t.string) ∧
        ∀ a : ℕ, t.string - headerSize ≤ a →
          a ≤ t.string + (lmStringCap t.store.memory t.string).toNat →
          st.memory a = t.store.memory a

instance (t : Text) : DecidablePred t.Legal
  | .grow g => inferInstanceAs (Decidable (g.Legal t.store.memory t.string t.ref.length))
  | .clear => isTrue trivial
  | .backspace n => inferInstanceAs (Decidable (n.toNat ≤ t.ref.length))
  | .elsewhere st =>
      decidable_of_iff
        (st.arenas (lmStringUa t.store.memory t.string) =
            t.store.arenas (lmStringUa t.store.memory t.string) ∧
          ∀ a ≤ t.string + (lmStringCap t.store.memory t.string).toNat,
            t.string - headerSize ≤ a → st.memory a = t.store.memory a)
        (and_congr_right' ⟨fun h a hlo hhi => h a hhi hlo, fun h a hhi hlo => h a hlo hhi⟩)

/-- If the operation returns the null pointer, nothing has changed. -/
def Text.NullChangesNothing (t : Text) (op : TextOp) : Prop :=
  ∀ st', t.call op = some (none, st') → st' = t.store

/-- The string holds the list, and the cursor of its arena is at the string's start
    plus its capacity plus one. -/
structure Text.Represents (ua : ℕ) (t : Text) : Prop where
  isString : IsString t.store.memory ua t.string (lmStringCap t.store.memory t.string).toNat t.ref
  top_eq : (t.store.arenas ua).top =
    t.string + (lmStringCap t.store.memory t.string).toNat + 1

/-! ### The invariant -/

structure Text.Sound (ua : ℕ) (t : Text) : Prop extends t.Represents ua where
  cap_lt_cur : (lmStringCap t.store.memory t.string).toNat < (t.store.arenas ua).cur.toNat
  cur_le : (t.store.arenas ua).cur ≤ (t.store.arenas ua).cap
  cap_lt : (t.store.arenas ua).cap.toNat < 2 ^ 63

section Sound

variable {ua : ℕ} {t : Text}

theorem sound_of_extended {st' : Store} {cap' k : ℕ} {src : List UInt8} (h : t.Sound ua)
    (hext : Extended t.store ua t.string (lmStringCap t.store.memory t.string).toNat t.ref k src
      st' cap') :
    Text.Sound ua { t with store := st', ref := t.ref.take k ++ src } := by
  have hcap := hext.isString.cap_eq
  have harena := (mem_and_cap_of_update hext.arenas).2
  have htop := hext.top_eq
  have hcur := hext.cur_eq
  have hold := h.top_eq
  have hbelow := h.cap_lt_cur
  refine ⟨⟨hcap.symm ▸ hext.isString, ?_⟩, ?_, ?_, ?_⟩
  · rw [hcap]
    simp only
    omega
  · rw [hcap]
    simp only
    omega
  · rw [harena]
    exact hext.cur_le
  · rw [harena]
    exact h.cap_lt

theorem sound_of_cut (h : t.Sound ua) {k : ℕ} (hk : k ≤ t.ref.length) :
    Text.Sound ua { t with
      store := { t.store with memory := put t.store.memory t.string k [] }
      ref := t.ref.take k } := by
  have hcut := h.isString.cut hk
  have hcap := hcut.cap_eq
  refine ⟨⟨hcap.symm ▸ hcut, ?_⟩, ?_, h.cur_le, h.cap_lt⟩
  · rw [hcap]
    exact h.top_eq
  · rw [hcap]
    exact h.cap_lt_cur

theorem sound_elsewhere (h : t.Sound ua) {st : Store} (hst : t.Legal (.elsewhere st)) :
    Text.Sound ua { t with store := st } := by
  obtain ⟨harenas, hsame⟩ := hst
  rw [h.isString.ua_eq] at harenas
  have hlen := h.isString.len_le
  have hstring := h.isString.congr fun a hlo hhi => hsame a hlo (by omega)
  have hcap := hstring.cap_eq
  refine ⟨⟨hcap.symm ▸ hstring, ?_⟩, ?_, ?_, ?_⟩
  · rw [harenas, hcap]
    exact h.top_eq
  · rw [harenas, hcap]
    exact h.cap_lt_cur
  · rw [harenas]
    exact h.cur_le
  · rw [harenas]
    exact h.cap_lt

/-- What one operation does to a sound text. -/
structure Text.Serves (t : Text) (ua : ℕ) (op : TextOp) (r : Option Addr × Store) : Prop where
  call_eq : t.call op = some r
  sound : (t.after op r).Sound ua
  null : r.1 = none → r.2 = t.store

theorem spec_grow (t : Text) (g : Growth) :
    t.spec (.grow g) = t.ref.take (g.start t.ref.length) ++ g.src t.store.memory := by
  cases g with
  | set _ => rfl
  | append _ | appendC _ | appendOf _ _ =>
    rw [Growth.start, List.take_length]
    · rfl
    · intro _ h
      cases h

/-- **Every legal operation does what it does to the list.** -/
theorem serves_of_legal (h : t.Sound ua) {op : TextOp} (hop : t.Legal op) :
    ∃ r, t.Serves ua op r := by
  cases op with
  | grow g =>
    have hcur := UInt64.le_iff_toNat_le.mp h.cur_le
    have hcap := h.cap_lt
    have hsrc := Growth.Legal.length_src_lt hop
    rcases Growth.call_cases h.isString h.cur_le (Nat.le_of_lt h.cap_lt_cur) (by omega) hop with
      ⟨_, hnone⟩ | ⟨st', cap', hsome, hext⟩
    · exact ⟨_, hnone, h, fun _ => rfl⟩
    · refine ⟨_, hsome, ?_, fun hnull => nomatch hnull⟩
      simp only [Text.after, spec_grow]
      exact sound_of_extended h hext
  | clear =>
    refine ⟨_, rfl, ?_, fun hnull => nomatch hnull⟩
    have hcut := sound_of_cut h (Nat.zero_le _)
    rw [List.take_zero] at hcut
    simp only [Text.after, lmStringClear_eq]
    exact hcut
  | backspace n =>
    refine ⟨_, rfl, ?_, fun hnull => nomatch hnull⟩
    simp only [Text.after, lmStringBackspace_eq h.isString hop]
    exact sound_of_cut h (Nat.sub_le _ _)
  | elsewhere st => exact ⟨_, rfl, sound_elsewhere h hop, fun hnull => nomatch hnull⟩

/-- A string may be appended to itself. -/
theorem legal_append_self (h : t.Sound ua) : t.Legal (.grow (.append t.string)) := by
  have hlen := h.isString.len_eq
  have hle := h.isString.len_le
  have hbelow := h.cap_lt_cur
  have hcur := UInt64.le_iff_toNat_le.mp h.cur_le
  have hcap := h.cap_lt
  constructor
  · omega
  · rw [hlen]
    exact Or.inr (Or.inr ⟨Nat.le_refl _, Or.inr (Nat.le_refl _)⟩)

theorem sound_step (h : t.Sound ua) {op : TextOp} (hop : t.Legal op) :
    ∃ t', t.step op = some t' ∧ t'.Sound ua := by
  obtain ⟨r, hr⟩ := serves_of_legal h hop
  refine ⟨t.after op r, ?_, hr.sound⟩
  rw [Text.step, hr.call_eq, Option.map_some]

theorem nullChangesNothing_of_sound (h : t.Sound ua) {op : TextOp} (hop : t.Legal op) :
    t.NullChangesNothing op := by
  obtain ⟨r, hr⟩ := serves_of_legal h hop
  intro st' hst'
  rw [hr.call_eq] at hst'
  cases hst'
  exact hr.null rfl

end Sound

/-! ### Whole runs -/

/-- The bytes that a C string, or a null pointer, gives to a new string.  The C
    string is not in the memory that the new string is about to take. -/
def Initial (st : Store) (ua : ℕ) : Option Addr → List UInt8 → Prop
  | none, bytes => bytes = []
  | some p, bytes => ∃ n, st.memory.strlen p = some n ∧ bytes = st.memory.read p n ∧
      (n = 0 ∨ p + n ≤ (st.arenas ua).top ∨ (st.arenas ua).top + (headerSize + n + 1) ≤ p)

section Make

variable {st : Store} {ua : ℕ}

theorem sound_of_madeAt {s : ℕ} {bytes : List UInt8} {st' : Store}
    (h : MadeAt st ua s bytes st') (hcap : (st.arenas ua).cap.toNat < 2 ^ 63) :
    Text.Sound ua ⟨st', s, bytes⟩ := by
  have hstringCap := h.isString.cap_eq
  have harena := (mem_and_cap_of_update h.arenas).2
  have hcur := h.cur_eq
  refine ⟨⟨hstringCap.symm ▸ h.isString, ?_⟩, ?_, ?_, ?_⟩
  · simp only
    rw [h.top_eq, hstringCap, h.start_eq]
    omega
  · rw [hstringCap]
    simp only
    omega
  · rw [harena]
    exact h.cur_le
  · rw [harena]
    exact hcap

theorem lmStringMake_cases (hua : ua < 2 ^ 64) {init : Option Addr} {bytes : List UInt8}
    (hwrap : (st.arenas ua).cur.toNat + (headerSize + bytes.length + 1) < 2 ^ 64)
    (hinit : Initial st ua init bytes) :
    lmStringMake st init ua = some (none, st) ∨
      ∃ (s : ℕ) (st₁ : Store), lmStringMake st init ua = some (some s, st₁) ∧ MadeAt st ua s bytes st₁ := by
  cases init with
  | none =>
    have hmake : lmStringMake st none ua = lmStringMakeOf st none 0 ua := rfl
    have hsource : ∀ q : ℕ, (none : Option Addr) = some q → (0 : UInt64).toNat = 0 ∨
        q + (0 : UInt64).toNat ≤ (st.arenas ua).top ∨
        (st.arenas ua).top + (headerSize + (0 : UInt64).toNat + 1) ≤ q := by
      intro q hq
      cases hq
    cases hinit
    rw [hmake]
    rcases lmStringMakeOf_cases hua hwrap hsource with ⟨_, hnone⟩ | ⟨s, st₁, hsome, hmade⟩
    · exact Or.inl hnone
    · exact Or.inr ⟨s, st₁, hsome, hmade⟩
  | some p =>
    obtain ⟨n, hn, rfl, hapart⟩ := hinit
    have hlt : n < 2 ^ 57 := Memory.strlen_lt hn
    have hword : (UInt64.ofNat n).toNat = n := toNat_ofNat_of_lt (by omega)
    have hmake : lmStringMake st (some p) ua = lmStringMakeOf st (some p) (UInt64.ofNat n) ua := by
      rw [lmStringMake, hn, Option.bind_some]
    have hsource : ∀ q : ℕ, some p = some q → (UInt64.ofNat n).toNat = 0 ∨
        q + (UInt64.ofNat n).toNat ≤ (st.arenas ua).top ∨
        (st.arenas ua).top + (headerSize + (UInt64.ofNat n).toNat + 1) ≤ q := by
      rintro _ ⟨⟩
      rw [hword]
      exact hapart
    rw [Memory.length_read, ← hword] at hwrap
    rw [hmake]
    rcases lmStringMakeOf_cases hua hwrap hsource with ⟨_, hnone⟩ | ⟨s, st₁, hsome, hmade⟩
    · exact Or.inl hnone
    · rw [hword] at hmade
      exact Or.inr ⟨s, st₁, hsome, hmade⟩

theorem Initial.length_lt {init : Option Addr} {bytes : List UInt8}
    (h : Initial st ua init bytes) : bytes.length < 2 ^ 57 := by
  cases init with
  | none =>
    cases h
    exact Nat.two_pow_pos 57
  | some p =>
    obtain ⟨n, hn, rfl, _⟩ := h
    rw [Memory.length_read]
    exact Memory.strlen_lt hn

/-- A string that `lm_string_make` returns is sound; a null pointer changes nothing. -/
theorem lmStringMake_sound (hua : ua < 2 ^ 64)
    (hcur : (st.arenas ua).cur ≤ (st.arenas ua).cap) (hcap : (st.arenas ua).cap.toNat < 2 ^ 63)
    {init : Option Addr} {bytes : List UInt8} (hinit : Initial st ua init bytes) :
    lmStringMake st init ua = some (none, st) ∨
      ∃ (s : ℕ) (st₁ : Store), lmStringMake st init ua = some (some s, st₁) ∧ Text.Sound ua ⟨st₁, s, bytes⟩ := by
  have hcurNat := UInt64.le_iff_toNat_le.mp hcur
  have hlength := hinit.length_lt
  have hwrap : (st.arenas ua).cur.toNat + (headerSize + bytes.length + 1) < 2 ^ 64 := by
    simp only [headerSize]
    omega
  rcases lmStringMake_cases hua hwrap hinit with hnone | ⟨s, st₁, hsome, hmade⟩
  · exact Or.inl hnone
  · exact Or.inr ⟨s, st₁, hsome, sound_of_madeAt hmade hcap⟩

end Make

/-- An arena of thirty bytes at address 64, its memory at 1000, and `ab` at 10. -/
def thirty : Store :=
  { arenas := fun _ => uaInit false false false 30 1000
    memory := fun a => if a = 10 then 97 else if a = 11 then 98 else 0 }

/-- What `lm_string_make` of `ab` leaves there. -/
def thirtyMade : Store := ((lmStringMake thirty (some 10) 64).getD (none, thirty)).2

example : (run Text.step ⟨thirtyMade, 1024, [97, 98]⟩ [.grow (.append 1024), .grow (.appendC 10)]).map Text.ref =
    some [97, 98, 97, 98] := by decide

end Lmalloc.Strings
