/-
  Lmalloc/Strings/Neighbours.lean
  ===============================
  **Strings that share an arena.**

  `Shared` is an arena with everything that has been allocated on it and is still
  in use.  A string that grows takes bytes from the end of the arena and writes at
  its own end.  The two are the same place only for the last allocation; any other
  string writes over whatever was allocated behind it.
-/
import Lmalloc.Library.Table
import Lmalloc.Arena.UArenaBlocks
import Lmalloc.Strings.Reference

namespace Lmalloc.Strings

open Lmalloc.Library Lmalloc.Library.Word Lmalloc.Arena

/-! ### What is allocated -/

inductive Alloc where
  | raw (block : Span)
  | string (s room : ℕ)    -- the string at `s` has `room` bytes before its `NUL`
deriving DecidableEq, Repr

/-- The bytes of an allocation; a string has its header and its `NUL`. -/
def Alloc.span : Alloc → Span
  | .raw block => block
  | .string s room => ⟨s - headerSize, headerSize + room + 1⟩

def Alloc.isString : Alloc → Bool
  | .raw _ => false
  | .string _ _ => true

structure Shared where
  self : ℕ             -- where the `UArena` is
  store : Store
  live : List Alloc

inductive SharedOp where
  | call (c : Call)                 -- `ua_alloc`, `ua_zalloc` or `ua_reserve`
  | make (init : Option ℕ)          -- `lm_string_make`
  | dup (other : ℕ)                 -- `lm_string_dup`
  | grow (i : ℕ) (g : Growth)       -- on the live allocation number `i`
  | appendFmt (i buf : ℕ) (expansion : List UInt8)
  | clear (i : ℕ)
  | backspace (i : ℕ) (n : UInt64)
  | elsewhere (st : Store)          -- the rest of the program leaves this store

namespace Shared

abbrev arena (x : Shared) : UArena := x.store.arenas x.self

abbrev memory (x : Shared) : Memory := x.store.memory

/-- The address of the string that is live allocation number `i`, and its room. -/
def stringAt (x : Shared) (i : ℕ) : Option (ℕ × ℕ) :=
  match x.live[i]? with
  | some (.string s room) => some (s, room)
  | _ => none

/-! ### One step -/

def allocate (x : Shared) (r : Option Addr × Store) (n : ℕ) : Shared :=
  match r with
  | (some s, st) => { x with store := st, live := x.live ++ [.string s n] }
  | (none, st) => { x with store := st }

/-- How many bytes the C string has. -/
def initLength (x : Shared) : Option ℕ → ℕ
  | some p => (cBytes x.memory p).length
  | none => 0

/-- How many bytes before its `NUL` a string has after a call.  The last
    allocation has all up to the cursor; any other has the bytes it has used. -/
def roomAfter (x : Shared) (s room : ℕ) (st : Store) : ℕ :=
  if s + room + 1 = x.arena.top then (st.arenas x.self).top - (s + 1)
  else max room (lmStringLen st.memory s).toNat

def regrow (x : Shared) (i s room : ℕ) (r : Option Addr × Store) : Shared :=
  match r with
  | (some _, st) =>
      { x with store := st, live := x.live.set i (.string s (x.roomAfter s room st)) }
  | (none, st) => { x with store := st }

def step (x : Shared) : SharedOp → Option Shared
  | .call c =>
      let r := Heap.call ⟨x.arena, x.memory⟩ c
      some { x with
        store := { arenas := Function.update x.store.arenas x.self r.2.ua, memory := r.2.memory }
        live := x.live ++ r.1.toList.map .raw }
  | .make init =>
      (lmStringMake x.store init x.self).map fun r => x.allocate r (x.initLength init)
  | .dup other =>
      (lmStringDup x.store other x.self).map fun r =>
        x.allocate r (lmStringLen x.memory other).toNat
  | .grow i g => (x.stringAt i).bind fun (s, room) =>
      (g.call x.store s).map fun r => x.regrow i s room r
  | .appendFmt i buf expansion => (x.stringAt i).bind fun (s, room) =>
      (lmStringAppendFmt x.store s buf expansion).map fun r => x.regrow i s room r
  | .clear i => (x.stringAt i).map fun (s, _) => { x with store := lmStringClear x.store s }
  | .backspace i n =>
      (x.stringAt i).map fun (s, _) => { x with store := lmStringBackspace x.store s n }
  | .elsewhere st => some { x with store := st }

/-! ### What is promised, and when it is kept -/

/-- `P` holds of the string that is live allocation number `i`. -/
def OnString (x : Shared) (i : ℕ) (P : ℕ → ℕ → Prop) : Prop :=
  ∀ s room, x.stringAt i = some (s, room) → P s room

instance (x : Shared) (i : ℕ) (P : ℕ → ℕ → Prop) [∀ s room, Decidable (P s room)] :
    Decidable (x.OnString i P) :=
  match h : x.stringAt i with
  | none => isTrue fun s room hs => by simp [h] at hs
  | some (s, room) => decidable_of_iff (P s room) (by simp [OnString, h])

/-- The call returns the null pointer and changes nothing but its own buffer, or it
    returns the string with these contents; no other allocation changes. -/
structure Unharmed (x : Shared) (i s : ℕ) (out : Option (Option Addr × Store))
    (contents : List UInt8) (buffer : Span) : Prop where
  defined : ∃ r, out = some r
  null : ∀ st', out = some (none, st') → st'.arenas = x.store.arenas ∧
    ∀ a : ℕ, a ∉ buffer.cells → st'.memory a = x.memory a
  contents : ∀ s' st', out = some (some s', st') →
    s' = s ∧ ∃ cap, IsString st'.memory x.self s cap contents
  others : ∀ r st', out = some (r, st') → ∀ (j : ℕ) (b : Alloc), j ≠ i → x.live[j]? = some b →
    ∀ a ∈ b.span.cells, st'.memory a = x.memory a

def CallSafe (x : Shared) : SharedOp → Prop
  | .grow i g => x.OnString i fun s _ =>
      x.Unharmed i s (g.call x.store s)
        (Text.spec ⟨x.store, s, lmBytes x.memory s⟩ (.grow g)) ⟨0, 0⟩
  | .appendFmt i buf expansion => x.OnString i fun s _ =>
      x.Unharmed i s (lmStringAppendFmt x.store s buf expansion)
        (lmBytes x.memory s ++ expansion) ⟨buf, 1024⟩
  | _ => True

/-- What the callers promise. -/
def Legal (x : Shared) : SharedOp → Prop
  | .make init => ∃ bytes, Initial x.store x.self init bytes
  | .dup other =>
      (lmStringLen x.memory other).toNat = 0 ∨
        other + (lmStringLen x.memory other).toNat ≤ x.arena.top ∨
        x.arena.top + (headerSize + (lmStringLen x.memory other).toNat + 1) ≤ other
  | .grow i g => x.OnString i fun s _ => g.Legal x.memory s (lmStringLen x.memory s).toNat
  | .appendFmt _ buf expansion =>
      expansion.length < 1023 ∧ (buf + 1024 ≤ x.arena.area.start ∨ x.arena.area.stop ≤ buf)
  | .backspace i n => x.OnString i fun s _ => n.toNat ≤ (lmStringLen x.memory s).toNat
  | .elsewhere st =>
      st.arenas x.self = x.arena ∧ ∀ b ∈ x.live, b.isString →
        ∀ a : ℕ, a < b.span.stop → b.span.start ≤ a → st.memory a = x.memory a
  | .call _ | .clear _ => True

/-- The sum in the capacity test of the call fits into a `size_t`. -/
def NoWrap (x : Shared) : SharedOp → Prop
  | .call c => Arena.NoWrap ⟨x.arena, x.memory⟩ c
  | .make init => x.arena.cur.toNat + (headerSize + x.initLength init + 1) < 2 ^ 64
  | .dup other =>
      x.arena.cur.toNat + (headerSize + (lmStringLen x.memory other).toNat + 1) < 2 ^ 64
  | .grow _ g => x.arena.cur.toNat + (g.src x.memory).length < 2 ^ 64
  | .appendFmt _ _ expansion => x.arena.cur.toNat + expansion.length < 2 ^ 64
  | _ => True

instance (st : Store) (ua : ℕ) (init : Option ℕ) :
    Decidable (∃ bytes, Initial st ua init bytes) :=
  match init with
  | none => isTrue ⟨[], rfl⟩
  | some p =>
      decidable_of_iff (∃ n ∈ st.memory.strlen p, n = 0 ∨ p + n ≤ (st.arenas ua).top ∨
        (st.arenas ua).top + (headerSize + n + 1) ≤ p)
        ⟨fun ⟨n, hn, h⟩ => ⟨_, n, hn, rfl, h⟩, fun ⟨_, n, hn, _, h⟩ => ⟨n, hn, h⟩⟩

instance (x : Shared) : DecidablePred x.Legal
  | .make init => inferInstanceAs (Decidable (∃ bytes, Initial x.store x.self init bytes))
  | .grow i g => inferInstanceAs (Decidable (x.OnString i fun s _ =>
      g.Legal x.memory s (lmStringLen x.memory s).toNat))
  | .dup _ | .appendFmt _ _ _ | .backspace _ _ | .elsewhere _ => by unfold Legal; infer_instance
  | .call _ | .clear _ => isTrue trivial

instance (x : Shared) : DecidablePred x.NoWrap
  | .call _ | .make _ | .dup _ | .grow _ _ | .appendFmt _ _ _ => by unfold NoWrap; infer_instance
  | .clear _ | .backspace _ _ | .elsewhere _ => isTrue trivial

/-- The arena refuses the bytes, or the string with `n` bytes from byte `k` on still
    ends before the next allocation behind it. -/
def RoomFor (x : Shared) (s k n : ℕ) : Prop :=
  Full x.arena (lmStringCap x.memory s).toNat (lmStringLen x.memory s).toNat n ∨
    ∀ b ∈ x.live, s < b.span.start → 0 < b.span.size → s + (k + n) < b.span.start

def Harmless (x : Shared) : SharedOp → Prop
  | .grow i g => x.OnString i fun s _ =>
      x.RoomFor s (g.start (lmStringLen x.memory s).toNat) (g.src x.memory).length
  | .appendFmt i _ expansion => x.OnString i fun s _ =>
      x.RoomFor s (lmStringLen x.memory s).toNat expansion.length
  | _ => True

instance (x : Shared) (s k n : ℕ) : Decidable (x.RoomFor s k n) := by
  unfold RoomFor Full
  infer_instance

instance (x : Shared) : DecidablePred x.Harmless
  | .grow _ _ | .appendFmt _ _ _ => by unfold Harmless; infer_instance
  | .call _ | .make _ | .dup _ | .clear _ | .backspace _ _ | .elsewhere _ => isTrue trivial

/-! ### The invariant -/

/-- A string of at most `room` bytes stands at `s`, and its capacity is below the
    cursor. -/
def Stands (st : Store) (ua s room : ℕ) : Prop :=
  ∃ cap bytes, IsString st.memory ua s cap bytes ∧ bytes.length ≤ room ∧
    s + cap + 1 ≤ (st.arenas ua).top

structure Sound (x : Shared) : Prop where
  self_lt : x.self < 2 ^ 64
  cur_le : x.arena.cur ≤ x.arena.cap
  above : ∀ b ∈ x.live, x.arena.area.start ≤ b.span.start
  below : ∀ b ∈ x.live, b.span.stop ≤ x.arena.top
  apart : ∀ (i j : ℕ) (b c : Alloc), i ≠ j → x.live[i]? = some b → x.live[j]? = some c →
    Disjoint b.span.cells c.span.cells
  strings : ∀ s room, .string s room ∈ x.live → Stands x.store x.self s room

theorem Stands.congr {st st' : Store} {ua s room : ℕ} (h : Stands st ua s room)
    (hmem : ∀ a ∈ (Alloc.string s room).span.cells, st'.memory a = st.memory a)
    (htop : (st.arenas ua).top ≤ (st'.arenas ua).top) : Stands st' ua s room := by
  obtain ⟨cap, bytes, hstring, hroom, hbelow⟩ := h
  have hs : headerSize ≤ s := hstring.header_le
  refine ⟨cap, bytes, hstring.congr ?_, hroom, Nat.le_trans hbelow htop⟩
  intro a hlo hhi
  refine hmem a ⟨hlo, ?_⟩
  simp only [Alloc.span, Span.stop]
  omega

section Sound

variable {x : Shared}

/-- A new allocation between the old and the new cursor. -/
theorem Sound.push (h : x.Sound) {st : Store} {b : Alloc}
    (harea : (st.arenas x.self).area = x.arena.area)
    (hcur : (st.arenas x.self).cur ≤ (st.arenas x.self).cap)
    (hstart : b.span.start = x.arena.top) (hstop : b.span.stop = (st.arenas x.self).top)
    (hframe : ∀ a < x.arena.top, st.memory a = x.memory a)
    (hstring : ∀ s room, b = .string s room → Stands st x.self s room) :
    Sound { x with store := st, live := x.live ++ [b] } := by
  have htop : x.arena.top ≤ (st.arenas x.self).top := by
    rw [← hstart, ← hstop]
    exact Nat.le_add_right _ _
  have hstartArea : x.arena.area.start ≤ x.arena.top := Nat.le_add_right _ _
  have harena : Shared.arena { x with store := st, live := x.live ++ [b] } = st.arenas x.self := rfl
  have hbelow : ∀ c ∈ x.live, Disjoint c.span.cells b.span.cells := by
    intro c hc
    refine Span.disjoint_of_stop_le ?_
    rw [hstart]
    exact h.below c hc
  refine ⟨h.self_lt, hcur, ?_, ?_, ?_, ?_⟩
  · intro c hc
    rw [harena, harea]
    rcases List.mem_append.mp hc with hold | hnew
    · exact h.above c hold
    · rw [List.mem_singleton.mp hnew, hstart]
      exact hstartArea
  · intro c hc
    rw [harena]
    rcases List.mem_append.mp hc with hold | hnew
    · exact Nat.le_trans (h.below c hold) htop
    · rw [List.mem_singleton.mp hnew, hstop]
  · intro i j c d hij hc hd
    rcases getElem?_concat_cases hc with hcOld | ⟨hi, rfl⟩
    · rcases getElem?_concat_cases hd with hdOld | ⟨_, rfl⟩
      · exact h.apart i j c d hij hcOld hdOld
      · exact hbelow c (List.mem_of_getElem? hcOld)
    · rcases getElem?_concat_cases hd with hdOld | ⟨hj, _⟩
      · exact (hbelow d (List.mem_of_getElem? hdOld)).symm
      · exact absurd (hi.trans hj.symm) hij
  · intro s room hs
    rcases List.mem_append.mp hs with hold | hnew
    · refine (h.strings s room hold).congr ?_ htop
      intro a ha
      exact hframe a (Nat.lt_of_lt_of_le ha.2 (h.below _ hold))
    · exact hstring s room (List.mem_singleton.mp hnew).symm

/-- Nothing new, and the arena as before. -/
theorem Sound.keep (h : x.Sound) {st : Store} (harena : st.arenas x.self = x.arena)
    (hstrings : ∀ s room, .string s room ∈ x.live → Stands st x.self s room) :
    Sound { x with store := st } := by
  have hsame : Shared.arena { x with store := st } = x.arena := harena
  refine ⟨h.self_lt, ?_, ?_, ?_, h.apart, hstrings⟩
  · rw [hsame]
    exact h.cur_le
  · rw [hsame]
    exact h.above
  · rw [hsame]
    exact h.below

/-- A string has been given other bytes. -/
theorem Sound.replace (h : x.Sound) {st : Store} {i s room room' : ℕ}
    (hi : x.live[i]? = some (.string s room))
    (harea : (st.arenas x.self).area = x.arena.area)
    (hcur : (st.arenas x.self).cur ≤ (st.arenas x.self).cap)
    (htop : x.arena.top ≤ (st.arenas x.self).top)
    (hframe : ∀ (j : ℕ) (b : Alloc), j ≠ i → x.live[j]? = some b →
      ∀ a ∈ b.span.cells, st.memory a = x.memory a)
    (hstands : Stands st x.self s room')
    (hstop : (Alloc.string s room').span.stop ≤ (st.arenas x.self).top)
    (happart : ∀ (j : ℕ) (b : Alloc), j ≠ i → x.live[j]? = some b →
      Disjoint (Alloc.string s room').span.cells b.span.cells) :
    Sound { x with store := st, live := x.live.set i (.string s room') } := by
  have harena : Shared.arena { x with store := st, live := x.live.set i (.string s room') } =
      st.arenas x.self := rfl
  refine ⟨h.self_lt, hcur, ?_, ?_, ?_, ?_⟩
  · intro c hc
    rw [harena, harea]
    obtain ⟨j, hj⟩ := List.mem_iff_getElem?.mp hc
    rcases getElem?_set_cases hj with ⟨_, rfl⟩ | ⟨_, hold⟩
    · exact h.above (.string s room) (List.mem_of_getElem? hi)
    · exact h.above c (List.mem_of_getElem? hold)
  · intro c hc
    rw [harena]
    obtain ⟨j, hj⟩ := List.mem_iff_getElem?.mp hc
    rcases getElem?_set_cases hj with ⟨_, rfl⟩ | ⟨_, hold⟩
    · exact hstop
    · exact Nat.le_trans (h.below c (List.mem_of_getElem? hold)) htop
  · intro j k c d hjk hc hd
    rcases getElem?_set_cases hc with ⟨hj, rfl⟩ | ⟨hj, hcOld⟩
    · rcases getElem?_set_cases hd with ⟨hk, _⟩ | ⟨hk, hdOld⟩
      · exact absurd (hj.trans hk.symm) hjk
      · exact happart k d hk hdOld
    · rcases getElem?_set_cases hd with ⟨_, rfl⟩ | ⟨_, hdOld⟩
      · exact (happart j c hj hcOld).symm
      · exact h.apart j k c d hjk hcOld hdOld
  · intro t room₂ ht
    obtain ⟨j, hj⟩ := List.mem_iff_getElem?.mp ht
    rcases getElem?_set_cases hj with ⟨_, heq⟩ | ⟨hj, hold⟩
    · cases heq
      exact hstands
    · exact (h.strings t room₂ (List.mem_of_getElem? hold)).congr
        (fun a ha => hframe j _ hj hold a ha) htop

theorem stringAt_eq_some {i s room : ℕ} (h : x.stringAt i = some (s, room)) :
    x.live[i]? = some (.string s room) := by
  simp only [stringAt] at h
  split at h
  · rename_i hlive
    cases h
    exact hlive
  · cases h

/-! ### Growing one string -/

/-- The other allocations lie below the header, or behind both the room of the
    string and the `e` bytes that end before the next of them. -/
theorem Sound.away (h : x.Sound) {i s room e : ℕ} (hi : x.live[i]? = some (.string s room))
    (hs : headerSize ≤ s)
    (hnext : ∀ b ∈ x.live, s < b.span.start → 0 < b.span.size → s + e < b.span.start)
    {j : ℕ} {b : Alloc} (hj : j ≠ i) (hb : x.live[j]? = some b) {a : ℕ} (ha : a ∈ b.span.cells) :
    a < s - headerSize ∨ s + max room e < a := by
  have hdisj := Set.disjoint_left.mp (h.apart j i b _ hj hb hi)
  have hcommon : ∀ y : ℕ, b.span.start ≤ y → y < b.span.start + b.span.size → s - 24 ≤ y →
      ¬ y < s + room + 1 := by
    intro y hlo hhi hlo' hhi'
    refine hdisj ⟨hlo, hhi⟩ ⟨hlo', ?_⟩
    simp only [Alloc.span, Span.stop]
    omega
  have hnextB := hnext b (List.mem_of_getElem? hb)
  obtain ⟨hlo, hhi⟩ := ha
  simp only [Span.stop] at hhi
  simp only [headerSize] at hs ⊢
  by_cases hstart : s < b.span.start
  · have hown := hcommon b.span.start (Nat.le_refl _) (by omega) (by omega)
    have hbehind := hnextB hstart (by omega)
    right
    omega
  · left
    by_contra hge
    have hown := hcommon (max b.span.start (s - 24)) (by omega) (by omega) (by omega)
    omega

section Growing

variable {i s room cap k cap' : ℕ} {bytes src : List UInt8} {st' : Store}

/-- No other allocation changes. -/
theorem Sound.others_of_extended (h : x.Sound) (hi : x.live[i]? = some (.string s room))
    (hext : Extended x.store x.self s cap bytes k src st' cap')
    (hnext : ∀ b ∈ x.live, s < b.span.start → 0 < b.span.size →
      s + (k + src.length) < b.span.start)
    {j : ℕ} {b : Alloc} (hj : j ≠ i) (hb : x.live[j]? = some b) :
    ∀ a ∈ b.span.cells, st'.memory a = x.memory a := by
  intro a ha
  refine hext.frame a ?_
  rcases h.away hi hext.isString.header_le hnext hj hb ha with hbelow | hbehind
  · exact Or.inl hbelow
  · exact Or.inr (Or.inr (by omega))

theorem Sound.regrow (h : x.Sound) (hi : x.live[i]? = some (.string s room))
    (hbelow : s + cap + 1 ≤ x.arena.top) (hk : k ≤ bytes.length)
    (hext : Extended x.store x.self s cap bytes k src st' cap')
    (hnext : ∀ b ∈ x.live, s < b.span.start → 0 < b.span.size →
      s + (k + src.length) < b.span.start) :
    (x.regrow i s room (some s, st')).Sound := by
  obtain ⟨hmem, hcap⟩ := mem_and_cap_of_update hext.arenas
  have hs : headerSize ≤ s := hext.isString.header_le
  have hold := h.below _ (List.mem_of_getElem? hi)
  have htop : (st'.arenas x.self).top + cap = x.arena.top + cap' := hext.top_eq
  have hcapLe : cap ≤ cap' := by
    rcases hext.cap_cases with heq | ⟨_, heq⟩
    · omega
    · omega
  have hlen : (lmStringLen st'.memory s).toNat = k + src.length := by
    rw [hext.isString.len_eq, List.length_append, List.length_take, Nat.min_eq_left hk]
  have hused := hext.isString.len_le
  rw [← hext.isString.len_eq, hlen] at hused
  have hcontents := hext.isString.len_eq
  rw [hlen] at hcontents
  -- the room after the call: up to the cursor, or the bytes used
  have hroom : x.roomAfter s room st' = max room (k + src.length) ∨
      (s + room + 1 = x.arena.top ∧
        x.roomAfter s room st' = (st'.arenas x.self).top - (s + 1)) := by
    rw [roomAfter, hlen]
    split
    · exact Or.inr ⟨‹_›, rfl⟩
    · exact Or.inl rfl
  simp only [Alloc.span, Span.stop, headerSize] at hold hs
  refine h.replace hi ?_ ?_ ?_ ?_ ?_ ?_ ?_
  · rw [UArena.area, UArena.area, hmem, hcap]
  · rw [hcap]
    exact hext.cur_le
  · omega
  · exact fun j b hj hb => h.others_of_extended hi hext hnext hj hb
  · refine ⟨cap', _, hext.isString, ?_, ?_⟩
    · rw [← hcontents]
      rcases hroom with hroom | ⟨_, hroom⟩
      · omega
      · omega
    · omega
  · simp only [Alloc.span, Span.stop, headerSize]
    rcases hroom with hroom | ⟨_, hroom⟩
    · omega
    · omega
  · intro j b hj hb
    refine Set.disjoint_left.mpr ?_
    rintro a ⟨hlo, hhi⟩ ha
    simp only [Alloc.span, Span.stop, headerSize] at hlo hhi
    have hbStop := h.below b (List.mem_of_getElem? hb)
    have haStop : a < b.span.stop := ha.2
    have haway := h.away hi hext.isString.header_le hnext hj hb ha
    simp only [headerSize] at haway
    rcases hroom with hroom | ⟨_, hroom⟩
    · omega
    · omega

end Growing

/-- What the header of a live string says about it. -/
theorem Sound.string (h : x.Sound) {i s room : ℕ} (hi : x.stringAt i = some (s, room)) :
    x.live[i]? = some (.string s room) ∧
      IsString x.memory x.self s (lmStringCap x.memory s).toNat (lmBytes x.memory s) ∧
      (lmBytes x.memory s).length = (lmStringLen x.memory s).toNat ∧
      (lmBytes x.memory s).length ≤ room ∧
      s + (lmStringCap x.memory s).toNat + 1 ≤ x.arena.top ∧
      (lmStringCap x.memory s).toNat ≤ x.arena.cur.toNat := by
  have hlive := stringAt_eq_some hi
  obtain ⟨cap, bytes, hstring, hroom, hbelow⟩ := h.strings s room (List.mem_of_getElem? hlive)
  have hcap : (lmStringCap x.memory s).toNat = cap := hstring.cap_eq
  have hbytes : lmBytes x.memory s = bytes := by
    have hlen : (lmStringLen x.memory s).toNat = bytes.length := hstring.len_eq
    rw [lmBytes, hlen]
    exact hstring.bytes_eq
  have habove := h.above _ (List.mem_of_getElem? hlive)
  have hs : 24 ≤ s := hstring.header_le
  have htop : x.arena.top = x.arena.area.start + x.arena.cur.toNat := rfl
  have hbelow' : s + cap + 1 ≤ x.arena.top := hbelow
  simp only [Alloc.span, headerSize] at habove
  rw [hcap, hbytes]
  exact ⟨hlive, hstring, hstring.len_eq.symm, hroom, hbelow', by omega⟩

/-- Either of the two outcomes of a function that grows the string. -/
theorem Sound.serves_of_cases (h : x.Sound) {i s room k : ℕ} {src : List UInt8}
    {out : Option (Option Addr × Store)} (hi : x.stringAt i = some (s, room))
    (hk : k ≤ (lmBytes x.memory s).length) (hroom : x.RoomFor s k src.length)
    (hcases : (Full x.arena (lmStringCap x.memory s).toNat (lmBytes x.memory s).length src.length ∧
        out = some (none, x.store)) ∨
      ∃ st' cap', out = some (some s, st') ∧
        Extended x.store x.self s (lmStringCap x.memory s).toNat (lmBytes x.memory s) k src
          st' cap') :
    x.Unharmed i s out ((lmBytes x.memory s).take k ++ src) ⟨0, 0⟩ ∧
      ∀ r, out = some r → (x.regrow i s room r).Sound := by
  obtain ⟨hlive, _, hlen, _, hbelow, _⟩ := h.string hi
  rcases hcases with ⟨_, rfl⟩ | ⟨st', cap', rfl, hext⟩
  · constructor
    · refine ⟨⟨_, rfl⟩, ?_, ?_, ?_⟩
      · rintro st' ⟨⟩
        exact ⟨rfl, fun _ _ => rfl⟩
      · intro s' st' hout
        cases hout
      · rintro r st' ⟨⟩ j b _ _ a _
        rfl
    · rintro r ⟨⟩
      exact h
  · have hnext : ∀ b ∈ x.live, s < b.span.start → 0 < b.span.size →
        s + (k + src.length) < b.span.start := by
      rcases hroom with hfull | hnext
      · rw [← hlen] at hfull
        exact absurd hfull hext.not_full
      · exact hnext
    constructor
    · refine ⟨⟨_, rfl⟩, ?_, ?_, ?_⟩
      · intro st'' hout
        cases hout
      · rintro s' st'' ⟨⟩
        exact ⟨rfl, cap', hext.isString⟩
      · rintro r st'' ⟨⟩ j b hj hb
        exact h.others_of_extended hlive hext hnext hj hb
    · rintro r ⟨⟩
      exact h.regrow hlive hbelow hk hext hnext

theorem Sound.grow (h : x.Sound) {i s room : ℕ} {g : Growth}
    (hi : x.stringAt i = some (s, room))
    (hlegal : g.Legal x.memory s (lmStringLen x.memory s).toNat)
    (hwrap : x.arena.cur.toNat + (g.src x.memory).length < 2 ^ 64)
    (hroom : x.RoomFor s (g.start (lmStringLen x.memory s).toNat) (g.src x.memory).length) :
    x.Unharmed i s (g.call x.store s)
        (Text.spec ⟨x.store, s, lmBytes x.memory s⟩ (.grow g)) ⟨0, 0⟩ ∧
      ∀ r, g.call x.store s = some r → (x.regrow i s room r).Sound := by
  obtain ⟨_, hstring, hlen, _, _, hcap⟩ := h.string hi
  have hstore : IsString x.store.memory x.self s (lmStringCap x.memory s).toNat
      (lmBytes x.memory s) := hstring
  rw [← hlen] at hlegal hroom
  have hcases := Growth.call_cases hstore h.cur_le hcap hwrap hlegal
  have hspec := spec_grow ⟨x.store, s, lmBytes x.memory s⟩ g
  dsimp only at hspec
  rw [hspec]
  exact h.serves_of_cases hi (g.start_le _) hroom hcases

/-! ### Appending through the buffer -/

/-- The store after `vsnprintf` has filled the buffer. -/
def formatted (x : Shared) (buf : ℕ) (expansion : List UInt8) : Shared :=
  { x with
    store := { x.store with
      memory := (x.store.memory.fill ⟨buf, 1024⟩ 0).write buf (expansion.take 1022) } }

section Format

variable {buf : ℕ} {expansion : List UInt8}

theorem formatted_of_outside {a : ℕ} (ha : a ∉ Span.cells ⟨buf, 1024⟩) :
    (x.formatted buf expansion).memory a = x.memory a := by
  have hlen : (expansion.take 1022).length ≤ 1022 := by
    rw [List.length_take]
    exact Nat.min_le_left _ _
  have houtside : ¬ (buf ≤ a ∧ a < buf + 1024) := ha
  refine Eq.trans (Memory.write_of_outside ?_) (Memory.fill_of_notMem ha)
  omega

theorem read_formatted (hlen : expansion.length < 1023) :
    (x.formatted buf expansion).memory.read buf expansion.length = expansion := by
  have htake : expansion.take 1022 = expansion := List.take_of_length_le (by omega)
  simp only [Shared.memory, formatted, htake]
  exact Memory.read_write_same _ _ _

/-- The buffer is not in the arena, so no allocation is in the buffer. -/
theorem Sound.notMem_buffer (h : x.Sound)
    (hbuf : buf + 1024 ≤ x.arena.area.start ∨ x.arena.area.stop ≤ buf) {b : Alloc}
    (hb : b ∈ x.live) {a : ℕ} (ha : a ∈ b.span.cells) : a ∉ Span.cells ⟨buf, 1024⟩ := by
  have habove := h.above b hb
  have hbelow := h.below b hb
  have htop : x.arena.top = x.arena.area.start + x.arena.cur.toNat := rfl
  have hstop : x.arena.area.stop = x.arena.area.start + x.arena.cap.toNat := rfl
  have hcur := UInt64.le_iff_toNat_le.mp h.cur_le
  obtain ⟨hlo, hhi⟩ := ha
  rintro ⟨hlo', hhi'⟩
  have hlast : a < buf + 1024 := hhi'
  have hfirst : buf ≤ a := hlo'
  omega

theorem Sound.same_formatted (h : x.Sound)
    (hbuf : buf + 1024 ≤ x.arena.area.start ∨ x.arena.area.stop ≤ buf) {b : Alloc}
    (hb : b ∈ x.live) {a : ℕ} (ha : a ∈ b.span.cells) :
    (x.formatted buf expansion).memory a = x.memory a :=
  formatted_of_outside (h.notMem_buffer hbuf hb ha)

theorem Sound.formatted (h : x.Sound)
    (hbuf : buf + 1024 ≤ x.arena.area.start ∨ x.arena.area.stop ≤ buf) :
    (x.formatted buf expansion).Sound := by
  refine h.keep rfl ?_
  intro s room hs
  exact (h.strings s room hs).congr (fun a ha => h.same_formatted hbuf hs ha) (Nat.le_refl _)

/-- The header and the bytes of a live string are as before. -/
theorem Sound.header_formatted (h : x.Sound)
    (hbuf : buf + 1024 ≤ x.arena.area.start ∨ x.arena.area.stop ≤ buf) {i s room : ℕ}
    (hi : x.stringAt i = some (s, room)) :
    lmStringCap (x.formatted buf expansion).memory s = lmStringCap x.memory s ∧
      lmStringLen (x.formatted buf expansion).memory s = lmStringLen x.memory s ∧
      lmBytes (x.formatted buf expansion).memory s = lmBytes x.memory s := by
  obtain ⟨hlive, hstring, hlen, hroom, _, _⟩ := h.string hi
  have hmem := List.mem_of_getElem? hlive
  have hs : 24 ≤ s := hstring.header_le
  have hsame : IsString (x.formatted buf expansion).memory x.self s
      (lmStringCap x.memory s).toNat (lmBytes x.memory s) := by
    refine hstring.congr ?_
    intro a hlo hhi
    refine h.same_formatted hbuf hmem ⟨hlo, ?_⟩
    simp only [Alloc.span, Span.stop, headerSize]
    omega
  have hlenEq : lmStringLen (x.formatted buf expansion).memory s = lmStringLen x.memory s := by
    apply UInt64.toNat_inj.mp
    rw [hsame.len_eq, hlen]
  refine ⟨UInt64.toNat_inj.mp hsame.cap_eq, hlenEq, ?_⟩
  rw [lmBytes, hlenEq, ← hlen]
  exact hsame.bytes_eq

/-- The buffer is below the arena, or above all that a call which is not refused can write. -/
theorem Sound.apart_buffer (h : x.Sound) {i s room len cap n : ℕ}
    (hlive : x.live[i]? = some (.string s room)) (hlen : len ≤ cap)
    (hbelow : s + cap + 1 ≤ x.arena.top)
    (hbuf : buf + 1024 ≤ x.arena.area.start ∨ x.arena.area.stop ≤ buf) (hn : n < 1023)
    (hfits : ¬ Full x.arena cap len n) : Apart s len buf n := by
  have habove : x.arena.area.start ≤ s - 24 := h.above _ (List.mem_of_getElem? hlive)
  have htop : x.arena.top = x.arena.area.start + x.arena.cur.toNat := rfl
  have hstop : x.arena.area.stop = x.arena.area.start + x.arena.cap.toNat := rfl
  have hcur := UInt64.le_iff_toNat_le.mp h.cur_le
  simp only [Full, not_and, Nat.not_lt] at hfits
  simp only [Apart, headerSize]
  rcases hbuf with hbuf | hbuf
  · omega
  · rcases Nat.lt_or_ge cap (len + n) with hneed | henough
    · have hfit := hfits hneed
      omega
    · omega

theorem Sound.appendFmt (h : x.Sound) {i s room : ℕ} (hi : x.stringAt i = some (s, room))
    (hlegal : x.Legal (.appendFmt i buf expansion))
    (hwrap : x.arena.cur.toNat + expansion.length < 2 ^ 64)
    (hroom : x.RoomFor s (lmStringLen x.memory s).toNat expansion.length) :
    x.Unharmed i s (lmStringAppendFmt x.store s buf expansion) (lmBytes x.memory s ++ expansion)
        ⟨buf, 1024⟩ ∧
      ∀ r, lmStringAppendFmt x.store s buf expansion = some r → (x.regrow i s room r).Sound := by
  obtain ⟨hshort, hbuf⟩ := hlegal
  have hx : (x.formatted buf expansion).Sound := h.formatted hbuf
  have hi' : (x.formatted buf expansion).stringAt i = some (s, room) := hi
  obtain ⟨hcapEq, hlenEq, hbytesEq⟩ := @Sound.header_formatted x buf expansion h hbuf i s room hi
  obtain ⟨hlive, hstring, hlen, _, hbelow, hcap⟩ := hx.string hi'
  have hword : (UInt64.ofNat expansion.length).toNat = expansion.length :=
    toNat_ofNat_of_lt (by omega)
  have hcall : lmStringAppendFmt x.store s buf expansion =
      lmStringAppendOf (x.formatted buf expansion).store s buf (UInt64.ofNat expansion.length) :=
    rfl
  have hroom' : (x.formatted buf expansion).RoomFor s
      (lmBytes (x.formatted buf expansion).memory s).length expansion.length := by
    simp only [RoomFor, hlen, hlenEq, hcapEq]
    exact hroom
  have hapart : ¬ Full x.arena (lmStringCap (x.formatted buf expansion).memory s).toNat
      (lmBytes (x.formatted buf expansion).memory s).length
      (UInt64.ofNat expansion.length).toNat →
      Apart s (lmBytes (x.formatted buf expansion).memory s).length buf
        (UInt64.ofNat expansion.length).toNat := by
    intro hfits
    rw [hword] at hfits ⊢
    exact h.apart_buffer hlive hstring.len_le hbelow hbuf hshort hfits
  have hwrap' : x.arena.cur.toNat + (UInt64.ofNat expansion.length).toNat < 2 ^ 64 := by
    rw [hword]
    exact hwrap
  have hcases := lmStringAppendOf_cases hstring hx.cur_le hcap hwrap' hapart
  rw [hword, read_formatted hshort] at hcases
  have hserves := hx.serves_of_cases hi' (Nat.le_refl _) hroom' hcases
  rw [List.take_length, hbytesEq] at hserves
  rw [hcall]
  obtain ⟨hunharmed, hsound⟩ := hserves
  constructor
  · refine ⟨hunharmed.defined, ?_, hunharmed.contents, ?_⟩
    · intro st' hout
      obtain ⟨harenas, hmem⟩ := hunharmed.null st' hout
      refine ⟨harenas, fun a ha => (hmem a ?_).trans (formatted_of_outside ha)⟩
      rintro ⟨_, ha'⟩
      exact Nat.not_lt_zero a ha'
    · intro r st' hout j b hj hb a ha
      exact (hunharmed.others r st' hout j b hj hb a ha).trans
        (h.same_formatted hbuf (List.mem_of_getElem? hb) ha)
  · intro r hr
    have hregrow := hsound r hr
    rcases r with ⟨_ | _, _⟩
    · exact hregrow
    · exact hregrow

end Format

/-! ### The other operations -/

theorem Sound.allocate (h : x.Sound) {bytes : List UInt8} {out : Option (Option Addr × Store)}
    (hcases : out = some (none, x.store) ∨
      ∃ (s : ℕ) (st' : Store), out = some (some s, st') ∧ MadeAt x.store x.self s bytes st') :
    ∀ r, out = some r → (x.allocate r bytes.length).Sound := by
  rcases hcases with rfl | ⟨s, st', rfl, hmade⟩
  · rintro r ⟨⟩
    exact h
  · rintro r ⟨⟩
    obtain ⟨hmem, hcap⟩ := mem_and_cap_of_update hmade.arenas
    have hstart : s = x.arena.top + headerSize := hmade.start_eq
    have htop : (st'.arenas x.self).top = x.arena.top + (headerSize + bytes.length + 1) :=
      hmade.top_eq
    refine h.push ?_ ?_ ?_ ?_ ?_ ?_
    · rw [UArena.area, UArena.area, hmem, hcap]
    · rw [hcap]
      exact hmade.cur_le
    · simp only [Alloc.span]
      omega
    · simp only [Alloc.span, Span.stop]
      omega
    · intro a ha
      exact hmade.frame a (Or.inl (by omega))
    · rintro t room ⟨⟩
      exact ⟨_, bytes, hmade.isString, Nat.le_refl _, by omega⟩

theorem Sound.cut (h : x.Sound) {i s room k : ℕ} (hi : x.stringAt i = some (s, room))
    (hk : k ≤ (lmBytes x.memory s).length) :
    Sound { x with store := { x.store with memory := put x.store.memory s k [] } } := by
  obtain ⟨hlive, hstring, _, hroom, hbelow, _⟩ := h.string hi
  have hs : 24 ≤ s := hstring.header_le
  refine h.keep rfl ?_
  intro t room₂ ht
  obtain ⟨j, hj⟩ := List.mem_iff_getElem?.mp ht
  by_cases hji : j = i
  · rw [hji, hlive] at hj
    cases hj
    refine ⟨_, _, hstring.cut hk, ?_, hbelow⟩
    rw [List.length_take]
    exact Nat.le_trans (Nat.min_le_right _ _) hroom
  · refine (h.strings t room₂ ht).congr ?_ (Nat.le_refl _)
    intro a ha
    have hnot : a ∉ (Alloc.string s room).span.cells :=
      Set.disjoint_left.mp (h.apart j i _ _ hji hj hlive) ha
    simp only [Alloc.span, Span.mem_cells, Span.stop, headerSize] at hnot
    refine put_of_outside hstring.header_le ?_ ?_
    · simp only [headerSize]
      omega
    · simp only [List.length_nil]
      omega

theorem Sound.call (h : x.Sound) (c : Call) (hwrap : x.NoWrap (.call c)) :
    ∀ x', x.step (.call c) = some x' → x'.Sound := by
  rintro x' ⟨⟩
  by_cases hfit : x.arena.cur + c.size ≤ x.arena.cap
  · obtain ⟨hblock, hua⟩ := @call_of_fits ⟨x.arena, x.memory⟩ c hfit
    have hsize : (x.arena.cur + c.size).toNat = x.arena.cur.toNat + c.size.toNat :=
      toNat_add_of_lt hwrap
    simp only [hblock, Option.toList_some, List.map_cons, List.map_nil]
    refine h.push ?_ ?_ rfl ?_ ?_ ?_
    · simp only [Function.update_self, hua, UArena.area]
    · simp only [Function.update_self, hua]
      exact hfit
    · simp only [Function.update_self, hua, Alloc.span, Span.stop, UArena.top, hsize]
      exact Nat.add_assoc _ _ _
    · intro a ha
      exact call_frame (Or.inl ha)
    · intro s room hs
      cases hs
  · have hcall : Heap.call ⟨x.arena, x.memory⟩ c = (none, ⟨x.arena, x.memory⟩) :=
      call_of_full hfit
    simp only [hcall, Option.toList_none, List.map_nil, List.append_nil, Function.update_eq_self]
    exact h

theorem Sound.make (h : x.Sound) (init : Option ℕ) (hlegal : x.Legal (.make init))
    (hwrap : x.NoWrap (.make init)) : ∀ x', x.step (.make init) = some x' → x'.Sound := by
  obtain ⟨bytes, hinit⟩ := hlegal
  have hlength : x.initLength init = bytes.length := by
    cases init with
    | none =>
      cases hinit
      rfl
    | some p =>
      obtain ⟨n, hn, rfl, _⟩ := hinit
      rw [initLength, cBytes, hn, Option.getD_some]
  rw [NoWrap, hlength] at hwrap
  intro x' hx'
  rw [Shared.step, Option.map_eq_some_iff] at hx'
  obtain ⟨r, hr, rfl⟩ := hx'
  rw [hlength]
  exact h.allocate (lmStringMake_cases h.self_lt hwrap hinit) r hr

theorem Sound.dup (h : x.Sound) (other : ℕ) (hlegal : x.Legal (.dup other))
    (hwrap : x.NoWrap (.dup other)) : ∀ x', x.step (.dup other) = some x' → x'.Sound := by
  have hsource : ∀ p : ℕ, some other = some p → (lmStringLen x.store.memory other).toNat = 0 ∨
      p + (lmStringLen x.store.memory other).toNat ≤ (x.store.arenas x.self).top ∨
      (x.store.arenas x.self).top +
        (headerSize + (lmStringLen x.store.memory other).toNat + 1) ≤ p := by
    rintro _ ⟨⟩
    exact hlegal
  have hlength : (lmStringLen x.memory other).toNat = (lmBytes x.memory other).length := by
    rw [lmBytes, Memory.length_read]
  intro x' hx'
  rw [Shared.step, lmStringDup, Option.map_eq_some_iff] at hx'
  obtain ⟨r, hr, rfl⟩ := hx'
  rw [hlength]
  refine h.allocate ?_ r hr
  rcases lmStringMakeOf_cases h.self_lt hwrap hsource with ⟨_, hnone⟩ | ⟨s, st', hsome, hmade⟩
  · exact Or.inl hnone
  · exact Or.inr ⟨s, st', hsome, hmade⟩

/-- **A call that has no room overwrites the allocation behind its string.** -/
theorem Sound.overwrites (h : x.Sound) {i s room : ℕ} {g : Growth}
    (hi : x.stringAt i = some (s, room))
    (hlegal : g.Legal x.memory s (lmStringLen x.memory s).toNat)
    (hwrap : x.arena.cur.toNat + (g.src x.memory).length < 2 ^ 64)
    (hroom : ¬ x.RoomFor s (g.start (lmStringLen x.memory s).toNat) (g.src x.memory).length) :
    ∃ st' b, g.call x.store s = some (some s, st') ∧ b ∈ x.live ∧ s < b.span.start ∧
      0 < b.span.size ∧
      ((lmBytes x.memory s).take (g.start (lmStringLen x.memory s).toNat) ++ g.src x.memory ++
        [0])[b.span.start - s]? = some (st'.memory b.span.start) := by
  obtain ⟨_, hstring, hlen, _, _, hcap⟩ := h.string hi
  have hstore : IsString x.store.memory x.self s (lmStringCap x.memory s).toNat
      (lmBytes x.memory s) := hstring
  rw [← hlen] at hlegal
  have hcases := Growth.call_cases hstore h.cur_le hcap hwrap hlegal
  rw [hlen] at hcases
  simp only [RoomFor, not_or, not_forall, Nat.not_lt] at hroom
  obtain ⟨hfits, b, hb, hbehind, hsize, hreach⟩ := hroom
  rcases hcases with ⟨hfull, _⟩ | ⟨st', cap', hcall, hext⟩
  · exact absurd hfull hfits
  · have hk := g.start_le (lmBytes x.memory s).length
    rw [hlen] at hk
    have hlength : ((lmBytes x.memory s).take (g.start (lmStringLen x.memory s).toNat) ++
        g.src x.memory).length = g.start (lmStringLen x.memory s).toNat +
          (g.src x.memory).length := by
      rw [List.length_append, List.length_take, hlen, Nat.min_eq_left hk]
    refine ⟨st', b, hcall, hb, hbehind, hsize, ?_⟩
    rw [← hext.isString.read_nul, hlength, Memory.getElem?_read (by omega),
      Nat.add_sub_cancel' (Nat.le_of_lt hbehind)]

/-- **One step.** -/
theorem Sound.step (h : x.Sound) {op : SharedOp} (hlegal : x.Legal op) (hwrap : x.NoWrap op)
    (hharm : x.Harmless op) {x' : Shared} (hx' : x.step op = some x') : x'.Sound := by
  cases op with
  | call c => exact h.call c hwrap x' hx'
  | make init => exact h.make init hlegal hwrap x' hx'
  | dup other => exact h.dup other hlegal hwrap x' hx'
  | grow i g =>
    rw [Shared.step, Option.bind_eq_some_iff] at hx'
    obtain ⟨⟨s, room⟩, hi, hr⟩ := hx'
    obtain ⟨r, hcall, rfl⟩ := Option.map_eq_some_iff.mp hr
    exact (h.grow hi (hlegal s room hi) hwrap (hharm s room hi)).2 r hcall
  | appendFmt i buf expansion =>
    rw [Shared.step, Option.bind_eq_some_iff] at hx'
    obtain ⟨⟨s, room⟩, hi, hr⟩ := hx'
    obtain ⟨r, hcall, rfl⟩ := Option.map_eq_some_iff.mp hr
    exact (h.appendFmt hi hlegal hwrap (hharm s room hi)).2 r hcall
  | clear i =>
    rw [Shared.step, Option.map_eq_some_iff] at hx'
    obtain ⟨⟨s, room⟩, hi, rfl⟩ := hx'
    simp only [lmStringClear_eq]
    exact h.cut hi (Nat.zero_le _)
  | backspace i n =>
    rw [Shared.step, Option.map_eq_some_iff] at hx'
    obtain ⟨⟨s, room⟩, hi, rfl⟩ := hx'
    obtain ⟨_, hstring, hlen, _⟩ := h.string hi
    have hn : n.toNat ≤ (lmStringLen x.memory s).toNat := hlegal s room hi
    rw [← hlen] at hn
    simp only [lmStringBackspace_eq hstring hn]
    exact h.cut hi (Nat.sub_le _ _)
  | elsewhere st =>
    cases hx'
    obtain ⟨harena, hsame⟩ := hlegal
    refine h.keep harena fun s room hs => (h.strings s room hs).congr
      (fun a ha => hsame _ hs rfl a ha.2 ha.1) ?_
    rw [harena]

/-- **One call.** -/
theorem Sound.callSafe (h : x.Sound) {op : SharedOp} (hlegal : x.Legal op) (hwrap : x.NoWrap op)
    (hharm : x.Harmless op) : x.CallSafe op := by
  cases op with
  | grow i g =>
    intro s room hi
    exact (h.grow hi (hlegal s room hi) hwrap (hharm s room hi)).1
  | appendFmt i buf expansion =>
    intro s room hi
    exact (h.appendFmt hi hlegal hwrap (hharm s room hi)).1
  | call _ | make _ | dup _ | clear _ | backspace _ _ | elsewhere _ => exact trivial

end Sound

/-! ### Whole runs -/

/-- Nothing has been allocated yet. -/
structure Fresh (x : Shared) : Prop where
  self_lt : x.self < 2 ^ 64
  cur_le : x.arena.cur ≤ x.arena.cap
  live_eq : x.live = []

theorem Fresh.sound {x : Shared} (h : x.Fresh) : x.Sound := by
  have hnone : ∀ b, b ∉ x.live := by
    rw [h.live_eq]
    exact fun _ => List.not_mem_nil
  refine ⟨h.self_lt, h.cur_le, ?_, ?_, ?_, ?_⟩
  · exact fun b hb => absurd hb (hnone b)
  · exact fun b hb => absurd hb (hnone b)
  · exact fun i j b c _ hb => absurd (List.mem_of_getElem? hb) (hnone b)
  · exact fun s room hs => absurd hs (hnone _)

/-- **Strings that have room harm nobody.**  In a run of legal operations on a fresh
    arena where no capacity test wraps and every call that makes a string longer
    ends before the next allocation, or is refused, every such call gives its
    string the right contents and leaves all other allocations alone. -/
theorem callSafe_of_harmless {x : Shared} (hx : x.Fresh) {ops : List SharedOp}
    (hlegal : Along step Legal x ops)
    (hops : Along step (fun x op => x.NoWrap op ∧ x.Harmless op) x ops) :
    Along step CallSafe x ops := by
  have hboth := Along.and hlegal hops
  refine along_of_along (I := Sound) ?_ ?_ hx.sound hboth
  · rintro x op x' h ⟨hleg, hwrap, hharm⟩ hx'
    exact h.step hleg hwrap hharm hx'
  · rintro x op h ⟨hleg, hwrap, hharm⟩
    exact h.callSafe hleg hwrap hharm

/-- Two hundred bytes at 1000 for the arena at 64; `ab` is at address 10. -/
def twoHundred : Shared :=
  { self := 64
    store :=
      { arenas := fun _ => uaInit false false false 200 1000
        memory := thirty.memory }
    live := [] }

/-- A block, then a string that grows: the last allocation may. -/
def growsLast : List SharedOp :=
  [.call (.alloc 8), .make (some 10), .grow 1 (.appendC 10), .appendFmt 1 5000 [49, 46],
    .make (some 10), .backspace 1 2, .grow 1 (.appendC 10)]

theorem callSafe_of_harmless_growsLast : Along step CallSafe twoHundred growsLast :=
  callSafe_of_harmless ⟨by decide, by decide, rfl⟩ (by decide) (by decide)

/-- The order of `SdhsMain`: a second string is made, then the first one grows.  Its
    two bytes and their `NUL` run into the header of the second. -/
def growsFirst : List SharedOp :=
  [.make (some 10), .make (some 10), .grow 0 (.appendC 10)]

/-- The arena with the two strings. -/
def twoMade : Shared := (run step twoHundred [.make (some 10), .make (some 10)]).getD twoHundred

theorem append_overwrites_header :
    Along step Legal twoHundred growsFirst ∧ Along step NoWrap twoHundred growsFirst ∧
      ¬ Along step CallSafe twoHundred growsFirst := by
  refine ⟨by decide, by decide, ?_⟩
  intro h
  have hsafe : twoMade.CallSafe (.grow 0 (.appendC 10)) := ((h.2 _ rfl).2 twoMade rfl).1
  have hunharmed := hsafe 1024 2 (by decide)
  obtain ⟨⟨r, st'⟩, hout⟩ := hunharmed.defined
  have hkept := hunharmed.others r st' hout 1 (.string 1051 2) (by decide) (by decide) 1027
    ⟨by decide, by decide⟩
  have hwritten : (Growth.call twoMade.store 1024 (.appendC 10)).map
      (fun out => out.2.memory 1027) = some 98 := by decide
  rw [hout, Option.map_some, Option.some.injEq] at hwritten
  have hold : twoMade.memory 1027 = 64 := by decide
  rw [hwritten, hold] at hkept
  exact absurd hkept (by decide)

end Shared

end Lmalloc.Strings
