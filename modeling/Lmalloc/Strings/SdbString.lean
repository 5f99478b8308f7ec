/-
  Lmalloc/Strings/SdbString.lean
  ==============================
  **The strings of `Sdb.h`, and the `NUL` behind them.**

  `Sdb.h` repeats the strings of `lm.h` with one difference.  `lm__string_make__`
  takes zeroed memory from its arena and writes the `NUL` of every string;
  `Sdb__StringMake__` takes memory as it is, zeroes it only for a null pointer and
  writes the `NUL` only behind a byte that it has copied.  A string made from an
  empty one ends in whatever the arena held before.

  The operations on a string are the same, and each of them keeps the `NUL`.
-/
import Lmalloc.Strings.Reference

namespace Lmalloc.Strings

open Lmalloc.Library Lmalloc.Library.Word Lmalloc.Arena

/-! ### The functions of `Sdb.h` -/

/-- `Sdb__StringMake__`; the header is that of `lm.h`. -/
def sdbStringMakeOf (st : Store) (a : Addr) (initString : Option Addr) (len : UInt64) :
    Option (Option Addr × Store) :=
  let size := UInt64.ofNat headerSize + len + 1
  match uaAlloc (st.arenas a) size with
  | (none, _) => some (none, st)
  | (some ptr, arena) =>
      let m := match initString with
        | none => st.memory.fill ⟨ptr, size.toNat⟩ 0
        | some _ => st.memory
      let string := ptr + headerSize
      let m := m.storeWord ptr (UInt64.ofNat a)
      let m := lmStringSetLen m string len
      let m := lmStringSetCap m string len
      let copied : Option Memory :=
        match initString with
        | some init =>
            if 0 < len then
              (m.copy? string init len.toNat).map fun m => m.write (string + len.toNat) [0]
            else some m
        | none => some m
      copied.map fun m =>
        (some string, { arenas := Function.update st.arenas a arena, memory := m })

def sdbStringMake (st : Store) (a : Addr) : Option Addr → Option (Option Addr × Store)
  | none => sdbStringMakeOf st a none 0
  | some string => (st.memory.strlen string).bind fun n =>
      sdbStringMakeOf st a (some string) (UInt64.ofNat n)

def sdbStringDuplicate (st : Store) (a string : Addr) : Option (Option Addr × Store) :=
  sdbStringMakeOf st a (some string) (lmStringLen st.memory string)

-- The bodies of the rest are those of `lm.h`, with `ArenaReserve` for `ua_reserve`.

def sdbStringClear (st : Store) (string : Addr) : Store := lmStringClear st string

def sdbStringBackspace (st : Store) (string : Addr) (n : UInt64) : Store :=
  lmStringBackspace st string n

def sdbStringAppend (st : Store) (string other : Addr) : Option (Option Addr × Store) :=
  lmStringAppend st string other

def sdbStringAppendC (st : Store) (string other : Addr) : Option (Option Addr × Store) :=
  lmStringAppendC st string other

def sdbStringSet (st : Store) (string cString : Addr) : Option (Option Addr × Store) :=
  lmStringSet st string cString

/-! ### Where a string comes from -/

inductive Origin where
  | make (string : Option Addr)     -- `SdbStringMake`
  | duplicate (string : Addr)       -- `SdbStringDuplicate`
deriving DecidableEq, Repr

namespace Origin

def call (st : Store) (a : Addr) : Origin → Option (Option Addr × Store)
  | .make string => sdbStringMake st a string
  | .duplicate string => sdbStringDuplicate st a string

/-- The bytes that the string is made of. -/
def source (m : Memory) : Origin → List UInt8
  | .make none => []
  | .make (some p) => cBytes m p
  | .duplicate p => lmBytes m p

/-- `n` bytes at `p` are not where a new string of `n` bytes goes. -/
def Outside (st : Store) (a p n : ℕ) : Prop :=
  n = 0 ∨ p + n ≤ (st.arenas a).top ∨ (st.arenas a).top + (headerSize + n + 1) ≤ p

/-- What the caller promises: the source is a C string, or a string of `Sdb.h` that
    reads as one, outside the memory that the new string takes. -/
def Legal (st : Store) (a : Addr) : Origin → Prop
  | .make none => True
  | .make (some p) => ∃ n, st.memory.strlen p = some n ∧ Outside st a p n
  | .duplicate p =>
      headerSize + (lmStringLen st.memory p).toNat + 1 < 2 ^ 63 ∧ 0 ∉ lmBytes st.memory p ∧
        Outside st a p (lmStringLen st.memory p).toNat

/-- The constructor writes the `NUL`, or finds one. -/
def Ends (st : Store) (a : Addr) (o : Origin) : Prop :=
  o = .make none ∨ o.source st.memory ≠ [] ∨ st.memory ((st.arenas a).top + headerSize) = 0

end Origin

/-! ### Making a string -/

section Make

variable {st : Store} {a : ℕ} {n : UInt64}

theorem HasRoom.uaAlloc_eq (h : HasRoom st a n) :
    uaAlloc (st.arenas a) (UInt64.ofNat headerSize + n + 1) =
      (some (st.arenas a).top, (given st a n st.memory).arenas a) := by
  have hsize := toNat_stringSize (n := n) (Nat.lt_of_le_of_lt (Nat.le_add_left _ _) h.wrap)
  have hwrap := h.wrap
  have hfit := h.fit
  rw [← hsize] at hwrap hfit
  simp only [uaAlloc_of_lt hwrap, if_pos hfit, given, Function.update_self]
  rfl

theorem lmStringLen_headed (m : Memory) (mem ua : ℕ) (n : UInt64) :
    lmStringLen (headed m mem ua n) (mem + headerSize) = n := by
  simp only [lmStringLen, headed, lmStringSetCap, lmStringSetLen, Nat.add_sub_cancel]
  rw [Memory.loadWord_storeWord_of_disjoint (by omega), Memory.loadWord_storeWord]

/-- Without a source the block is zeroed. -/
theorem HasRoom.make_none (h : HasRoom st a 0) :
    sdbStringMakeOf st a none 0 =
      some (some ((st.arenas a).top + headerSize),
        given st a 0 (blank st.memory (st.arenas a).top a 0)) := by
  simp only [sdbStringMakeOf, h.uaAlloc_eq, given, Function.update_self]
  rfl

/-- Without bytes to copy the constructor writes the header and nothing else. -/
theorem HasRoom.make_empty (h : HasRoom st a 0) (p : ℕ) :
    sdbStringMakeOf st a (some p) 0 =
      some (some ((st.arenas a).top + headerSize),
        given st a 0 (headed st.memory (st.arenas a).top a 0)) := by
  simp only [sdbStringMakeOf, h.uaAlloc_eq, given, Function.update_self]
  rfl

/-- The block after the bytes of the source and the `NUL` have been copied. -/
def filled (m : Memory) (mem ua : ℕ) (n : UInt64) (src : List UInt8) : Memory :=
  ((headed m mem ua n).write (mem + headerSize) src).write (mem + headerSize + n.toNat) [0]

theorem HasRoom.make_some (h : HasRoom st a n) {p : ℕ} (hn : 0 < n)
    (hp : Origin.Outside st a p n.toNat) :
    sdbStringMakeOf st a (some p) n =
      some (some ((st.arenas a).top + headerSize),
        given st a n (filled st.memory (st.arenas a).top a n (st.memory.read p n.toNat))) := by
  have hpos := UInt64.lt_iff_toNat_lt.mp hn
  have hapart := hp.resolve_left (Nat.ne_of_gt hpos)
  simp only [headerSize] at hapart
  have hread : (headed st.memory (st.arenas a).top a n).read p n.toNat = st.memory.read p n.toNat :=
    Memory.read_congr fun i hi => headed_of_outside (by simp only [headerSize]; omega)
  have hcopy : (headed st.memory (st.arenas a).top a n).copy? ((st.arenas a).top + headerSize) p
      n.toNat = some ((headed st.memory (st.arenas a).top a n).write
        ((st.arenas a).top + headerSize) (st.memory.read p n.toNat)) := by
    rw [← hread]
    exact Memory.copy?_of_apart (by simp only [headerSize]; omega)
  simp only [sdbStringMakeOf, h.uaAlloc_eq, if_pos hn]
  change Option.map _ (Option.map _ ((headed st.memory (st.arenas a).top a n).copy? _ _ _)) = _
  rw [hcopy]
  simp only [given, Function.update_self]
  rfl

theorem isString_filled (ha : a < 2 ^ 64) (m : Memory) (mem : ℕ) {src : List UInt8}
    (hsrc : src.length = n.toNat) :
    IsString (filled m mem a n src) a (mem + headerSize) n.toNat src := by
  refine isString_of_headed ha (m := m) ?_ hsrc ?_ Memory.write_single
  · intro x _ hx
    rw [filled, Memory.write_of_outside (Or.inl (Nat.lt_add_right _ hx)),
      Memory.write_of_outside (Or.inl hx)]
  · rw [filled, Memory.read_write_of_disjoint (Or.inl (Nat.le_refl _)), ← hsrc]
    exact Memory.read_write_same _ _ _

theorem filled_of_outside {m : Memory} {mem x : ℕ} {src : List UInt8}
    (hsrc : src.length = n.toNat) (hx : x < mem ∨ mem + (headerSize + n.toNat) < x) :
    filled m mem a n src x = m x := by
  simp only [headerSize] at hx
  rw [filled, Memory.write_of_outside (by simp only [headerSize, List.length_singleton]; omega),
    Memory.write_of_outside (by simp only [headerSize]; omega)]
  exact headed_of_outside (by simp only [headerSize]; omega)

/-- What a constructor gives, if it does not refuse. -/
structure Constructed (st : Store) (a : ℕ) (o : Origin) (s : ℕ) (st' : Store) : Prop where
  madeAt : o.Ends st a → MadeAt st a s (o.source st.memory) st'
  unended : ¬ o.Ends st a → (lmStringLen st'.memory s).toNat = 0 ∧ st'.memory s ≠ 0

theorem HasRoom.madeAt_blank (ha : a < 2 ^ 64) (h : HasRoom st a 0) :
    MadeAt st a ((st.arenas a).top + headerSize) []
      (given st a 0 (blank st.memory (st.arenas a).top a 0)) :=
  h.madeAt rfl (isString_blank ha st.memory (st.arenas a).top 0) fun _ => blank_of_outside

/-- A header alone is an empty string if the next byte happens to be zero. -/
theorem HasRoom.constructed_empty (ha : a < 2 ^ 64) (h : HasRoom st a 0) {o : Origin}
    (hne : o ≠ .make none) (ho : o.source st.memory = []) :
    Constructed st a o ((st.arenas a).top + headerSize)
      (given st a 0 (headed st.memory (st.arenas a).top a 0)) := by
  have hsame : headed st.memory (st.arenas a).top a 0 ((st.arenas a).top + headerSize) =
      st.memory ((st.arenas a).top + headerSize) := headed_of_outside (Or.inr (Nat.le_refl _))
  constructor
  · intro hends
    have hzero := (hends.resolve_left hne).resolve_left (not_not_intro ho)
    rw [ho]
    refine h.madeAt rfl ?_ fun x hx => headed_of_outside ?_
    · exact isString_of_headed ha (fun _ _ _ => rfl) rfl rfl (hsame.trans hzero)
    · exact hx.imp_right Nat.le_of_lt
  · intro hends
    refine ⟨congrArg UInt64.toNat (lmStringLen_headed _ _ _ _), ?_⟩
    intro hzero
    exact hends (Or.inr (Or.inr (hsame.symm.trans hzero)))

/-- Copying a source, which may have no bytes. -/
theorem HasRoom.constructed_some (ha : a < 2 ^ 64) (h : HasRoom st a n) {o : Origin} {p : ℕ}
    (hne : o ≠ .make none) (ho : o.source st.memory = st.memory.read p n.toNat)
    (hp : Origin.Outside st a p n.toNat) :
    ∃ st', sdbStringMakeOf st a (some p) n = some (some ((st.arenas a).top + headerSize), st') ∧
      Constructed st a o ((st.arenas a).top + headerSize) st' := by
  by_cases hn : n = 0
  · subst hn
    exact ⟨_, h.make_empty p, h.constructed_empty ha hne ho⟩
  · have hpos : n.toNat ≠ 0 := fun hz => hn (UInt64.toNat_inj.mp hz)
    have hlength := Memory.length_read st.memory p n.toNat
    have hends : o.Ends st a := by
      refine Or.inr (Or.inl fun hnil => hpos ?_)
      rw [← hlength, ← ho, hnil, List.length_nil]
    refine ⟨_, h.make_some (UInt64.lt_iff_toNat_lt.mpr (Nat.pos_of_ne_zero hpos)) hp, ?_, ?_⟩
    · intro _
      rw [ho]
      exact h.madeAt hlength (isString_filled ha _ _ hlength) fun _ => filled_of_outside hlength
    · intro hnot
      exact absurd hends hnot

/-- Without room the constructor returns a null pointer and changes nothing. -/
theorem sdbStringMakeOf_of_full
    (hwrap : (st.arenas a).cur.toNat + (headerSize + n.toNat + 1) < 2 ^ 64)
    (hfull : (st.arenas a).cap.toNat < (st.arenas a).cur.toNat + (headerSize + n.toNat + 1))
    (init : Option Addr) : sdbStringMakeOf st a init n = some (none, st) := by
  have hsize := toNat_stringSize (n := n) (Nat.lt_of_le_of_lt (Nat.le_add_left _ _) hwrap)
  rw [← hsize] at hwrap hfull
  simp only [sdbStringMakeOf, uaAlloc_of_lt hwrap, if_neg (Nat.not_le_of_lt hfull)]

theorem sdbStringMakeOf_cases (ha : a < 2 ^ 64)
    (hwrap : (st.arenas a).cur.toNat + (headerSize + n.toNat + 1) < 2 ^ 64) {o : Origin} {p : ℕ}
    (hne : o ≠ .make none) (ho : o.source st.memory = st.memory.read p n.toNat)
    (hp : Origin.Outside st a p n.toNat) :
    sdbStringMakeOf st a (some p) n = some (none, st) ∨
      ∃ s st', sdbStringMakeOf st a (some p) n = some (some s, st') ∧
        Constructed st a o s st' := by
  rcases Nat.lt_or_ge (st.arenas a).cap.toNat
    ((st.arenas a).cur.toNat + (headerSize + n.toNat + 1)) with hfull | hfit
  · exact Or.inl (sdbStringMakeOf_of_full hwrap hfull _)
  · have hroom : HasRoom st a n := ⟨hwrap, hfit⟩
    obtain ⟨st', hmake, hconstructed⟩ := hroom.constructed_some ha hne ho hp
    exact Or.inr ⟨_, st', hmake, hconstructed⟩

/-- **Each constructor refuses, or makes a string that may lack its `NUL`.** -/
theorem Origin.call_cases (ha : a < 2 ^ 64) (hcur : (st.arenas a).cur ≤ (st.arenas a).cap)
    (hcap : (st.arenas a).cap.toNat < 2 ^ 63) {o : Origin} (ho : o.Legal st a) :
    o.call st a = some (none, st) ∨
      ∃ s st', o.call st a = some (some s, st') ∧ Constructed st a o s st' := by
  have hcurNat := UInt64.le_iff_toNat_le.mp hcur
  cases o with
  | make string =>
    cases string with
    | none =>
      have hwrap : (st.arenas a).cur.toNat + (headerSize + (0 : UInt64).toNat + 1) < 2 ^ 64 := by
        simp only [headerSize, UInt64.toNat_zero]
        omega
      have hcall : (Origin.make none).call st a = sdbStringMakeOf st a none 0 := rfl
      rw [hcall]
      rcases Nat.lt_or_ge (st.arenas a).cap.toNat
        ((st.arenas a).cur.toNat + (headerSize + (0 : UInt64).toNat + 1)) with hfull | hfit
      · exact Or.inl (sdbStringMakeOf_of_full hwrap hfull _)
      · have hroom : HasRoom st a 0 := ⟨hwrap, hfit⟩
        refine Or.inr ⟨_, _, hroom.make_none, fun _ => hroom.madeAt_blank ha, ?_⟩
        intro hends
        exact absurd (Or.inl rfl) hends
    | some p =>
      obtain ⟨len, hlen, houtside⟩ := ho
      have hlt : len < 2 ^ 57 := Memory.strlen_lt hlen
      have hword : (UInt64.ofNat len).toNat = len := toNat_ofNat_of_lt (by omega)
      have hcall : (Origin.make (some p)).call st a =
          sdbStringMakeOf st a (some p) (UInt64.ofNat len) := by
        rw [call, sdbStringMake, hlen, Option.bind_some]
      rw [hcall]
      refine sdbStringMakeOf_cases ha ?_ (fun h => by cases h) ?_ ?_
      · rw [hword]
        simp only [headerSize]
        omega
      · rw [source, cBytes, hlen, Option.getD_some, hword]
      · rw [hword]
        exact houtside
  | duplicate p =>
    have hcall : (Origin.duplicate p).call st a =
        sdbStringMakeOf st a (some p) (lmStringLen st.memory p) := rfl
    have hsmall := ho.1
    rw [hcall]
    refine sdbStringMakeOf_cases ha (by omega) (fun h => by cases h) ?_ ho.2.2
    rw [source, lmBytes]

end Make

/-! ### The operations -/

inductive SdbOp where
  | append (other : ℕ)
  | appendC (other : ℕ)
  | set (cString : ℕ)
  | clear
  | backspace (n : UInt64)
  | elsewhere (st : Store)    -- the rest of the program leaves this store

/-- The operation of `lm.h` with the same body. -/
def SdbOp.text : SdbOp → TextOp
  | .append other => .grow (.append other)
  | .appendC other => .grow (.appendC other)
  | .set cString => .grow (.set cString)
  | .clear => .clear
  | .backspace n => .backspace n
  | .elsewhere st => .elsewhere st

def Text.sdbCall (t : Text) : SdbOp → Option (Option Addr × Store)
  | .append other => sdbStringAppend t.store t.string other
  | .appendC other => sdbStringAppendC t.store t.string other
  | .set cString => sdbStringSet t.store t.string cString
  | .clear => some (some t.string, sdbStringClear t.store t.string)
  | .backspace n => some (some t.string, sdbStringBackspace t.store t.string n)
  | .elsewhere st => some (some t.string, st)

def Text.sdbStep (t : Text) (op : SdbOp) : Option Text := (t.sdbCall op).map (t.after op.text)

theorem sdbStep_eq (t : Text) (op : SdbOp) : t.sdbStep op = t.step op.text := by
  cases op with
  | append _ | appendC _ | set _ | clear | backspace _ | elsewhere _ => rfl

/-- What the caller promises; an appended `sdb_string` reads as a C string. -/
def Text.SdbLegal (t : Text) (op : SdbOp) : Prop :=
  t.Legal op.text ∧ 0 ∉ (match op with
    | .append other => lmBytes t.store.memory other
    | _ => [])

instance (t : Text) : DecidablePred t.SdbLegal := fun op =>
  inferInstanceAs (Decidable (t.Legal op.text ∧ 0 ∉ _))

/-- **Read as a C string, the string stops inside its block after exactly `Len` bytes.** -/
structure Text.Terminated (t : Text) : Prop where
  len_le : lmStringLen t.store.memory t.string ≤ lmStringCap t.store.memory t.string
  nul : t.store.memory (t.string + (lmStringLen t.store.memory t.string).toNat) = 0
  no_nul : ∀ i < (lmStringLen t.store.memory t.string).toNat,
    t.store.memory (t.string + i) ≠ 0

/-- The invariant. -/
structure Text.Reads (ua : ℕ) (t : Text) : Prop where
  sound : t.Sound ua
  clean : 0 ∉ t.ref

section Operations

variable {ua : ℕ} {t t' : Text} {op : SdbOp}

theorem Text.Reads.terminated (h : t.Reads ua) : t.Terminated := by
  have hstring := h.sound.isString
  have hlen := hstring.len_eq
  refine ⟨?_, ?_, ?_⟩
  · rw [UInt64.le_iff_toNat_le, hlen]
    exact hstring.len_le
  · rw [hlen]
    exact hstring.nul
  · rw [hlen]
    intro i hi hzero
    refine h.clean ?_
    rw [← hzero, ← Memory.getElem_read t.store.memory t.string t.ref.length i
      (by rw [Memory.length_read]; exact hi)]
    exact (congrArg (_ ∈ ·) hstring.bytes_eq).mp (List.getElem_mem _)

/-- What `strlen` counts has no `NUL`. -/
theorem cBytes_clean (m : Memory) (p : ℕ) : 0 ∉ cBytes m p := by
  intro hmem
  obtain ⟨i, hi, hzero⟩ := List.getElem_of_mem hmem
  rw [cBytes, Memory.length_read] at hi
  have hbyte : m (p + i) = 0 := (Memory.getElem_read ..).symm.trans hzero
  cases hlen : m.strlen p with
  | none =>
    rw [hlen] at hi
    exact absurd hi (Nat.not_lt_zero i)
  | some n =>
    rw [hlen] at hi
    exact (Memory.strlenIn_eq_some_iff.mp hlen).2.2 i hi hbyte

theorem spec_clean (h : t.Reads ua) (hop : t.SdbLegal op) : 0 ∉ t.spec op.text := by
  cases op with
  | append other => exact List.not_mem_append h.clean hop.2
  | appendC other => exact List.not_mem_append h.clean (cBytes_clean _ _)
  | set cString => exact cBytes_clean _ _
  | clear => exact List.not_mem_nil
  | backspace n => exact fun hmem => h.clean (List.mem_of_mem_take hmem)
  | elsewhere st => exact h.clean

/-- **Every operation keeps the invariant.** -/
theorem reads_step (h : t.Reads ua) (hop : t.SdbLegal op) :
    ∃ t', t.sdbStep op = some t' ∧ t'.Reads ua := by
  obtain ⟨r, hr⟩ := serves_of_legal h.sound hop.1
  refine ⟨t.after op.text r, ?_, hr.sound, ?_⟩
  · rw [sdbStep_eq, Text.step, hr.call_eq, Option.map_some]
  · obtain ⟨string, st⟩ := r
    cases string with
    | none => exact h.clean
    | some s => exact spec_clean h hop

end Operations

/-! ### Whole runs -/

section Runs

variable {st st₁ : Store} {a s : ℕ} {o : Origin}

/-- In every run the string can be read as a C string throughout. -/
def AlwaysTerminated (st₁ : Store) (s : ℕ) (bytes : List UInt8) : Prop :=
  ∀ ops, Along Text.sdbStep Text.SdbLegal ⟨st₁, s, bytes⟩ ops →
    (run Text.sdbStep ⟨st₁, s, bytes⟩ ops).isSome ∧
      Throughout Text.sdbStep Text.Terminated ⟨st₁, s, bytes⟩ ops

theorem alwaysTerminated_of_reads {bytes : List UInt8} (h : Text.Reads a ⟨st₁, s, bytes⟩) :
    AlwaysTerminated st₁ s bytes := by
  intro ops hops
  constructor
  · exact run_isSome_of_along (fun _ _ h hop => reads_step h hop) h hops
  · refine throughout_of_along (fun t op t' h hop ht' => ?_) (fun _ h => h.terminated) h hops
    obtain ⟨u, hu, hreads⟩ := reads_step h hop
    rw [hu] at ht'
    cases ht'
    exact hreads

theorem source_clean (ho : o.Legal st a) : 0 ∉ o.source st.memory := by
  cases o with
  | make string =>
    cases string with
    | none => exact List.not_mem_nil
    | some p => exact cBytes_clean _ _
  | duplicate p => exact ho.2.1

/-- **A string of `Sdb.h` is `NUL`-terminated in every run if and only if it was made
    from a null pointer or from at least one byte, or the arena held a zero where the
    empty string's `NUL` belongs.** -/
theorem sdbString_terminated_iff (ha : a < 2 ^ 64)
    (hcur : (st.arenas a).cur ≤ (st.arenas a).cap) (hcap : (st.arenas a).cap.toNat < 2 ^ 63)
    (ho : o.Legal st a) (hmake : o.call st a = some (some s, st₁)) :
    AlwaysTerminated st₁ s (o.source st.memory) ↔ o.Ends st a := by
  have hconstructed : Constructed st a o s st₁ := by
    rcases Origin.call_cases ha hcur hcap ho with hnone | ⟨_, _, hsome, hconstructed⟩
    · rw [hmake] at hnone
      cases hnone
    · rw [hmake] at hsome
      cases hsome
      exact hconstructed
  constructor
  · intro halways
    by_contra hends
    obtain ⟨hlen, hbyte⟩ := hconstructed.unended hends
    have hnul := (halways [] trivial).2.head.nul
    simp only [hlen, Nat.add_zero] at hnul
    exact hbyte hnul
  · intro hends
    exact alwaysTerminated_of_reads
      ⟨sound_of_madeAt (hconstructed.madeAt hends) hcap, source_clean ho⟩

end Runs

/-- The arena of `thirty`, its memory full of sevens. -/
def sevens : Store := { thirty with memory := fun a => if a = 10 then 0 else 7 }

/-- What `SdbStringMake` of the empty string at 10 leaves there. -/
def sevensMade : Store := ((sdbStringMake sevens 64 (some 10)).getD (none, sevens)).2

/-- Made from `ab`, a string is terminated in every run. -/
theorem sdbString_terminated_iff_thirty :
    AlwaysTerminated (((Origin.make (some 10)).call thirty 64).getD (none, thirty)).2 1024
      ((Origin.make (some 10)).source thirty.memory) ↔ (Origin.make (some 10)).Ends thirty 64 :=
  sdbString_terminated_iff (by decide) (by decide) (by decide)
    ⟨2, by decide, Or.inr (Or.inl (by decide))⟩ (by rfl)

/-- An empty string in used memory has length 0, and a seven where its `NUL` belongs. -/
theorem sdbString_unterminated :
    sdbStringMake sevens 64 (some 10) = some (some 1024, sevensMade) ∧
      lmStringLen sevensMade.memory 1024 = 0 ∧ sevensMade.memory 1024 = 7 ∧
      ¬ AlwaysTerminated sevensMade 1024 [] := by
  have hbyte : sevensMade.memory 1024 = 7 := by decide
  have hlen : lmStringLen sevensMade.memory 1024 = 0 := by decide
  refine ⟨by rfl, hlen, hbyte, ?_⟩
  intro halways
  have hnul := (halways [] trivial).2.head.nul
  simp only [hlen] at hnul
  exact absurd (hbyte.symm.trans hnul) (by decide)

end Lmalloc.Strings
