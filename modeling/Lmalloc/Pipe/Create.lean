/-
  Lmalloc/Pipe/Create.lean
  ========================
  **`SdpCreate` and `SdpDestroy` on a `UArena`.**

  The pipe, its array of buffer pointers and the buffers are all pushed onto one
  arena: the caller's, or one that `SdpCreate` makes with the size its formula
  gives.  Each buffer is an arena that is bootstrapped inside it and takes a header
  and its memory.  The results of the pushes are not checked.

  The outcomes of `mmap` and of the two calls of `eventfd` are parameters.  A call
  that follows a null pointer, or writes outside the arena's memory, has no result.
  Headers are objects of their own, as in `Arena/Bootstrap.lean`.
-/
import Lmalloc.Arena.Bootstrap
import Lmalloc.Arena.Create
import Lmalloc.Pipe.SensorDataPipe

namespace Lmalloc.Pipe.Create

open Lmalloc.Library Lmalloc.Arena

/-- `sizeof(sensor_data_pipe)` -/
def sdpSize : UInt64 := 64

/-- `sizeof(SdhsArena *)` -/
def pointerSize : UInt64 := 8

def pipeSize (bufCount bufSize : UInt64) : UInt64 :=
  let sdpSz := sdpSize
  let arenaPsSz := bufCount * pointerSize
  let arenasSz := bufCount * uArenaSize
  let bufsSz := bufCount * bufSize
  sdpSz + arenaPsSz + arenasSz + bufsSz

/-- The sum that a push compares with the capacity wraps.  The push passes then, and
    what is written behind the pointer it returns leaves the address space. -/
def Overflows (a : UArena) (size : UInt64) : Prop := 2 ^ 64 ≤ a.cur.toNat + size.toNat

instance (a : UArena) (size : UInt64) : Decidable (Overflows a size) := by
  unfold Overflows
  infer_instance

/-- `ArenaPushStruct` and `ArenaPushArray`. -/
def arenaPush (st : Heads UArena) (arena : Addr) (size : UInt64) :
    Option (Option Addr × Heads UArena) :=
  if Overflows (st.header arena) size then none
  else
    let r := uaAlloc (st.header arena) size
    some (r.1, st.setHeader arena r.2)

def arenaBootstrap (st : Heads UArena) (arena : Addr) (bufSize : UInt64) :
    Option (Option Addr × Heads UArena) :=
  if Overflows (st.header arena) uArenaSize ∨
      Overflows (uaAlloc (st.header arena) uArenaSize).2 bufSize then none
  else some (uaBootstrap st arena none bufSize)

/-- The loop over the buffers: what it writes to the array. -/
def bootstrapBuffers (arena : Addr) (bufSize : UInt64) :
    ℕ → Heads UArena → Option (List (Option Addr) × Heads UArena)
  | 0, st => some ([], st)
  | n + 1, st => (arenaBootstrap st arena bufSize).bind fun r =>
      (bootstrapBuffers arena bufSize n r.2).map fun s => (r.1 :: s.1, s.2)

/-- Where the pipe and its array are, the array's entries, and the arenas. -/
structure Layout where
  pipe : Addr
  array : Addr
  buffers : List (Option Addr)
  heads : Heads UArena

/-- From the push of the struct to the end of the loop.  An array whose size wraps is
    shorter than what the loop writes. -/
def layOut (st : Heads UArena) (arena : Addr) (bufCount bufSize : UInt64) : Option Layout :=
  (arenaPush st arena sdpSize).bind fun p =>
    (arenaPush p.2 arena (pointerSize * bufCount)).bind fun a =>
      p.1.bind fun pipe => a.1.bind fun array =>
        if 2 ^ 64 ≤ pointerSize.toNat * bufCount.toNat then none
        else (bootstrapBuffers arena bufSize bufCount.toNat a.2).map fun b =>
          ⟨pipe, array, b.1, b.2⟩

/-- A pipe as it is stored, with what it starts as. -/
structure SdpPipe where
  address : Addr
  array : Addr
  buffers : List (Option Addr)
  readEventFd : ℕ
  writeEventFd : ℕ
  start : SensorDataPipe

/-- What `SdpCreate` returns, the blocks it has obtained and the descriptors it has
    opened, and what it has closed and given back itself. -/
structure SdpReturn where
  pipe : Option SdpPipe
  arena : Addr
  heads : Heads UArena
  obtained : List Block
  opened : List ℕ
  closed : List ℕ
  givenBack : List GiveBack

/-- The arena the pipe goes into.  `ArenaPos` follows the pointer of an `ArenaCreate`
    that has failed. -/
def sdpArena (line : CacheLine) (sys : System) (st : Heads UArena) (bufCount bufSize : UInt64) :
    Option Addr → Option (Addr × Heads UArena × List Block)
  | some arena => some (arena, st, [])
  | none => (uaCreate line sys (pipeSize bufCount bufSize) true false).bind fun created =>
      created.1.map fun ua => (ua.1, st.setHeader ua.1 ua.2, created.2)

/-- What has been pushed lies in the block that was obtained for it. -/
def Backed (obtained : List Block) (a : UArena) : Prop :=
  ∀ b ∈ obtained, a.top ≤ b.span.stop

instance (obtained : List Block) (a : UArena) : Decidable (Backed obtained a) := by
  unfold Backed
  infer_instance

/-- From the calls of `eventfd` on; a failed one is `none`.  With a descriptor missing
    the memory goes back, but not the other descriptor. -/
def sdpEnd (line : CacheLine) (readFd writeFd : Option ℕ) (bufCount : UInt64) (usingArena : Bool)
    (arenaF5 : UInt64) (arena : Addr) (laid : Layout) (obtained : List Block) : SdpReturn :=
  match readFd, writeFd with
  | some readFd, some writeFd =>
      { pipe := some ⟨laid.pipe, laid.array, laid.buffers, readFd, writeFd, Pipe.sdpCreate bufCount⟩
        arena := arena, heads := laid.heads, obtained := obtained
        opened := [readFd, writeFd], closed := [], givenBack := [] }
  | _, _ =>
      { pipe := none
        arena := arena
        heads :=
          if usingArena then laid.heads.setHeader arena (uaSeek (laid.heads.header arena) arenaF5).2
          else laid.heads
        obtained := obtained
        opened := readFd.toList ++ writeFd.toList
        closed := []
        givenBack :=
          if usingArena then [] else (uaDestroy line (some (arena, laid.heads.header arena))).1 }

/-- `SdpCreate`; `arena` is the caller's, `none` is `NULL`. -/
def sdpCreate (line : CacheLine) (sys : System) (readFd writeFd : Option ℕ) (st : Heads UArena)
    (bufCount bufSize : UInt64) (arena : Option Addr) : Option SdpReturn :=
  (sdpArena line sys st bufCount bufSize arena).bind fun own =>
    (layOut own.2.1 own.1 bufCount bufSize).bind fun laid =>
      if Backed own.2.2 (laid.heads.header own.1) then
        some (sdpEnd line readFd writeFd bufCount arena.isSome (own.2.1.header own.1).cur own.1 laid
          own.2.2)
      else none

/-- `SdpDestroy`: the descriptors it closes and the calls that give memory back. -/
def sdpDestroy (pipe : SdpPipe) (allocatedWithArena : Bool) : List ℕ × List GiveBack :=
  ([pipe.readEventFd, pipe.writeEventFd],
    if allocatedWithArena then [] else [.free pipe.address])

/-! ### A layout that fits -/

section Fits

variable {st : Heads UArena} {arena : Addr} {a : UArena} {size : UInt64}

theorem not_overflows (h : a.cur.toNat + size.toNat ≤ a.cap.toNat) : ¬ Overflows a size := by
  have hcap := a.cap.toNat_lt
  unfold Overflows
  omega

theorem arenaPush_of_fits (ha : st.header arena = a)
    (h : a.cur.toNat + size.toNat ≤ a.cap.toNat) :
    arenaPush st arena size =
      some (some a.top, st.setHeader arena { a with cur := a.cur + size }) := by
  unfold arenaPush
  rw [ha, if_neg (not_overflows h), uaAlloc_of_fits h]

theorem header_setHeader_ne {p q : Addr} (h : q ≠ p) : (st.setHeader p a).header q = st.header q :=
  Function.update_of_ne h _ _

/-- A bootstrap that fits takes a header and the memory behind it. -/
theorem arenaBootstrap_of_fits {bufSize : UInt64} (ha : st.header arena = a)
    (hout : arena ∉ a.area.cells)
    (h : a.cur.toNat + (uArenaSize.toNat + bufSize.toNat) ≤ a.cap.toNat) :
    ∃ st', arenaBootstrap st arena bufSize = some (some a.top, st') ∧
      st'.header arena = { a with cur := a.cur + uArenaSize + bufSize } ∧
      st'.header a.top = uaInit false false true bufSize (a.top + uArenaSize.toNat) ∧
      ∀ q, q ≠ arena → q ≠ a.top → st'.header q = st.header q := by
  have hheader : a.cur.toNat + uArenaSize.toNat ≤ a.cap.toNat := by omega
  have hcur := toNat_cur_add hheader
  have hmem : ({ a with cur := a.cur + uArenaSize } : UArena).cur.toNat + bufSize.toNat ≤
      ({ a with cur := a.cur + uArenaSize } : UArena).cap.toNat := by
    change (a.cur + uArenaSize).toNat + bufSize.toNat ≤ a.cap.toNat
    omega
  have htop : ({ a with cur := a.cur + uArenaSize } : UArena).top = a.top + uArenaSize.toNat := by
    change a.mem + (a.cur + uArenaSize).toNat = a.mem + a.cur.toNat + uArenaSize.toNat
    rw [hcur, Nat.add_assoc]
  have hne : arena ≠ a.top := by
    rintro heq
    apply hout
    have hsize : uArenaSize.toNat = 32 := rfl
    have hlt : a.cur.toNat < a.cap.toNat := by omega
    rw [heq]
    exact ⟨Nat.le_add_right _ _, Nat.add_lt_add_left hlt a.mem⟩
  have hpushed : uaZalloc { a with cur := a.cur + uArenaSize } bufSize st.memory =
      (some (a.top + uArenaSize.toNat), { a with cur := a.cur + uArenaSize + bufSize },
        st.memory.fill ⟨a.top + uArenaSize.toNat, bufSize.toNat⟩ 0) := by
    have hcap := a.cap.toNat_lt
    unfold uaZalloc
    rw [if_pos, ← htop]
    · rfl
    · rw [Word.add_le_iff_of_lt (by change (a.cur + uArenaSize).toNat + _ < _; omega)]
      exact hmem
  refine ⟨(uaBootstrap st arena none bufSize).2, ?_, ?_, ?_, ?_⟩
  all_goals
    simp only [arenaBootstrap, uaBootstrap, bootstrapOf, bootstrapMem, ha,
      uaAlloc_of_fits hheader, header_setHeader, not_overflows hheader, not_overflows hmem,
      or_self, if_false]
    rw [show (st.setHeader arena { a with cur := a.cur + uArenaSize }).memory = st.memory from rfl,
      hpushed]
  · rw [header_setHeader_ne hne]
    exact Function.update_self ..
  · exact Function.update_self ..
  · intro q hq hqtop
    rw [header_setHeader_ne hqtop]
    change ((st.setHeader arena _).setHeader arena _).header q = st.header q
    rw [header_setHeader_ne hq, header_setHeader_ne hq]

end Fits

/-! ### The formula is the layout -/

section Exact

/-- What a buffer that was bootstrapped takes. -/
def bufferSpans (bufSize : UInt64) (header : Addr) : List Span :=
  [⟨header, uArenaSize.toNat⟩, ⟨header + uArenaSize.toNat, bufSize.toNat⟩]

/-- The loop has made buffers with these headers from the arena `a` on. -/
structure Made (arena : Addr) (bufSize : UInt64) (a : UArena) (st st' : Heads UArena)
    (headers : List ℕ) : Prop where
  parent : st'.header arena = { a with cur := (st'.header arena).cur }
  cur : (st'.header arena).cur.toNat =
    a.cur.toNat + headers.length * (uArenaSize.toNat + bufSize.toNat)
  stacked : Span.Stacked (st'.header arena).top a.top (headers.flatMap (bufferSpans bufSize))
  header : ∀ p ∈ headers, a.top ≤ p ∧
    st'.header p = uaInit false false true bufSize (p + uArenaSize.toNat)
  kept : ∀ q, q ≠ arena → q < a.top → st'.header q = st.header q

section Made

variable {arena : Addr} {bufSize : UInt64} {a : UArena} {st st₁ st' : Heads UArena}
  {headers : List ℕ}

theorem made_nil (ha : st.header arena = a) : Made arena bufSize a st st [] := by
  subst ha
  constructor
  · rfl
  · rw [List.length_nil, Nat.zero_mul, Nat.add_zero]
  · exact Nat.le_refl _
  · exact fun _ hp => absurd hp List.not_mem_nil
  · exact fun _ _ _ => rfl

/-- One more buffer in front: it keeps its header while the later ones are made. -/
theorem Made.cons (hcur : (a.cur + uArenaSize + bufSize).toNat =
      a.cur.toNat + (uArenaSize.toNat + bufSize.toNat)) (hne : a.top ≠ arena)
    (hheader : st₁.header a.top = uaInit false false true bufSize (a.top + uArenaSize.toNat))
    (hkept : ∀ q, q ≠ arena → q ≠ a.top → st₁.header q = st.header q)
    (h : Made arena bufSize { a with cur := a.cur + uArenaSize + bufSize } st₁ st' headers) :
    Made arena bufSize a st st' (a.top :: headers) := by
  have htop : ({ a with cur := a.cur + uArenaSize + bufSize } : UArena).top =
      a.top + (uArenaSize.toNat + bufSize.toNat) := by
    change a.mem + (a.cur + uArenaSize + bufSize).toNat = a.mem + a.cur.toNat + _
    rw [hcur, Nat.add_assoc]
  have hheaderSize : uArenaSize.toNat = 32 := rfl
  have hlater := h.header
  have hearlier := h.kept
  rw [htop] at hlater hearlier
  constructor
  · exact h.parent
  · have hcount := h.cur
    rw [hcur] at hcount
    rw [hcount, List.length_cons, Nat.succ_mul]
    omega
  · have hstacked := h.stacked
    rw [htop, ← Nat.add_assoc] at hstacked
    exact ⟨Nat.le_refl _, Nat.le_refl _, hstacked⟩
  · intro p hp
    rcases List.mem_cons.mp hp with rfl | hin
    · have hlt : a.top < a.top + (uArenaSize.toNat + bufSize.toNat) :=
        Nat.lt_add_of_pos_right (by omega)
      exact ⟨Nat.le_refl _, (hearlier _ hne hlt).trans hheader⟩
    · obtain ⟨hle, hsame⟩ := hlater p hin
      exact ⟨by omega, hsame⟩
  · intro q hq hlt
    rw [hearlier q hq (Nat.lt_of_lt_of_le hlt (Nat.le_add_right _ _))]
    exact hkept q hq (Nat.ne_of_lt hlt)

end Made

/-- Buffers that all fit lie one after another. -/
theorem bootstrapBuffers_of_fits {arena : Addr} {bufSize : UInt64} (n : ℕ) {st : Heads UArena}
    {a : UArena} (ha : st.header arena = a) (hout : arena ∉ a.area.cells)
    (h : a.cur.toNat + n * (uArenaSize.toNat + bufSize.toNat) ≤ a.cap.toNat) :
    ∃ (headers : List ℕ) (st' : Heads UArena),
      bootstrapBuffers arena bufSize n st = some (headers.map some, st') ∧
        headers.length = n ∧ Made arena bufSize a st st' headers := by
  induction n generalizing st a with
  | zero => exact ⟨[], st, rfl, rfl, made_nil ha⟩
  | succ n ih =>
      rw [Nat.succ_mul] at h
      have hcap := a.cap.toNat_lt
      have hheaderSize : uArenaSize.toNat = 32 := rfl
      have hfits : a.cur.toNat + (uArenaSize.toNat + bufSize.toNat) ≤ a.cap.toNat := by omega
      obtain ⟨st₁, hboot, hparent, hheader, hkept⟩ := arenaBootstrap_of_fits ha hout hfits
      have hcur : (a.cur + uArenaSize + bufSize).toNat =
          a.cur.toNat + (uArenaSize.toNat + bufSize.toNat) := by
        have hfirst : (a.cur + uArenaSize).toNat = a.cur.toNat + uArenaSize.toNat :=
          toNat_cur_add (by omega)
        rw [Word.toNat_add_of_lt (by omega), hfirst, Nat.add_assoc]
      have hne : a.top ≠ arena := by
        rintro rfl
        have hlt : a.cur.toNat < a.cap.toNat := by omega
        exact hout ⟨Nat.le_add_right _ _, Nat.add_lt_add_left hlt a.mem⟩
      obtain ⟨headers, st', hloop, hlen, hmade⟩ := ih hparent hout (by
        change (a.cur + uArenaSize + bufSize).toNat + _ ≤ a.cap.toNat
        omega)
      refine ⟨a.top :: headers, st', ?_, ?_, hmade.cons hcur hne hheader hkept⟩
      · rw [bootstrapBuffers, hboot, Option.bind_some, hloop]
        rfl
      · rw [List.length_cons, hlen]

/-- The pipe, its array and its buffers. -/
def SdpPipe.spans (pipe : SdpPipe) (heads : Heads UArena) : List Span :=
  ⟨pipe.address, sdpSize.toNat⟩ :: ⟨pipe.array, pointerSize.toNat * pipe.buffers.length⟩ ::
    pipe.buffers.flatMap fun b => b.toList.flatMap fun p =>
      [⟨p, uArenaSize.toNat⟩, (heads.header p).area]

/-- `BufCount` buffers of the capacity asked for, everything apart and inside the
    backing arena, and nothing of it left. -/
structure Fills (r : SdpReturn) (pipe : SdpPipe) (bufCount bufSize : UInt64) : Prop where
  count : pipe.buffers.length = bufCount.toNat
  buffers : ∀ b ∈ pipe.buffers, ∃ p, b = some p ∧ 0 < p ∧ (r.heads.header p).cap = bufSize
  apart : Span.PairwiseDisjoint (pipe.spans r.heads)
  inside : ∀ s ∈ pipe.spans r.heads, (r.heads.header r.arena).area.start ≤ s.start ∧
    s.stop ≤ (r.heads.header r.arena).area.stop
  full : (r.heads.header r.arena).cur = (r.heads.header r.arena).cap

theorem toNat_pipeSize {bufCount bufSize : UInt64}
    (h : 64 + 8 * bufCount.toNat + 32 * bufCount.toNat + bufCount.toNat * bufSize.toNat < 2 ^ 64) :
    (pipeSize bufCount bufSize).toNat =
      64 + 8 * bufCount.toNat + 32 * bufCount.toNat + bufCount.toNat * bufSize.toNat := by
  have hsdp : sdpSize.toNat = 64 := rfl
  have hpointer : pointerSize.toNat = 8 := rfl
  have hheader : uArenaSize.toNat = 32 := rfl
  simp only [pipeSize, UInt64.toNat_add, UInt64.toNat_mul, hsdp, hpointer, hheader, Nat.mod_add_mod,
    Nat.add_mod_mod]
  rw [Nat.mod_eq_of_lt (by omega)]
  omega

/-- An `ArenaCreate` whose `mmap` succeeds. -/
theorem uaCreate_of_mmap {line : CacheLine} {sys : System} {cap : UInt64}
    {base : { base : Addr // IsFresh [] base (arenaCacheAlignedSz line + cap).toNat }}
    (hmmap : sys .mmap (arenaCacheAlignedSz line + cap) [] = some base)
    (hsize : (arenaCacheAlignedSz line).toNat + cap.toNat < 2 ^ 64) :
    uaCreate line sys cap true false =
      some (some (base.1,
          uaInit true false false cap (base.1 + (arenaCacheAlignedSz line).toNat)),
        [⟨.mmap, ⟨base.1, (arenaCacheAlignedSz line + cap).toNat⟩⟩]) := by
  have hend := base.2.2.1
  have hheader := headerBytes_le line
  have hne : base.1 ≠ mapFailed :=
    Nat.ne_of_lt (Nat.lt_of_le_of_lt (Nat.le_add_right _ _) hend)
  have htotal := Word.toNat_add_of_lt hsize
  have hroom : base.1 + headerBytes.toNat ≤
      base.1 + (arenaCacheAlignedSz line + cap).toNat := by
    apply Nat.add_le_add_left
    omega
  simp only [uaCreate, System.mmap, obtain_of_some sys hmmap, Bool.false_eq_true, if_false, if_true,
    Option.getD_some, hne, List.nil_append]
  unfold initArena
  rw [if_pos ⟨_, List.mem_singleton_self _, Nat.le_refl _, hroom⟩]

variable {arena : Addr} {st : Heads UArena} {a : UArena} {bufCount bufSize : UInt64}

/-- On an empty arena with room for everything the pushes lie one after another. -/
theorem layOut_of_fits (ha : st.header arena = a) (hout : arena ∉ a.area.cells)
    (hempty : a.cur = 0)
    (h : 64 + 8 * bufCount.toNat + bufCount.toNat * (uArenaSize.toNat + bufSize.toNat) ≤
      a.cap.toNat) :
    ∃ (headers : List ℕ) (st₂ st' : Heads UArena) (a₂ : UArena),
      layOut st arena bufCount bufSize =
          some ⟨a.mem, a.mem + 64, headers.map some, st'⟩ ∧
        headers.length = bufCount.toNat ∧ a₂.mem = a.mem ∧ a₂.cap = a.cap ∧
        a₂.cur.toNat = 64 + 8 * bufCount.toNat ∧ Made arena bufSize a₂ st₂ st' headers := by
  have hcap := a.cap.toNat_lt
  have hsdp : sdpSize.toNat = 64 := rfl
  have hpointer : pointerSize.toNat = 8 := rfl
  have hzero : a.cur.toNat = 0 := by
    rw [hempty]
    rfl
  have harray : (pointerSize * bufCount).toNat = 8 * bufCount.toNat := by
    rw [UInt64.toNat_mul, hpointer, Nat.mod_eq_of_lt (by omega)]
  have hwords : ¬ 2 ^ 64 ≤ pointerSize.toNat * bufCount.toNat := by
    rw [hpointer]
    omega
  -- the struct
  have hfirst : a.cur.toNat + sdpSize.toNat ≤ a.cap.toNat := by omega
  have hcur₁ := toNat_cur_add hfirst
  -- the array
  have hsecond : (a.cur + sdpSize).toNat + (pointerSize * bufCount).toNat ≤ a.cap.toNat := by omega
  have hcur₂ : (a.cur + sdpSize + pointerSize * bufCount).toNat = 64 + 8 * bufCount.toNat := by
    rw [Word.toNat_add_of_lt] <;> omega
  have htop₁ : ({ a with cur := a.cur + sdpSize } : UArena).top = a.mem + 64 := by
    change a.mem + (a.cur + sdpSize).toNat = a.mem + 64
    rw [hcur₁, hzero, hsdp]
  have htop : a.top = a.mem := by
    change a.mem + a.cur.toNat = a.mem
    rw [hzero, Nat.add_zero]
  obtain ⟨headers, st', hloop, hlen, hmade⟩ :=
    @bootstrapBuffers_of_fits arena bufSize bufCount.toNat
      ((st.setHeader arena { a with cur := a.cur + sdpSize }).setHeader arena
        { a with cur := a.cur + sdpSize + pointerSize * bufCount }) _
      (header_setHeader ..) hout (by
        change (a.cur + sdpSize + pointerSize * bufCount).toNat + _ ≤ a.cap.toNat
        omega)
  have hstruct := arenaPush_of_fits ha hfirst
  have hpointers := @arenaPush_of_fits (st.setHeader arena { a with cur := a.cur + sdpSize }) arena
    { a with cur := a.cur + sdpSize } (pointerSize * bufCount) (header_setHeader ..) hsecond
  rw [htop] at hstruct
  rw [htop₁] at hpointers
  refine ⟨headers, _, st', { a with cur := a.cur + sdpSize + pointerSize * bufCount }, ?_, hlen,
    rfl, rfl, hcur₂, hmade⟩
  simp only [layOut, hstruct, hpointers, Option.bind_some, if_neg hwords, hloop, Option.map_some]

/-- The spans of a pipe whose buffers the loop has made are stacked from the struct to
    the cursor of the arena. -/
theorem stacked_spans {st' : Heads UArena} {headers : List ℕ} {pipe : SdpPipe} {mem : ℕ}
    (hmade : Made arena bufSize a st st' headers) (haddress : pipe.address = mem)
    (harray : pipe.array = mem + 64) (hbuffers : pipe.buffers = headers.map some)
    (htop : a.top = mem + 64 + 8 * headers.length) :
    Span.Stacked (st'.header arena).top mem (pipe.spans st') := by
  have hflat : (pipe.buffers.flatMap fun b => b.toList.flatMap fun p =>
      [⟨p, uArenaSize.toNat⟩, (st'.header p).area]) = headers.flatMap (bufferSpans bufSize) := by
    rw [hbuffers, List.flatMap_map]
    apply List.flatMap_congr
    intro p hp
    rw [Option.toList_some, List.flatMap_singleton, (hmade.header p hp).2]
    rfl
  have hstart : (⟨pipe.array, pointerSize.toNat * pipe.buffers.length⟩ : Span).stop = a.top := by
    change pipe.array + pointerSize.toNat * pipe.buffers.length = a.top
    rw [harray, hbuffers, List.length_map, htop]
    rfl
  unfold SdpPipe.spans
  rw [hflat]
  refine ⟨Nat.le_of_eq haddress.symm, ?_, ?_⟩
  · rw [haddress, harray]
    exact Nat.le_refl _
  · rw [hstart]
    exact hmade.stacked

/-- In an arena of exactly the size that the formula gives, the pushes fill it. -/
theorem layOut_of_pipeSize (ha : st.header arena = a) (hout : arena ∉ a.area.cells)
    (hempty : a.cur = 0) (hcap : a.cap = pipeSize bufCount bufSize)
    (h : 64 + 8 * bufCount.toNat + 32 * bufCount.toNat + bufCount.toNat * bufSize.toNat < 2 ^ 64) :
    ∃ (headers : List ℕ) (st₂ st' : Heads UArena) (a₂ : UArena),
      layOut st arena bufCount bufSize =
          some ⟨a.mem, a.mem + 64, headers.map some, st'⟩ ∧
        headers.length = bufCount.toNat ∧ Made arena bufSize a₂ st₂ st' headers ∧
        a₂.top = a.mem + 64 + 8 * headers.length ∧ (st'.header arena).mem = a.mem ∧
        (st'.header arena).cur = pipeSize bufCount bufSize ∧ (st'.header arena).cap = a.cap := by
  have htotal := toNat_pipeSize h
  have hneeded : bufCount.toNat * (uArenaSize.toNat + bufSize.toNat) =
      32 * bufCount.toNat + bufCount.toNat * bufSize.toNat := by
    have huarena : uArenaSize.toNat = 32 := rfl
    rw [huarena]
    ring
  have hfits : 64 + 8 * bufCount.toNat + bufCount.toNat * (uArenaSize.toNat + bufSize.toNat) ≤
      a.cap.toNat := by
    rw [hcap]
    omega
  obtain ⟨headers, st₂, st', a₂, hlaid, hlen, hmem₂, hcap₂, hcur₂, hmade⟩ :=
    layOut_of_fits ha hout hempty hfits
  have hcur := hmade.cur
  rw [hlen, hcur₂, hneeded] at hcur
  refine ⟨headers, st₂, st', a₂, hlaid, hlen, hmade, ?_, ?_, ?_, ?_⟩
  · change a₂.mem + a₂.cur.toNat = _
    rw [hmem₂, hcur₂, hlen, ← Nat.add_assoc]
  · rw [hmade.parent]
    exact hmem₂
  · apply UInt64.toNat_inj.mp
    omega
  · rw [hmade.parent]
    exact hcap₂

/-- A pipe laid out in an arena that is full then fills it. -/
theorem fills_of_made {r : SdpReturn} {pipe : SdpPipe} {headers : List ℕ} {mem : ℕ}
    (hmade : Made r.arena bufSize a st r.heads headers) (haddress : pipe.address = mem)
    (harray : pipe.array = mem + 64) (hbuffers : pipe.buffers = headers.map some)
    (hlen : headers.length = bufCount.toNat) (htop : a.top = mem + 64 + 8 * headers.length)
    (hmem : (r.heads.header r.arena).mem = mem)
    (hfull : (r.heads.header r.arena).cur = (r.heads.header r.arena).cap) :
    Fills r pipe bufCount bufSize := by
  have hstacked := stacked_spans hmade haddress harray hbuffers htop
  have hstop : (r.heads.header r.arena).top = (r.heads.header r.arena).area.stop := by
    change (r.heads.header r.arena).mem + (r.heads.header r.arena).cur.toNat =
      (r.heads.header r.arena).mem + (r.heads.header r.arena).cap.toNat
    rw [hfull]
  constructor
  · rw [hbuffers, List.length_map, hlen]
  · intro b hb
    rw [hbuffers] at hb
    obtain ⟨p, hp, rfl⟩ := List.mem_map.mp hb
    obtain ⟨hle, hheader⟩ := hmade.header p hp
    refine ⟨p, rfl, ?_, ?_⟩
    · apply Nat.lt_of_lt_of_le _ hle
      rw [htop]
      exact Nat.add_pos_left (Nat.add_pos_right _ (Nat.succ_pos 63)) _
    · rw [hheader]
      rfl
  · exact hstacked.pairwiseDisjoint
  · intro s hs
    rw [← hstop]
    change (r.heads.header r.arena).mem ≤ s.start ∧ _
    rw [hmem]
    exact hstacked.bounds s hs
  · exact hfull

/-- **The size formula is exact**: the pipe that `SdpCreate` makes in an arena of its
    own fills it to the last byte. -/
theorem sdpCreate_fills (line : CacheLine) (sys : System) (readFd writeFd : ℕ) (st : Heads UArena)
    (bufCount bufSize : UInt64)
    (hsize : 64 + 8 * bufCount.toNat + 32 * bufCount.toNat + bufCount.toNat * bufSize.toNat ≤
      2 ^ 64 - 1 - (arenaCacheAlignedSz line).toNat)
    (hmmap : (sys .mmap (arenaCacheAlignedSz line + pipeSize bufCount bufSize) []).isSome) :
    ∃ r pipe, sdpCreate line sys (some readFd) (some writeFd) st bufCount bufSize none = some r ∧
      r.pipe = some pipe ∧ Fills r pipe bufCount bufSize := by
  have hheader := headerBytes_le line
  have hheaderSize : headerBytes.toNat = 32 := rfl
  have hword := (arenaCacheAlignedSz line).toNat_lt
  have hwords : 64 + 8 * bufCount.toNat + 32 * bufCount.toNat + bufCount.toNat * bufSize.toNat <
      2 ^ 64 := by omega
  have htotal := toNat_pipeSize hwords
  obtain ⟨base, hbase⟩ := Option.isSome_iff_exists.mp hmmap
  have hcreate := uaCreate_of_mmap hbase (by omega)
  -- the fresh arena: its memory starts behind its header
  have hout : base.1 ∉ (uaInit true false false (pipeSize bufCount bufSize)
      (base.1 + (arenaCacheAlignedSz line).toNat)).area.cells := by
    intro hin
    have hle : base.1 + (arenaCacheAlignedSz line).toNat ≤ base.1 := hin.1
    exact absurd hle (Nat.not_le.mpr (Nat.lt_add_of_pos_right (by omega)))
  obtain ⟨headers, st₂, st', a₂, hlaid, hlen, hmade, htop, hmem, hfull, hcap⟩ :=
    layOut_of_pipeSize (header_setHeader st base.1 (uaInit true false false
      (pipeSize bufCount bufSize) (base.1 + (arenaCacheAlignedSz line).toNat))) hout rfl rfl hwords
  have hblock := Word.toNat_add_of_lt (a := arenaCacheAlignedSz line)
    (b := pipeSize bufCount bufSize) (by omega)
  have hbacked : Backed [⟨.mmap, ⟨base.1,
      (arenaCacheAlignedSz line + pipeSize bufCount bufSize).toNat⟩⟩] (st'.header base.1) := by
    intro b hb
    rw [List.mem_singleton.mp hb]
    change (st'.header base.1).mem + (st'.header base.1).cur.toNat ≤
      base.1 + (arenaCacheAlignedSz line + pipeSize bufCount bufSize).toNat
    rw [hmem, hfull]
    exact Nat.le_of_eq ((Nat.add_assoc _ _ _).trans (congrArg (base.1 + ·) hblock.symm))
  refine ⟨sdpEnd line (some readFd) (some writeFd) bufCount false 0 base.1
    ⟨base.1 + (arenaCacheAlignedSz line).toNat, base.1 + (arenaCacheAlignedSz line).toNat + 64,
      headers.map some, st'⟩ [⟨.mmap, ⟨base.1,
        (arenaCacheAlignedSz line + pipeSize bufCount bufSize).toNat⟩⟩], _, ?_, rfl, ?_⟩
  · unfold sdpCreate sdpArena
    rw [hcreate, Option.bind_some, Option.map_some, Option.bind_some, hlaid, Option.bind_some,
      if_pos hbacked]
    rfl
  · exact fills_of_made hmade rfl rfl rfl hlen htop hmem (hfull.trans hcap.symm)

/-- Two buffers of 16 bytes, in a block of 240. -/
theorem sdpCreate_fills_two :
    ∃ r pipe, sdpCreate lineOf64 oneBlock (some 5) (some 6) emptyHundred 2 16 none = some r ∧
      r.pipe = some pipe ∧ Fills r pipe 2 16 :=
  sdpCreate_fills lineOf64 oneBlock 5 6 emptyHundred 2 16 (by decide) (by decide)

end Exact

end Lmalloc.Pipe.Create
