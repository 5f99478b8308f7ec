/-
  Lmalloc/Pipe/Destroy.lean
  =========================
  **Whether what `SdpCreate` takes is given back.**

  `SdpCreate` opens two descriptors and takes memory from an arena.  With one
  descriptor missing it gives the memory back and leaves the other descriptor open.
  `SdpDestroy` closes both; without a caller's arena it hands the pipe to `free`,
  which is a place inside a block that `mmap` returned (`sdpCreate_paired_iff`).

  A caller's arena keeps what was pushed onto it until its owner takes it back.
-/
import Lmalloc.Pipe.Create

namespace Lmalloc.Pipe.Create

open Lmalloc.Library Lmalloc.Arena

/-! ### What the pushes leave of the arena -/

/-- The same arena with its cursor moved up. -/
structure Advanced (a a' : UArena) : Prop where
  same : a' = { a with cur := a'.cur }
  le : a.cur.toNat ≤ a'.cur.toNat
  le_cap : a'.cur.toNat ≤ a'.cap.toNat

theorem Advanced.refl {a : UArena} (h : a.cur.toNat ≤ a.cap.toNat) : Advanced a a :=
  ⟨rfl, Nat.le_refl _, h⟩

theorem Advanced.trans {a b c : UArena} (h : Advanced a b) (h' : Advanced b c) : Advanced a c := by
  refine ⟨?_, Nat.le_trans h.le h'.le, h'.le_cap⟩
  rw [h'.same, h.same]

theorem Advanced.area_eq {a b : UArena} (h : Advanced a b) : b.area = a.area := by
  rw [h.same]
  rfl

/-- A push that does not wrap moves the cursor up, if it moves it. -/
theorem advanced_uaAlloc {a : UArena} {size : UInt64} (h : a.cur.toNat ≤ a.cap.toNat)
    (hwords : ¬ Overflows a size) : Advanced a (uaAlloc a size).2 := by
  have hlt : a.cur.toNat + size.toNat < 2 ^ 64 := Nat.lt_of_not_le hwords
  rw [uaAlloc_of_lt hlt]
  split
  · rename_i hfit
    have hcur := toNat_cur_add hfit
    refine ⟨rfl, ?_, ?_⟩
    · change a.cur.toNat ≤ (a.cur + size).toNat
      omega
    · change (a.cur + size).toNat ≤ a.cap.toNat
      omega
  · exact Advanced.refl h

theorem uaZalloc_snd (a : UArena) (size : UInt64) (m : Memory) :
    (uaZalloc a size m).2.1 = (uaAlloc a size).2 := by
  unfold uaZalloc uaAlloc
  split <;> rfl

/-- What a push returns is inside the arena. -/
theorem mem_area_of_uaAlloc {a : UArena} {size : UInt64} {p : Addr} (hpos : 0 < size.toNat)
    (hwords : ¬ Overflows a size) (h : (uaAlloc a size).1 = some p) : p ∈ a.area.cells := by
  have hlt : a.cur.toNat + size.toNat < 2 ^ 64 := Nat.lt_of_not_le hwords
  rw [uaAlloc_of_lt hlt] at h
  split at h
  · rename_i hfit
    cases h
    have hbelow : a.cur.toNat < a.cap.toNat := by omega
    exact ⟨Nat.le_add_right _ _, Nat.add_lt_add_left hbelow a.mem⟩
  · exact absurd h nofun

section Headers

variable {st : Heads UArena} {arena : Addr}

/-- Where the header of an arena in use is: not in the memory it hands out. -/
structure Usable (st : Heads UArena) (arena : Addr) : Prop where
  cur_le : (st.header arena).cur.toNat ≤ (st.header arena).cap.toNat
  apart : arena ∉ (st.header arena).area.cells

theorem Usable.of_advanced {st' : Heads UArena} (h : Usable st arena)
    (hadvanced : Advanced (st.header arena) (st'.header arena)) : Usable st' arena := by
  refine ⟨hadvanced.le_cap, ?_⟩
  rw [hadvanced.area_eq]
  exact h.apart

theorem Usable.arenaPush (h : Usable st arena) {size : UInt64}
    {r : Option Addr × Heads UArena} (hr : arenaPush st arena size = some r) :
    Advanced (st.header arena) (r.2.header arena) ∧
      (r.1 ≠ none → (r.2.header arena).cur.toNat = (st.header arena).cur.toNat + size.toNat) := by
  unfold Create.arenaPush at hr
  split at hr
  · exact absurd hr nofun
  · rename_i hwords
    cases hr
    rw [header_setHeader]
    refine ⟨advanced_uaAlloc h.cur_le hwords, ?_⟩
    have hlt : (st.header arena).cur.toNat + size.toNat < 2 ^ 64 := Nat.lt_of_not_le hwords
    rw [uaAlloc_of_lt hlt]
    split
    · rename_i hfit
      exact fun _ => toNat_cur_add hfit
    · exact fun hnull => absurd rfl hnull

theorem header_bootstrapMem {pushMem : UArena → Memory → Option Addr × UArena × Memory}
    {init : Addr → UArena} {new : Option Addr} (hnew : ∀ p, new = some p → p ≠ arena) :
    (bootstrapMem pushMem init st arena new).2.header arena =
      (pushMem (st.header arena) st.memory).2.1 := by
  cases new with
  | none => exact (bootstrapMem_null init none (Or.inl rfl)).2
  | some p =>
      cases hmem : (pushMem (st.header arena) st.memory).1 with
      | none => exact (bootstrapMem_null init (some p) (Or.inr hmem)).2
      | some mem =>
          unfold bootstrapMem
          simp only [hmem]
          rw [header_setHeader_ne (hnew p rfl).symm]
          exact Function.update_self ..

theorem Usable.arenaBootstrap (h : Usable st arena) {bufSize : UInt64}
    {r : Option Addr × Heads UArena} (hr : arenaBootstrap st arena bufSize = some r) :
    Advanced (st.header arena) (r.2.header arena) := by
  unfold Create.arenaBootstrap at hr
  split at hr
  · exact absurd hr nofun
  · rename_i hwords
    obtain ⟨hheader, hmem⟩ := not_or.mp hwords
    cases hr
    have hfirst := advanced_uaAlloc h.cur_le hheader
    have hnew : ∀ p, (uaAlloc (st.header arena) uArenaSize).1 = some p → p ≠ arena := by
      rintro p hp rfl
      exact h.apart (mem_area_of_uaAlloc (by decide) hheader hp)
    unfold uaBootstrap bootstrapOf
    rw [header_bootstrapMem hnew, header_setHeader, uaZalloc_snd]
    exact hfirst.trans (advanced_uaAlloc hfirst.le_cap hmem)

theorem Usable.bootstrapBuffers {bufSize : UInt64} {n : ℕ} (h : Usable st arena)
    {r : List (Option Addr) × Heads UArena}
    (hr : bootstrapBuffers arena bufSize n st = some r) :
    Advanced (st.header arena) (r.2.header arena) := by
  induction n generalizing st r with
  | zero =>
      cases hr
      exact Advanced.refl h.cur_le
  | succ n ih =>
      unfold Create.bootstrapBuffers at hr
      obtain ⟨s, hs, hr⟩ := Option.bind_eq_some_iff.mp hr
      obtain ⟨rest, hrest, rfl⟩ := Option.map_eq_some_iff.mp hr
      have hfirst := h.arenaBootstrap hs
      have hlater := ih (h.of_advanced hfirst) hrest
      exact hfirst.trans hlater

/-- The layout moves the arena's cursor up, by the struct at least. -/
theorem Usable.layOut (h : Usable st arena) {bufCount bufSize : UInt64} {laid : Layout}
    (hlaid : layOut st arena bufCount bufSize = some laid) :
    Advanced (st.header arena) (laid.heads.header arena) ∧
      (st.header arena).cur.toNat < (laid.heads.header arena).cur.toNat := by
  unfold Create.layOut at hlaid
  obtain ⟨p, hp, hlaid⟩ := Option.bind_eq_some_iff.mp hlaid
  obtain ⟨a, ha, hlaid⟩ := Option.bind_eq_some_iff.mp hlaid
  obtain ⟨pipe, hpipe, hlaid⟩ := Option.bind_eq_some_iff.mp hlaid
  obtain ⟨array, harray, hlaid⟩ := Option.bind_eq_some_iff.mp hlaid
  split at hlaid
  · exact absurd hlaid nofun
  · obtain ⟨b, hb, rfl⟩ := Option.map_eq_some_iff.mp hlaid
    obtain ⟨hfirst, hstruct⟩ := h.arenaPush hp
    have husable := h.of_advanced hfirst
    obtain ⟨hsecond, -⟩ := husable.arenaPush ha
    have hrest := (husable.of_advanced hsecond).bootstrapBuffers hb
    have hcur := hstruct (by simp [hpipe])
    have hsize : sdpSize.toNat = 64 := rfl
    have hlater := (hsecond.trans hrest).le
    refine ⟨hfirst.trans (hsecond.trans hrest), ?_⟩
    change (st.header arena).cur.toNat < (b.2.header arena).cur.toNat
    omega

end Headers

/-! ### The pairing -/

/-- After a `NULL` the descriptors are closed, the blocks that were obtained are given
    back, and a caller's arena is where it was.  With a pipe, `SdpDestroy` closes the
    descriptors and gives the blocks back, each by the call that matches its own. -/
structure Paired (arena : Option Addr) (st : Heads UArena) (r : SdpReturn) : Prop where
  null : r.pipe = none → r.closed.Perm r.opened ∧
    r.givenBack.Perm (r.obtained.map Block.giveBack) ∧
    ∀ p, arena = some p → (r.heads.header p).cur = (st.header p).cur
  pipe : ∀ pipe, r.pipe = some pipe → (sdpDestroy pipe arena.isSome).1.Perm r.opened ∧
    (sdpDestroy pipe arena.isSome).2.Perm (r.obtained.map Block.giveBack)

/-- Both calls of `eventfd` come to the same, and in an arena of its own both fail. -/
def DescriptorsMatch (readFd writeFd : Option ℕ) (arena : Option Addr) : Prop :=
  readFd.isSome = writeFd.isSome ∧ (arena = none → readFd = none)

section Pairing

variable {line : CacheLine} {sys : System} {readFd writeFd : Option ℕ} {st : Heads UArena}
  {bufCount bufSize : UInt64} {arena : Option Addr}

/-- The arena that `SdpCreate` makes, if `mmap` gives it the block. -/
structure OwnArena (line : CacheLine) (cap : UInt64)
    (own : Addr × Heads UArena × List Block) : Prop where
  header : own.2.1.header own.1 =
    uaInit true false false cap (own.1 + (arenaCacheAlignedSz line).toNat)
  obtained : own.2.2 = [⟨.mmap, ⟨own.1, (arenaCacheAlignedSz line + cap).toNat⟩⟩]

theorem ownArena_of_sdpArena {own : Addr × Heads UArena × List Block}
    (h : sdpArena line sys st bufCount bufSize none = some own) :
    OwnArena line (pipeSize bufCount bufSize) own := by
  unfold sdpArena at h
  obtain ⟨⟨created, obtained⟩, hcreate, h⟩ := Option.bind_eq_some_iff.mp h
  obtain ⟨⟨p, ua⟩, hua, rfl⟩ := Option.map_eq_some_iff.mp h
  obtain rfl : created = some (p, ua) := hua
  rcases hsys : sys .mmap (arenaCacheAlignedSz line + pipeSize bufCount bufSize) [] with _ | base
  · -- `ArenaCreate` has returned a null pointer
    simp only [uaCreate, System.mmap, obtain_of_none sys hsys, Bool.false_eq_true, if_false,
      if_true, Option.getD_none] at hcreate
    cases hcreate
  · simp only [uaCreate, System.mmap, obtain_of_some sys hsys, Bool.false_eq_true, if_false,
      if_true, Option.getD_some, List.nil_append] at hcreate
    split at hcreate
    · cases hcreate
    · unfold initArena at hcreate
      split at hcreate
      · cases hcreate
        exact ⟨header_setHeader .., rfl⟩
      · cases hcreate

namespace OwnArena

variable {cap : UInt64} {own : Addr × Heads UArena × List Block}

theorem usable (h : OwnArena line cap own) : Usable own.2.1 own.1 := by
  constructor
  · rw [h.header]
    exact Nat.zero_le _
  · rw [h.header]
    intro hin
    have hle : own.1 + (arenaCacheAlignedSz line).toNat ≤ own.1 := hin.1
    have hheader := headerBytes_le line
    have hsize : headerBytes.toNat = 32 := rfl
    exact absurd hle (Nat.not_le.mpr (Nat.lt_add_of_pos_right (by omega)))

/-- Destroying it gives back the block. -/
theorem givenBack (h : OwnArena line cap own) {a : UArena}
    (ha : Advanced (own.2.1.header own.1) a) :
    (uaDestroy line (some (own.1, a))).1 = own.2.2.map Block.giveBack := by
  have hcur : ∀ (b : UArena) (cur : UInt64),
      (uaDestroy line (some (own.1, { b with cur := cur }))).1 =
        (uaDestroy line (some (own.1, b))).1 := by
    intro b cur
    simp only [uaDestroy]
    split_ifs <;> rfl
  have hmem : own.1 + (arenaCacheAlignedSz line).toNat ≠ 0 := by
    have hheader := headerBytes_le line
    have hsize : headerBytes.toNat = 32 := rfl
    exact Nat.ne_of_gt (Nat.add_pos_right _ (by omega))
  rw [ha.same, hcur, h.header, uaDestroy_uaInit line cap true false hmem, h.obtained]
  simp only [Bool.false_eq_true, if_false, if_true, List.map_cons, List.map_nil, Block.giveBack,
    UInt64.ofNat_toNat]

end OwnArena

/-- How far a call that returns has come. -/
theorem sdpCreate_eq_some {r : SdpReturn}
    (h : sdpCreate line sys readFd writeFd st bufCount bufSize arena = some r) :
    ∃ own laid, sdpArena line sys st bufCount bufSize arena = some own ∧
      layOut own.2.1 own.1 bufCount bufSize = some laid ∧
      r = sdpEnd line readFd writeFd bufCount arena.isSome (own.2.1.header own.1).cur own.1 laid
        own.2.2 := by
  unfold sdpCreate at h
  obtain ⟨own, hown, h⟩ := Option.bind_eq_some_iff.mp h
  obtain ⟨laid, hlaid, h⟩ := Option.bind_eq_some_iff.mp h
  split at h
  · cases h
    exact ⟨own, laid, hown, hlaid, rfl⟩
  · cases h

variable {f5 : UInt64} {p : Addr} {laid : Layout} {obtained : List Block}

/-- With one descriptor missing the other stays open. -/
theorem not_paired_of_one {r : SdpReturn} (hnull : r.pipe = none) (hclosed : r.closed = [])
    (hopened : r.opened ≠ []) : ¬ Paired arena st r := by
  intro h
  have hperm := (h.null hnull).1
  rw [hclosed, List.nil_perm] at hperm
  exact hopened hperm

/-- The seek after a failure takes the arena back to where it was. -/
theorem cur_uaSeek {a a' : UArena} (h : Advanced a a') : (uaSeek a' a.cur).2.cur = a.cur := by
  have hle : a.cur ≤ a'.cap := by
    rw [UInt64.le_iff_toNat_le]
    exact Nat.le_trans h.le h.le_cap
  unfold uaSeek
  rw [if_pos hle]

/-- With both missing nothing is left, as long as what has been obtained is what an
    arena of its own gives back. -/
theorem paired_of_none (hp : ∀ q, arena = some q → q = p ∧ f5 = (st.header q).cur)
    (hadvanced : ∀ q, arena = some q → Advanced (st.header q) (laid.heads.header q))
    (hback : (if arena.isSome then [] else
      (uaDestroy line (some (p, laid.heads.header p))).1) = obtained.map Block.giveBack) :
    Paired arena st (sdpEnd line none none bufCount arena.isSome f5 p laid obtained) := by
  constructor
  · intro _
    refine ⟨List.Perm.refl _, ?_, ?_⟩
    · exact List.Perm.of_eq hback
    · intro q hq
      obtain ⟨rfl, rfl⟩ := hp q hq
      have hheads : (sdpEnd line none none bufCount arena.isSome (st.header q).cur q laid
          obtained).heads = laid.heads.setHeader q
            (uaSeek (laid.heads.header q) (st.header q).cur).2 := by
        rw [hq]
        rfl
      rw [hheads, header_setHeader]
      exact cur_uaSeek (hadvanced q hq)
  · exact fun _ hpipe => absurd hpipe nofun

/-- With both there, `SdpDestroy` closes them; what it frees is the pipe's address. -/
theorem paired_of_some {readFd writeFd : ℕ} :
    Paired arena st (sdpEnd line (some readFd) (some writeFd) bufCount arena.isSome f5 p laid
        obtained) ↔
      (if arena.isSome then [] else [GiveBack.free laid.pipe]).Perm
        (obtained.map Block.giveBack) := by
  constructor
  · exact fun h => (h.pipe _ rfl).2
  · intro hperm
    refine ⟨fun hnull => absurd hnull nofun, ?_⟩
    intro pipe hpipe
    cases hpipe
    exact ⟨List.Perm.refl _, hperm⟩

/-- A call that returns is paired exactly if its two descriptors come to the same,
    and in an arena of its own both are missing.  With a pipe in the caller's arena
    the position is where the pushes have left it. -/
theorem sdpCreate_paired_iff (line : CacheLine) (sys : System) (readFd writeFd : Option ℕ)
    (st : Heads UArena) (bufCount bufSize : UInt64) (arena : Option Addr) (r : SdpReturn)
    (harena : ∀ p, arena = some p → Usable st p)
    (hreturns : sdpCreate line sys readFd writeFd st bufCount bufSize arena = some r) :
    (Paired arena st r ↔ DescriptorsMatch readFd writeFd arena) ∧
      ∀ p, arena = some p → r.pipe ≠ none →
        (st.header p).cur.toNat < (r.heads.header p).cur.toNat := by
  obtain ⟨own, laid, hown, hlaid, rfl⟩ := sdpCreate_eq_some hreturns
  cases arena with
  | none =>
      have hfresh := ownArena_of_sdpArena hown
      have hadvanced := (hfresh.usable.layOut hlaid).1
      refine ⟨?_, fun p hp => absurd hp nofun⟩
      rcases readFd with _ | readFd <;> rcases writeFd with _ | writeFd
      · apply iff_of_true
        · apply paired_of_none
          · exact fun q hq => absurd hq nofun
          · exact fun q hq => absurd hq nofun
          · exact hfresh.givenBack hadvanced
        · exact ⟨rfl, fun _ => rfl⟩
      · exact iff_of_false (not_paired_of_one rfl rfl nofun) fun h => absurd h.1 nofun
      · exact iff_of_false (not_paired_of_one rfl rfl nofun) fun h => absurd h.1 nofun
      · -- `free` of a pointer into a block that `mmap` returned
        apply iff_of_false
        · intro h
          have hperm := paired_of_some.mp h
          rw [hfresh.obtained] at hperm
          have hsame := List.perm_singleton.mp hperm.symm
          cases hsame
        · exact fun h => absurd (h.2 rfl) nofun
  | some p =>
      cases hown
      have husable := harena p rfl
      obtain ⟨hadvanced, hlt⟩ := husable.layOut hlaid
      constructor
      · rcases readFd with _ | readFd <;> rcases writeFd with _ | writeFd
        · apply iff_of_true
          · apply paired_of_none
            · rintro q hq
              cases hq
              exact ⟨rfl, rfl⟩
            · rintro q hq
              cases hq
              exact hadvanced
            · rfl
          · exact ⟨rfl, fun _ => rfl⟩
        · exact iff_of_false (not_paired_of_one rfl rfl nofun) fun h => absurd h.1 nofun
        · exact iff_of_false (not_paired_of_one rfl rfl nofun) fun h => absurd h.1 nofun
        · apply iff_of_true
          · exact paired_of_some.mpr (List.Perm.refl _)
          · exact ⟨rfl, fun h => absurd h nofun⟩
      · rintro q hq hpipe
        cases hq
        rcases readFd with _ | readFd <;> rcases writeFd with _ | writeFd
        · exact absurd rfl hpipe
        · exact absurd rfl hpipe
        · exact absurd rfl hpipe
        · exact hlt

end Pairing

/-- Two buffers of 16 bytes in an arena of its own, both descriptors missing. -/
theorem sdpCreate_paired_iff_two : ∃ r,
    sdpCreate lineOf64 oneBlock none none emptyHundred 2 16 none = some r ∧
      (Paired none emptyHundred r ↔ DescriptorsMatch none none none) := by
  obtain ⟨r, hr⟩ := Option.isSome_iff_exists.mp
    (show (sdpCreate lineOf64 oneBlock none none emptyHundred 2 16 none).isSome by decide)
  exact ⟨r, hr, (sdpCreate_paired_iff lineOf64 oneBlock none none emptyHundred 2 16 none r
    (fun p hp => absurd hp nofun) hr).1⟩

/-- When the second descriptor cannot be opened the first one, 5, stays open. -/
theorem sdpCreate_not_paired : ¬ ∀ (line : CacheLine) (sys : System) (readFd writeFd : Option ℕ)
    (st : Heads UArena) (bufCount bufSize : UInt64) (arena : Option Addr) (r : SdpReturn),
    (∀ p, arena = some p → Usable st p) →
    sdpCreate line sys readFd writeFd st bufCount bufSize arena = some r → Paired arena st r := by
  intro h
  obtain ⟨r, hr⟩ := Option.isSome_iff_exists.mp
    (show (sdpCreate lineOf64 oneBlock (some 5) none emptyHundred 2 16 none).isSome by decide)
  have hpaired := h lineOf64 oneBlock (some 5) none emptyHundred 2 16 none r
    (fun p hp => absurd hp nofun) hr
  have hrun : (sdpCreate lineOf64 oneBlock (some 5) none emptyHundred 2 16 none).map
      (fun r => (r.pipe.isSome, r.opened, r.closed)) = some (false, [5], []) := by decide
  rw [hr, Option.map_some, Option.some_inj, Prod.mk.injEq, Prod.mk.injEq] at hrun
  obtain ⟨hnull, hopened, hclosed⟩ := hrun
  have hpipe : r.pipe = none := by simpa using hnull
  have hperm := (hpaired.null hpipe).1
  rw [hopened, hclosed] at hperm
  exact absurd hperm (by decide)

end Lmalloc.Pipe.Create
