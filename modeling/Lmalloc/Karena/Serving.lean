/-
  Lmalloc/Karena/Serving.lean
  ===========================
  **A karena arena serves requests as the abstract allocator does.**

  An arena obtained from `ka_create` is a slot with a fresh cursor, mapped at an
  address that leaves room for all of it.  From there on each `ka_*` call runs
  one handler on that slot and touches nothing else, so the slot keeps its
  address and its capacity, and its cursor follows the abstract one.
-/
import Lmalloc.Karena.UserApi
import Lmalloc.Library.WordBump

namespace Lmalloc.Karena

open Lmalloc.Library Lmalloc.Library.Word

/-! ### One ioctl on one slot -/

def Client.setArena (c : Client) (i : Slot) (a : KArena) : Client :=
  { c with world := { c.world with kernel := c.world.kernel.setSlot i a } }

section Query

variable {c : Client} {cmd : Cmd} {size arena failed : UInt64} {field : KaData → UInt64}
  {i : Slot} {handler : KArena → KaData → Int × KArena × KaData}

/-- **A query runs its handler on the slot and returns the field, or `failed`.** -/
theorem query_eq (hfd : c.fd = .live) (hslot : slot? arena = some i)
    (hcmd : slotHandler cmd = some handler) (hpop : cmd ≠ .pop) :
    c.query cmd ⟨size, arena⟩ Env.ok failed field =
      some (if (handler (c.world.kernel.karenas i) ⟨size, arena⟩).1 = 0 then
          field (handler (c.world.kernel.karenas i) ⟨size, arena⟩).2.2 else failed,
        c.setArena i (handler (c.world.kernel.karenas i) ⟨size, arena⟩).2.1) := by
  have hdestroy : cmd ≠ .destroy := by
    rintro rfl
    cases hcmd
  unfold Client.query Client.ioctl
  rw [hfd, karenaIoctl_onSlot hcmd rfl, hslot]
  by_cases hret : (handler (c.world.kernel.karenas i) ⟨size, arena⟩).1 = 0
  · simp [copyBack, onSlot, hret, hpop, hdestroy, Env.ok, Client.setArena, hfd]
  · simp [copyBack, onSlot, hret, Client.setArena, hfd]

theorem kaPop_eq (hfd : c.fd = .live) (hslot : slot? arena = some i) :
    kaPop c arena size Env.ok =
      some (c.setArena i (handleArenaPop (c.world.kernel.karenas i) ⟨size, arena⟩).2.1) := by
  unfold kaPop Client.ioctl
  have hcmd : slotHandler .pop = some handleArenaPop := rfl
  rw [hfd, karenaIoctl_onSlot hcmd rfl, hslot]
  simp [onSlot, Client.setArena, hfd]

end Query

/-! ### The requests of the abstract allocator -/

/-- A pointer as an offset from the base of the arena; the null pointer is none. -/
def offset (base ptr : UInt64) : Option ℕ := if ptr = 0 then none else some (ptr - base).toNat

def kaServe (arena base : UInt64) (c : Client) : Request → Option (Reply × Client)
  | .take n =>
      (kaAlloc c arena (UInt64.ofNat n) Env.ok).map fun r => (.slot (offset base r.1), r.2)
  | .drop n => (kaPop c arena (UInt64.ofNat n) Env.ok).map fun c => (.done, c)
  | .reserve n =>
      (kaReserve c arena (UInt64.ofNat n) Env.ok).map fun r => (.size r.1.toNat, r.2)
  | .seek p =>
      (kaSeek c arena (UInt64.ofNat p) Env.ok).map fun r => (.slot (offset base r.1), r.2)
  | .reset => (kaFree c arena Env.ok).map fun r => (.done, r.2)
  | .position => (kaPos c arena Env.ok).map fun r => (.size r.1.toNat, r.2)
  | .capacity => (kaSize c arena Env.ok).map fun r => (.size r.1.toNat, r.2)

/-- One request, with the position `ka_pos` reports after it. -/
def kaAnswer (arena base : UInt64) (c : Client) (r : Request) :
    Option ((Reply × ℕ) × Client) :=
  (kaServe arena base c r).bind fun s =>
    (kaPos s.2 arena Env.ok).map fun p => ((s.1, p.1.toNat), p.2)

/-- The slot of `arena` holds `b`, mapped at `base` with room for all of it. -/
structure Holds (arena base : UInt64) (c : Client) (b : Bump) : Prop where
  fd_live : c.fd = .live
  base_pos : 0 < base.toNat
  room : base.toNat + b.cap < 2 ^ 64
  slot : ∃ i, slot? arena = some i ∧ (c.world.kernel.karenas i).uaddr = base ∧
    b.InWords (c.world.kernel.karenas i).size (c.world.kernel.karenas i).cur

theorem Holds.setArena {arena base : UInt64} {c : Client} {b b' : Bump}
    (h : Holds arena base c b) (hcap : b'.cap = b.cap) {i : Slot} (hslot : slot? arena = some i)
    {a : KArena} (haddr : a.uaddr = base) (hw : b'.InWords a.size a.cur) :
    Holds arena base (c.setArena i a) b' := by
  refine ⟨h.fd_live, h.base_pos, hcap ▸ h.room, i, hslot, ?_, ?_⟩
  · simpa [Client.setArena] using haddr
  · simpa [Client.setArena] using hw

/-- A pointer into the arena is never null, and its offset is what was added. -/
theorem offset_of_room {base x : UInt64} (hpos : 0 < base.toNat)
    (hroom : base.toNat + x.toNat < 2 ^ 64) : offset base (base + x) = some x.toNat := by
  have hsub : base + x - base = x := by rw [UInt64.add_comm, UInt64.add_sub_cancel]
  have hne : base + x ≠ 0 := by
    intro hzero
    have hnat := Word.toNat_add_of_lt hroom
    rw [hzero, UInt64.toNat_zero] at hnat
    omega
  rw [offset, if_neg hne, hsub]

section Serve

variable {arena base : UInt64} {c : Client} {b : Bump} {i : Slot}

theorem Holds.stay (h : Holds arena base c b) (hslot : slot? arena = some i) :
    Holds arena base (c.setArena i (c.world.kernel.karenas i)) b := by
  obtain ⟨j, hj, haddr, hw⟩ := h.slot
  rw [hslot, Option.some.injEq] at hj
  subst hj
  exact h.setArena rfl hslot haddr hw

theorem Holds.moveCursor (h : Holds arena base c b) (hslot : slot? arena = some i)
    {cur : UInt64} {p : ℕ} (hp : p ≤ b.cap) (hcur : cur.toNat = p) :
    Holds arena base (c.setArena i { c.world.kernel.karenas i with cur := cur })
      (b.moveTo p hp) := by
  obtain ⟨j, hj, haddr, hw⟩ := h.slot
  rw [hslot, Option.some.injEq] at hj
  subst hj
  exact h.setArena (Bump.cap_moveTo b p hp) hslot haddr (hw.moveTo hp hcur)

theorem kaPos_holds (h : Holds arena base c b) :
    ∃ p c', kaPos c arena Env.ok = some (p, c') ∧ p.toNat = b.cur ∧ Holds arena base c' b := by
  obtain ⟨i, hslot, _, hw⟩ := h.slot
  unfold kaPos
  rw [query_eq h.fd_live hslot rfl (by decide)]
  exact ⟨_, _, rfl, hw.cur_eq, h.stay hslot⟩

variable (h : Holds arena base c b)

include h

theorem drop_holds {n : ℕ} (hn : n < 2 ^ 63) :
    ∃ c', kaServe arena base c (.drop n) = some ((b.serve (.drop n)).1, c') ∧
      Holds arena base c' (b.serve (.drop n)).2 := by
  obtain ⟨i, hslot, haddr, hw⟩ := h.slot
  have hsize := toNat_ofNat_of_lt hn
  have htoo : (c.world.kernel.karenas i).cur < UInt64.ofNat n ↔ ¬ n ≤ b.cur := by
    rw [UInt64.lt_iff_toNat_lt, hw.cur_eq, hsize, Nat.not_le]
  simp only [kaServe, kaPop_eq h.fd_live hslot, Option.map_some, Bump.serve, handleArenaPop, htoo]
  by_cases hle : n ≤ b.cur
  · simp only [hle, not_true_eq_false, if_false, if_true]
    exact ⟨_, rfl, h.moveCursor hslot _ (hw.drop hsize hle).cur_eq⟩
  · simp only [hle, not_false_eq_true, if_false, if_true]
    exact ⟨_, rfl, h.stay hslot⟩

variable (hcap : b.cap < 2 ^ 63)

include hcap

theorem take_holds {n : ℕ} (hn : n < 2 ^ 63) :
    ∃ c', kaServe arena base c (.take n) = some ((b.serve (.take n)).1, c') ∧
      Holds arena base c' (b.serve (.take n)).2 := by
  obtain ⟨i, hslot, haddr, hw⟩ := h.slot
  have hsize := toNat_ofNat_of_lt hn
  have hfits := hw.add_le_iff hcap hsize hn
  simp only [kaServe, kaAlloc, query_eq h.fd_live hslot rfl (by decide : Cmd.alloc ≠ .pop),
    Option.map_some, Bump.serve, handleArenaAlloc, hfits]
  by_cases hfit : b.cur + n ≤ b.cap
  · have hroom := h.room
    have hoff : offset base ((c.world.kernel.karenas i).uaddr +
        (c.world.kernel.karenas i).cur) = some b.cur := by
      rw [haddr, offset_of_room h.base_pos (by rw [hw.cur_eq]; omega), hw.cur_eq]
    simp only [hfit, if_true, dif_pos, hoff]
    exact ⟨_, rfl, h.moveCursor hslot hfit (hw.bump hsize hfit).cur_eq⟩
  · simp only [hfit, if_false, dif_neg, not_false_eq_true, offset, eNOMEM]
    exact ⟨_, rfl, h.stay hslot⟩

theorem reserve_holds {n : ℕ} (hn : n < 2 ^ 63) :
    ∃ c', kaServe arena base c (.reserve n) = some ((b.serve (.reserve n)).1, c') ∧
      Holds arena base c' (b.serve (.reserve n)).2 := by
  obtain ⟨i, hslot, haddr, hw⟩ := h.slot
  have hsize := toNat_ofNat_of_lt hn
  have hover := hw.lt_add_iff hcap hsize hn
  simp only [kaServe, kaReserve, query_eq h.fd_live hslot rfl (by decide : Cmd.reserve ≠ .pop),
    Option.map_some, Bump.serve, handleArenaReserve, hover]
  by_cases hfit : b.cur + n ≤ b.cap
  · simp only [hfit, not_true_eq_false, if_true, if_false, dif_pos, hsize]
    exact ⟨_, rfl, h.moveCursor hslot hfit (hw.bump hsize hfit).cur_eq⟩
  · simp only [hfit, not_false_eq_true, if_true, dif_neg, hw.toNat_left]
    exact ⟨_, rfl, h.stay hslot⟩

/-- The kernel does not check the position; the address it returns is in the
    arena because the request is admissible. -/
theorem seek_holds {p : ℕ} (hp : p ≤ b.cap) :
    ∃ c', kaServe arena base c (.seek p) = some ((b.serve (.seek p)).1, c') ∧
      Holds arena base c' (b.serve (.seek p)).2 := by
  obtain ⟨i, hslot, haddr, hw⟩ := h.slot
  have hpos : (UInt64.ofNat p).toNat = p := toNat_ofNat_of_lt (Nat.lt_of_le_of_lt hp hcap)
  have hroom := h.room
  have hoff : offset base ((c.world.kernel.karenas i).uaddr + UInt64.ofNat p) = some p := by
    rw [haddr, offset_of_room h.base_pos (by rw [hpos]; omega), hpos]
  simp only [kaServe, kaSeek, query_eq h.fd_live hslot rfl (by decide : Cmd.seek ≠ .pop),
    Option.map_some, Bump.serve, handleArenaSeek, hoff, hp, dif_pos, if_true]
  exact ⟨_, rfl, h.moveCursor hslot hp hpos⟩

/-- **Each `ka_*` call answers an admissible request as the abstract allocator
    does, and leaves the slot holding the abstract state.** -/
theorem kaServe_holds {r : Request} (hr : Bump.Admissible b.cap r) :
    ∃ c', kaServe arena base c r = some ((b.serve r).1, c') ∧
      Holds arena base c' (b.serve r).2 := by
  cases r with
  | take n => exact take_holds h hcap hr
  | drop n => exact drop_holds h hr
  | reserve n => exact reserve_holds h hcap hr
  | seek p => exact seek_holds h hcap hr
  | reset =>
    obtain ⟨i, hslot, haddr, hw⟩ := h.slot
    simp only [kaServe, kaFree, kaSeek, query_eq h.fd_live hslot rfl (by decide : Cmd.seek ≠ .pop),
      Option.map_some]
    exact ⟨_, rfl, h.moveCursor hslot (Nat.zero_le _) rfl⟩
  | position =>
    obtain ⟨p, c', hpos, hp, hc'⟩ := kaPos_holds h
    simp only [kaServe, hpos, Option.map_some, hp]
    exact ⟨c', rfl, hc'⟩
  | capacity =>
    obtain ⟨i, hslot, haddr, hw⟩ := h.slot
    simp only [kaServe, kaSize, query_eq h.fd_live hslot rfl (by decide : Cmd.size ≠ .pop),
      Option.map_some, handleArenaSize, if_true, hw.cap_eq]
    exact ⟨_, rfl, h.stay hslot⟩

/-- The same with the position `ka_pos` reports. -/
theorem kaAnswer_holds {r : Request} (hr : Bump.Admissible b.cap r) :
    ∃ c', kaAnswer arena base c r = some ((b.answer r).1, c') ∧
      Holds arena base c' (b.answer r).2 := by
  obtain ⟨c₁, hserve, h₁⟩ := kaServe_holds h hcap hr
  obtain ⟨p, c₂, hpos, hp, h₂⟩ := kaPos_holds h₁
  refine ⟨c₂, ?_, h₂⟩
  simp only [kaAnswer, hserve, Option.bind_some, hpos, Option.map_some, hp, Bump.answer]

end Serve

/-! ### An arena fresh from `ka_create` -/

/-- `PAGE_ALIGN` keeps a multiple of the page size: adding 4095 sets the low
    twelve bits, and the mask clears them again. -/
theorem pageAlign_of_dvd {x : UInt64} (h : 4096 ∣ x.toNat) : pageAlign x = x := by
  have hlow : x.toBitVec &&& (4095 : UInt64).toBitVec = 0#64 := by
    apply BitVec.eq_of_toNat_eq
    rw [BitVec.toNat_and]
    exact (Nat.and_two_pow_sub_one_eq_mod x.toNat 12).trans (Nat.mod_eq_zero_of_dvd h)
  apply UInt64.toBitVec_inj.mp
  unfold pageAlign
  rw [UInt64.toBitVec_and, UInt64.toBitVec_add, UInt64.toBitVec_not,
    BitVec.add_eq_or_of_and_eq_zero _ _ hlow]
  ext i hi
  have hbit := congrArg (fun v : BitVec 64 => v[i]) hlow
  simp only [BitVec.getElem_and, BitVec.getElem_zero] at hbit
  simp only [BitVec.getElem_and, BitVec.getElem_or, BitVec.getElem_not]
  revert hbit
  generalize x.toBitVec[i] = p
  generalize (4095 : UInt64).toBitVec[i] = q
  cases p <;> cases q <;> simp

/-- A CREATE that returns 0 has put the arena into the open slot and has written
    its size and index back. -/
theorem create_success {k k' : Kernel} {pid : Pid} {size arena : UInt64} {env : Env}
    {out : Option KaData} (h : karenaIoctl k pid .create ⟨size, arena⟩ env = some (0, k', out)) :
    ∃ i, openSlot k.karenas = some i ∧ k' = k.created pid i (pageAlign size) ∧
      out = some ⟨pageAlign size, slotIndex i⟩ := by
  rcases karenaIoctl_cases h with
    ⟨hret, _⟩ | ⟨_, _, hcmd, _⟩ | ⟨_, _, hr⟩ | ⟨_, hcmd, _⟩ | ⟨_, hcmd, _⟩
  · exact absurd rfl hret
  · cases hcmd
  · rcases handleArenaCreate_cases k pid ⟨size, arena⟩ env with
      ⟨_, heq⟩ | ⟨i, a, _, _, _, _, _, hne, heq⟩ | ⟨i, hopen, _, _, heq⟩
    · rw [heq] at hr
      cases hr
    · rw [heq, copyBack, if_pos hne] at hr
      exact absurd (congrArg Prod.fst hr).symm hne
    · rw [heq] at hr
      obtain ⟨hk, hout⟩ := copyBack_success (by decide) (by decide) hr.symm
      exact ⟨i, hopen, hk, hout⟩
  · cases hcmd
  · cases hcmd

/-- An `ioctl` that does not fail is one on a live descriptor that the module has answered
    with 0. -/
theorem ioctl_success {c c' : Client} {cmd : Cmd} {alloc out : KaData} {env : Env} {ret : Int}
    (h : c.ioctl cmd alloc env = some (ret, out, c')) (hret : ¬ ret < 0) :
    c'.fd = .live ∧ ∃ o, karenaIoctl c.world.kernel c.pid cmd alloc env =
      some (0, c'.world.kernel, o) ∧ out = o.getD alloc := by
  have hneg : (-1 : Int) < 0 := by decide
  unfold Client.ioctl at h
  split at h
  · next hfd =>
    obtain ⟨⟨ret', k', o⟩, hcall, heq⟩ := Option.map_eq_some_iff.mp h
    simp only [Prod.mk.injEq] at heq
    obtain ⟨rfl, rfl, rfl⟩ := heq
    by_cases hzero : ret' = 0
    · subst hzero
      exact ⟨hfd, o, hcall, rfl⟩
    · rw [if_neg hzero] at hret
      exact absurd hneg hret
  · cases h
    exact absurd hneg hret
  · cases h
    exact absurd hneg hret

theorem ioctl_create_success {c c' : Client} {size : UInt64} {alloc : KaData} {env : Env}
    {ret : Int} (h : c.ioctl .create ⟨size, 0⟩ env = some (ret, alloc, c')) (hret : ¬ ret < 0) :
    c'.fd = .live ∧ ∃ i, openSlot c.world.kernel.karenas = some i ∧
      alloc = ⟨pageAlign size, slotIndex i⟩ ∧
      c'.world.kernel = c.world.kernel.created c.pid i (pageAlign size) := by
  obtain ⟨hfd, o, hcall, rfl⟩ := ioctl_success h hret
  obtain ⟨i, hopen, hk, rfl⟩ := create_success hcall
  exact ⟨hfd, i, hopen, rfl, hk⟩

/-- The area ends where its bytes end, below `2^64`. -/
theorem mapArea_room {addr len : UInt64} {area : VmArea} (h : mapArea addr len = some area) :
    area.vmStart = addr ∧ 0 < addr.toNat ∧ addr.toNat + (pageAlign len).toNat < 2 ^ 64 := by
  unfold mapArea at h
  split at h
  · next hroom =>
    cases h
    obtain ⟨hpos, hlt⟩ := hroom
    have haddr : addr.toNat < 2 ^ 64 := addr.toNat_lt
    have hlen : (pageAlign len).toNat < 2 ^ 64 := (pageAlign len).toNat_lt
    rw [UInt64.lt_iff_toNat_lt] at hpos hlt
    rw [UInt64.toNat_add] at hlt
    exact ⟨rfl, hpos, by omega⟩
  · cases h

theorem dvd_pageAlign (x : UInt64) : 4096 ∣ (pageAlign x).toNat := by
  have hlow : pageAlign x &&& 4095 = 0 := by
    unfold pageAlign
    rw [UInt64.and_assoc, UInt64.not_and_self, UInt64.and_zero]
  have hnat := congrArg UInt64.toNat hlow
  rw [UInt64.toNat_and] at hnat
  exact Nat.dvd_of_mod_eq_zero
    ((Nat.and_two_pow_sub_one_eq_mod (pageAlign x).toNat 12).symm.trans hnat)

theorem mmap_success {c c' : Client} {len addr : UInt64} (h : c.mmap len addr = some (true, c')) :
    ∃ area i, mapArea addr len = some area ∧ c'.fd = c.fd ∧
      slot? c.world.kernel.currentArenaIndex = some i ∧
      c'.world.kernel =
        c.world.kernel.setSlot i { c.world.kernel.karenas i with uaddr := area.vmStart } := by
  unfold Client.mmap at h
  split at h
  · next area hfd harea =>
    split at h
    · next k' mapped hcall =>
      simp only [World.step, hcall, Option.map_some, Option.some.injEq, Prod.mk.injEq,
        true_and] at h
      subst h
      rcases karenaMmap_cases hcall with ⟨hret, _⟩ | ⟨i, rfl, hi, _, rfl⟩
      · exact absurd rfl hret
      · exact ⟨area, i, harea, rfl, hi, rfl⟩
    · cases h
    · cases h
  · cases h

/-- A `ka_create` that returns an arena has made both its calls with success. -/
theorem kaCreate_success {c c' : Client} {size arena : UInt64} {os : Os}
    (h : kaCreate c size os = some (some arena, c')) :
    ∃ ret alloc c₁, (c.openDevice os.openOk).2.ioctl .create ⟨size, 0⟩ os.env =
        some (ret, alloc, c₁) ∧
      ¬ ret < 0 ∧ alloc.arena = arena ∧ c₁.mmap alloc.size os.addr = some (true, c') := by
  simp only [kaCreate] at h
  split at h
  · cases h
  obtain ⟨⟨ret, alloc, c₁⟩, hioctl, h⟩ := Option.bind_eq_some_iff.mp h
  by_cases hret : ret < 0
  · simp only [hret, if_true] at h
    cases h
  simp only [hret, if_false, Option.map_eq_some_iff] at h
  obtain ⟨⟨mapped, c₂⟩, hmmap, h⟩ := h
  cases mapped with
  | false => cases h
  | true =>
    cases h
    exact ⟨ret, alloc, c₁, hioctl, hret, rfl, hmmap⟩

/-- A `ka_create` that succeeds has mapped its slot where `mmap` has put it. -/
theorem kaCreate_mapped {c c' : Client} {size arena : UInt64} {os : Os}
    (h : kaCreate c size os = some (some arena, c')) :
    c'.fd = .live ∧ (∃ area, mapArea os.addr (pageAlign size) = some area) ∧
      ∃ i, slot? arena = some i ∧ (c'.world.kernel.karenas i).uaddr = os.addr ∧
        (c'.world.kernel.karenas i).size = pageAlign size ∧
        (c'.world.kernel.karenas i).cur = 0 := by
  obtain ⟨ret, alloc, c₁, hioctl, hret, rfl, hmmap⟩ := kaCreate_success h
  obtain ⟨hfd, i, _, rfl, hk⟩ := ioctl_create_success hioctl hret
  obtain ⟨area, j, harea, hfd₂, hj, hk₂⟩ := mmap_success hmmap
  -- the current arena is the one just created
  have hji : j = i := by
    rw [hk] at hj
    simpa [Kernel.created] using hj.symm
  subst hji
  refine ⟨hfd₂.trans hfd, ⟨area, harea⟩, j, slot?_slotIndex j, ?_⟩
  rw [hk₂, karenas_setSlot_same, hk, created_same]
  exact ⟨(mapArea_room harea).1, rfl, rfl⟩

/-- **The arena a successful `ka_create` returns holds the empty allocator.** -/
theorem kaCreate_holds_addr {c c' : Client} {size arena : UInt64} {os : Os}
    (h : kaCreate c size os = some (some arena, c')) :
    Holds arena os.addr c' ⟨(pageAlign size).toNat, 0, Nat.zero_le _⟩ := by
  obtain ⟨hfd, ⟨area, harea⟩, i, hslot, haddr, hsize, hcur⟩ := kaCreate_mapped h
  obtain ⟨_, hpos, hroom⟩ := mapArea_room harea
  rw [pageAlign_of_dvd (dvd_pageAlign size)] at hroom
  refine ⟨hfd, hpos, hroom, i, hslot, haddr, ?_⟩
  rw [hsize, hcur]
  exact ⟨rfl, rfl⟩

theorem kaCreate_holds {c c' : Client} {size arena : UInt64} {os : Os}
    (h : kaCreate c size os = some (some arena, c')) :
    ∃ base, Holds arena base c' ⟨(pageAlign size).toNat, 0, Nat.zero_le _⟩ :=
  ⟨os.addr, kaCreate_holds_addr h⟩

theorem kaBase_holds {arena base : UInt64} {c : Client} {b : Bump} (h : Holds arena base c b) :
    ∃ c', kaBase c arena Env.ok = some (base, c') ∧ Holds arena base c' b := by
  obtain ⟨i, hslot, haddr, hw⟩ := h.slot
  unfold kaBase
  rw [query_eq h.fd_live hslot rfl (by decide)]
  simp only [handleArenaBase, if_true, haddr]
  exact ⟨_, rfl, h.stay hslot⟩

/-- **A run of requests to a karena arena is answered as by the abstract allocator.** -/
theorem kaTrace_eq {arena base : UInt64} {c : Client} {b : Bump} (h : Holds arena base c b)
    (hcap : b.cap < 2 ^ 63) {rs : List Request} (hrs : ∀ r ∈ rs, Bump.Admissible b.cap r) :
    trace (kaAnswer arena base) c rs = some (outputs Bump.answer b rs) := by
  refine trace_eq_outputs
    (R := fun c b' => Holds arena base c b' ∧ b'.cap = b.cap) ?_ ⟨h, rfl⟩ hrs
  rintro c b' r ⟨hc, hb⟩ hr
  obtain ⟨c', hanswer, hc'⟩ := kaAnswer_holds hc (hb ▸ hcap) (hb ▸ hr)
  exact ⟨c', hanswer, hc', by rw [Bump.answer, Bump.cap_serve, hb]⟩

end Lmalloc.Karena
