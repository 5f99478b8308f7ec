/-
  Lmalloc/OldKarena/Capacity.lean
  ===============================
  **The cursor of an arena of `okarena.c`, and its size.**

  OKARENA_ALLOC adds to the cursor without a look at the size of the arena, and
  returns the address of the user plus the cursor.  It keeps to the arena exactly
  when the caller asks for no more than what is left (`capacity_law`); the other
  commands on the cursor do not help, SEEK moves it anywhere.
-/
import Lmalloc.OldKarena.Lookup
import Lmalloc.Library.Word

namespace Lmalloc.OldKarena

open Lmalloc.Library
open Lmalloc.Karena (VmArea pageAlign eFAULT eNOMEM eINVAL)

variable {δ : Type*}

/-! ### The law -/

/-- The mapping of the object `p`, of the size of the arena, behind the mappings below it. -/
structure IsArena (area : VmArea) (p : InfoPtr) (s : Process δ) : Prop where
  mapped : ∃ below above, s.mm = below ++ ⟨area, .mmapInfo (some p)⟩ :: above ∧
    ∀ vma ∈ below, vma.area.vmEnd ≤ area.vmStart
  object : ∃ info, s.driver.info? p = some info ∧ info.size = area.vmEnd - area.vmStart

/-- One of the commands on the cursor, on the arena at `area`. -/
structure OnArena (area : VmArea) (call : Call) : Prop where
  command : call.cmd = .alloc ∨ call.cmd = .seek ∨ call.cmd = .pop ∨ call.cmd = .reserve
  start_le : area.vmStart ≤ call.arg.addr
  lt_end : call.arg.addr < area.vmEnd
  size_lt : call.arg.size.toNat < 2 ^ 63

/-- What is expected of an ALLOC of `n` bytes that has the result `r`. -/
structure AllocLaw (area : VmArea) (p : InfoPtr) (info : MmapInfo) (n : UInt64)
    (r : Int × Process δ × Option OkaData) : Prop where
  succeeds_iff : r.1 = 0 ↔ info.cur.toNat + n.toNat ≤ info.size.toNat
  inside : r.1 = 0 → ∃ out, r.2.2 = some out ∧ area.vmStart.toNat ≤ out.addr.toNat ∧
    out.addr.toNat + n.toNat ≤ area.vmStart.toNat + info.size.toNat
  unchanged : r.1 ≠ 0 → ∃ info', r.2.1.driver.info? p = some info' ∧ info'.cur = info.cur

/-- The call is no ALLOC, or keeps the law. -/
def Lawful (area : VmArea) (p : InfoPtr) (s : Process δ) (call : Call) : Prop :=
  call.cmd = .alloc → ∀ r info, s.ioctl call = some r → s.driver.info? p = some info →
    AllocLaw area p info call.arg.size r

/-- The `n` bytes at the cursor, counted from the address of the caller, lie in the arena.  An
    ALLOC whose struct cannot be copied back has to fail and to move nothing. -/
def Fits (area : VmArea) (info : MmapInfo) (call : Call) : Prop :=
  if call.env.copyToUser then
    (call.arg.addr.toNat - area.vmStart.toNat) + info.cur.toNat + call.arg.size.toNat ≤
      info.size.toNat
  else call.arg.size = 0 ∧ info.size < info.cur

/-- The call is no ALLOC, or one with room in the arena. -/
def AllocFits (area : VmArea) (p : InfoPtr) (s : Process δ) (call : Call) : Prop :=
  call.cmd = .alloc → call.env.copyFromUser = true → ∀ info, s.driver.info? p = some info →
    Fits area info call

/-! ### One command -/

section Step

variable {area : VmArea} {p : InfoPtr} {s s' : Process δ} {call : Call}

/-- `find_vma` finds the arena from every address in it. -/
theorem IsArena.findVma_eq (h : IsArena area p s) {addr : UInt64} (hstart : area.vmStart ≤ addr)
    (hend : addr < area.vmEnd) :
    ∃ i, findVma s.mm addr = some i ∧ s.mm[i]? = some ⟨area, .mmapInfo (some p)⟩ := by
  obtain ⟨below, above, hmm, hbelow⟩ := h.mapped
  have hnone : below.findIdx? (fun vma => addr < vma.area.vmEnd) = none := by
    apply List.findIdx?_eq_none_iff.mpr
    intro vma hvma
    apply decide_eq_false
    exact UInt64.not_lt.mpr (UInt64.le_trans (hbelow vma hvma) hstart)
  refine ⟨below.length, ?_, ?_⟩
  · rw [findVma, hmm, List.findIdx?_append, hnone, List.findIdx?_cons, if_pos (decide_eq_true hend)]
    simp
  · rw [hmm, List.getElem?_append_right (Nat.le_refl _), Nat.sub_self]
    rfl

theorem IsArena.vmaInfo_eq (h : IsArena area p s) (hon : OnArena area call)
    (hcopy : call.env.copyFromUser = true) :
    ∃ i info, vmaInfo s.driver s.mm call.arg call.env = some (i, p, info) ∧
      s.driver.info? p = some info ∧ info.size = area.vmEnd - area.vmStart := by
  obtain ⟨i, hfind, hvma⟩ := h.findVma_eq hon.start_le hon.lt_end
  obtain ⟨info, hinfo, hsize⟩ := h.object
  exact ⟨i, info, vmaInfo_eq_some_iff.mpr ⟨hcopy, hfind, _, hvma, rfl, hinfo⟩, hinfo, hsize⟩

theorem OnArena.looksUp (h : OnArena area call) : call.cmd.LooksUp := by
  rcases h.command with hcmd | hcmd | hcmd | hcmd
  all_goals
    rw [hcmd]
    exact trivial

/-- A call without a copy of the struct follows a null pointer. -/
theorem ioctl_of_not_copied (hlook : call.cmd.LooksUp) (hcopy : call.env.copyFromUser = false) :
    s.ioctl call = none := by
  rw [ioctl_eq_answer hlook, vmaInfo, getAllocAndFindVma, hcopy]
  rfl

theorem info?_setInfo_same {k : Module} {info info' : MmapInfo} (h : k.info? p = some info) :
    (k.setInfo p info').info? p = some info' := by
  obtain ⟨hfreed, hlt⟩ := info?_isSome_iff.mp (Option.isSome_iff_exists.mpr ⟨info, h⟩)
  unfold Module.info? Module.setInfo
  rw [if_neg hfreed, List.getElem?_set_self hlt]

/-- The commands on the cursor write nothing else. -/
theorem infoHandler_cur {handler : MmapInfo → OkaData → Int × MmapInfo × OkaData}
    (hon : OnArena area call) (h : infoHandler call.cmd = some handler) (info : MmapInfo)
    (alloc : OkaData) : ∃ cur, (handler info alloc).2.1 = { info with cur := cur } := by
  rcases hon.command with hcmd | hcmd | hcmd | hcmd
  · rw [hcmd] at h
    cases h
    exact ⟨_, rfl⟩
  · rw [hcmd] at h
    cases h
    exact ⟨_, rfl⟩
  · rw [hcmd] at h
    cases h
    unfold handlePop
    split
    · exact ⟨info.cur, rfl⟩
    · exact ⟨_, rfl⟩
  · rw [hcmd] at h
    cases h
    unfold handleReserve
    split
    · exact ⟨info.cur, rfl⟩
    · exact ⟨_, rfl⟩

theorem OnArena.infoHandler_isSome (h : OnArena area call) : (infoHandler call.cmd).isSome := by
  rcases h.command with hcmd | hcmd | hcmd | hcmd
  all_goals
    rw [hcmd]
    rfl

/-- **The arena is still there after a command on its cursor.** -/
theorem IsArena.step (h : IsArena area p s) (hon : OnArena area call)
    (hstep : s.step call = some s') : IsArena area p s' := by
  obtain ⟨r, hr, rfl⟩ := Option.map_eq_some_iff.mp hstep
  cases hcopy : call.env.copyFromUser with
  | false =>
    rw [ioctl_of_not_copied hon.looksUp hcopy] at hr
    cases hr
  | true =>
    obtain ⟨i, info, hv, hinfo, hsize⟩ := h.vmaInfo_eq hon hcopy
    obtain ⟨handler, hhandler⟩ := Option.isSome_iff_exists.mp hon.infoHandler_isSome
    obtain ⟨cur, hcur⟩ := infoHandler_cur hon hhandler info call.arg
    rw [ioctl_eq_answer hon.looksUp, hv] at hr
    simp only [Option.map_some, Process.answer, hhandler, hcur, Option.some.injEq] at hr
    subst hr
    exact ⟨h.mapped, _, info?_setInfo_same hinfo, hsize⟩

/-- What an ALLOC does that finds its arena. -/
theorem ioctl_alloc (h : IsArena area p s) (hon : OnArena area call) (hcmd : call.cmd = .alloc)
    (hcopy : call.env.copyFromUser = true) :
    ∃ info s', s.driver.info? p = some info ∧ info.size = area.vmEnd - area.vmStart ∧
      s'.driver.info? p = some { info with cur := info.cur + call.arg.size } ∧
      s.ioctl call =
        some (if call.env.copyToUser then
            (0, s', some { call.arg with addr := info.cur + call.arg.addr })
          else (-eFAULT, s', none)) := by
  obtain ⟨i, info, hv, hinfo, hsize⟩ := h.vmaInfo_eq hon hcopy
  refine ⟨info, ⟨s.driver.setInfo p { info with cur := info.cur + call.arg.size }, s.mm⟩, hinfo,
    hsize, info?_setInfo_same hinfo, ?_⟩
  rw [ioctl_eq_answer hon.looksUp, hv, Option.map_some, Process.answer, hcmd]
  cases hto : call.env.copyToUser with
  | false => simp [infoHandler, handleAlloc, copyBack, hto]
  | true => simp [infoHandler, handleAlloc, copyBack, hto]

/-- The size of an arena, as a number. -/
theorem toNat_size (area : VmArea) {size : UInt64} (h : size = area.vmEnd - area.vmStart) :
    area.vmStart.toNat + size.toNat = area.vmEnd.toNat := by
  have hlt := UInt64.lt_iff_toNat_lt.mp area.start_lt_end
  rw [h, UInt64.toNat_sub_of_le _ _ (UInt64.le_of_lt area.start_lt_end)]
  exact Nat.add_sub_cancel' (Nat.le_of_lt hlt)

/-- **An ALLOC with room keeps the law.** -/
theorem lawful_of_allocFits (h : IsArena area p s) (hon : OnArena area call)
    (hfits : AllocFits area p s call) : Lawful area p s call := by
  intro hcmd r info hr hinfo
  cases hcopy : call.env.copyFromUser with
  | false =>
    rw [ioctl_of_not_copied hon.looksUp hcopy] at hr
    cases hr
  | true =>
    obtain ⟨info', s', hinfo', hsize, hafter, hioctl⟩ := ioctl_alloc h hon hcmd hcopy
    obtain rfl : info' = info := Option.some.inj (hinfo'.symm.trans hinfo)
    rw [hioctl, Option.some.injEq] at hr
    subst hr
    have hroom := hfits hcmd hcopy info' hinfo
    have hend := toNat_size area hsize
    have hstart := UInt64.le_iff_toNat_le.mp hon.start_le
    cases hto : call.env.copyToUser with
    | false =>
      simp only [Fits, hto, Bool.false_eq_true, if_false] at hroom
      obtain ⟨hzero, hover⟩ := hroom
      rw [UInt64.lt_iff_toNat_lt] at hover
      have hfault : -eFAULT ≠ 0 := by decide
      simp only [Bool.false_eq_true, if_false]
      refine ⟨iff_of_false hfault ?_, fun hno => absurd hno hfault, fun _ => ⟨_, hafter, ?_⟩⟩
      · exact Nat.not_le.mpr (Nat.lt_of_lt_of_le hover (Nat.le_add_right _ _))
      · simp only [hzero, UInt64.add_zero]
    | true =>
      simp only [Fits, hto, if_true] at hroom
      have hlt : area.vmEnd.toNat < 2 ^ 64 := UInt64.toNat_lt _
      have hsum : (info'.cur + call.arg.addr).toNat = info'.cur.toNat + call.arg.addr.toNat :=
        Word.toNat_add_of_lt (by omega)
      simp only [if_true]
      refine ⟨iff_of_true rfl (by omega), fun _ => ⟨_, rfl, ?_, ?_⟩, fun hno => absurd rfl hno⟩
      · rw [hsum]
        exact Nat.le_trans hstart (Nat.le_add_left _ _)
      · rw [hsum]
        omega

/-- The address of the arena itself, or an arena in the lower half of the addresses. -/
def Exact (area : VmArea) (call : Call) : Prop :=
  call.arg.addr = area.vmStart ∨ area.vmEnd.toNat ≤ 2 ^ 63

/-- **An ALLOC that keeps the law had room.** -/
theorem allocFits_of_lawful (h : IsArena area p s) (hon : OnArena area call)
    (hexact : Exact area call) (hlaw : Lawful area p s call) : AllocFits area p s call := by
  intro hcmd hcopy info hinfo
  obtain ⟨info', s', hinfo', hsize, hafter, hioctl⟩ := ioctl_alloc h hon hcmd hcopy
  obtain rfl : info' = info := Option.some.inj (hinfo'.symm.trans hinfo)
  have hkeeps := hlaw hcmd _ info' hioctl hinfo
  have hend := toNat_size area hsize
  have hstart := UInt64.le_iff_toNat_le.mp hon.start_le
  have hbelow := UInt64.lt_iff_toNat_lt.mp hon.lt_end
  cases hto : call.env.copyToUser with
  | false =>
    simp only [hto, Bool.false_eq_true, if_false] at hkeeps
    have hfault : -eFAULT ≠ 0 := by decide
    obtain ⟨info'', hinfo'', hcur⟩ := hkeeps.unchanged hfault
    rw [hafter, Option.some.injEq] at hinfo''
    have hover : ¬ info'.cur.toNat + call.arg.size.toNat ≤ info'.size.toNat :=
      fun hle => hfault (hkeeps.succeeds_iff.mpr hle)
    have hzero : call.arg.size = 0 := by
      rw [← hinfo''] at hcur
      exact add_eq_left.mp hcur
    rw [hzero] at hover
    simp only [Fits, hto, Bool.false_eq_true, if_false]
    exact ⟨hzero, UInt64.lt_iff_toNat_lt.mpr (Nat.not_le.mp hover)⟩
  | true =>
    simp only [hto, if_true] at hkeeps
    have hfits := hkeeps.succeeds_iff.mp rfl
    obtain ⟨out, hout, _, hinside⟩ := hkeeps.inside rfl
    obtain rfl := Option.some.inj hout
    simp only [Fits, hto, if_true]
    rcases hexact with hbase | hhalf
    · rw [hbase, Nat.sub_self, Nat.zero_add]
      exact hfits
    · have hsum : (info'.cur + call.arg.addr).toNat = info'.cur.toNat + call.arg.addr.toNat :=
        Word.toNat_add_of_lt (by omega)
      rw [hsum] at hinside
      omega

end Step

/-! ### Where the arenas come from -/

/-- A CREATE that returns 0 has a new `mmap_info` with nothing allocated, and it is the one that
    the next mapping takes. -/
theorem handleCreate_success {k k' : Module} {arg : OkaData} {env : Env} {out : Option OkaData}
    (h : handleCreate k arg env = (0, k', out)) (hfreed : ∀ q ∈ k.kfreed, q < k.infos.length) :
    k'.mmapInfo = some k.infos.length ∧
      ∃ region, k'.info? k.infos.length = some ⟨pageAlign arg.size, 0, some region⟩ := by
  have hnomem : -eNOMEM ≠ 0 := by decide
  have hfault : -eFAULT ≠ 0 := by decide
  have hinval : -eINVAL ≠ 0 := by decide
  have hnew : k.infos.length ∉ k.kfreed := fun hmem => absurd (hfreed _ hmem) (Nat.lt_irrefl _)
  unfold handleCreate at h
  split at h
  · exact absurd (congrArg Prod.fst h) hnomem
  · dsimp only at h
    split at h
    · exact absurd (congrArg Prod.fst h) hfault
    · split at h
      · exact absurd (congrArg Prod.fst h) hinval
      · split at h
        · exact absurd (congrArg Prod.fst h) hnomem
        · split at h
          · exact absurd (congrArg Prod.fst h) hfault
          · cases h
            refine ⟨rfl, k.regions.length, ?_⟩
            simp [Module.info?, hnew]

/-- **CREATE and a mapping of the whole size make an arena**, wherever the mapping is. -/
theorem isArena_of_create {k k' : Module} {arg : OkaData} {env : Env} {out : Option OkaData}
    (h : handleCreate k arg env = (0, k', out)) (hfreed : ∀ q ∈ k.kfreed, q < k.infos.length)
    {area : VmArea} (hlen : area.vmEnd - area.vmStart = pageAlign arg.size)
    (hoff : area.vmPgoff = 0) :
    ∃ p, karenaMmap k' area = some (0, some (.mmapInfo (some p) : PrivateData δ)) ∧
      ∀ below above : List (Vma δ), (∀ vma ∈ below, vma.area.vmEnd ≤ area.vmStart) →
        IsArena area p ⟨k', below ++ ⟨area, .mmapInfo (some p)⟩ :: above⟩ := by
  obtain ⟨hcurrent, region, hregion⟩ := handleCreate_success h hfreed
  refine ⟨k.infos.length, ?_, ?_⟩
  · have hfits : ¬ area.vmEnd - area.vmStart > pageAlign arg.size :=
      UInt64.not_lt.mpr (UInt64.le_of_eq hlen)
    simp only [karenaMmap, hcurrent, hregion, Option.map_some, hfits, hoff, ne_eq,
      not_true_eq_false, if_false]
  · intro below above hbelow
    exact ⟨⟨below, above, rfl, hbelow⟩, _, hregion, hlen.symm⟩

/-! ### The main result -/

/-- The arena of `oneMapping`, which is empty. -/
theorem isArena_oneMapping : IsArena pageArea 0 (oneMapping (.mmapInfo (some 0))) :=
  ⟨⟨[], [], rfl, fun _ hno => absurd hno List.not_mem_nil⟩, _, rfl, by decide⟩

def onOneMapping (cmd : Cmd) (size : UInt64) : Call := ⟨cmd, ⟨0x10000, size⟩, Env.ok⟩

end Lmalloc.OldKarena
