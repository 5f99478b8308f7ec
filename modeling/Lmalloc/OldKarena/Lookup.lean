/-
  Lmalloc/OldKarena/Lookup.lean
  =============================
  **The mapping that a command of `okarena.c` works on.**

  All commands but CREATE take an address of the user, ask `find_vma` for the first
  mapping that ends above it, and take the private pointer of that mapping for a
  `struct mmap_info`.  Nothing looks whether there is a mapping, whether it contains
  the address, whether it is one of the driver, or whether its arena has been
  destroyed.  The commands do no harm exactly as long as the user sees to that
  (`acts_iff`).
-/
import Lmalloc.OldKarena.Module
import Lmalloc.Library.Run

namespace Lmalloc.OldKarena

open Lmalloc.Library
open Lmalloc.Karena (VmArea Page pageAlign eFAULT eNOMEM eINVAL eNOTTY)

/-! ### Runs of a process -/

structure Call where
  cmd : Cmd
  arg : OkaData
  env : Env

/-- The module and the address space of a process. -/
structure Process (δ : Type*) where
  driver : Module
  mm : List (Vma δ)

variable {δ : Type*}

def Process.ioctl (s : Process δ) (call : Call) : Option (Int × Process δ × Option OkaData) :=
  (karenaIoctl s.driver s.mm call.cmd call.arg call.env).map fun r =>
    (r.1, ⟨r.2.1, r.2.2.1⟩, r.2.2.2)

/-- A call without a defined result is no step. -/
def Process.step (s : Process δ) (call : Call) : Option (Process δ) :=
  (s.ioctl call).map fun r => r.2.1

/-! ### What the commands find -/

/-- The commands that use `get_alloc_and_find_vma`. -/
def Cmd.LooksUp : Cmd → Prop
  | .create | .other _ => False
  | _ => True

/-- The handlers of the commands that work on the object of the mapping. -/
def infoHandler : Cmd → Option (MmapInfo → OkaData → Int × MmapInfo × OkaData)
  | .alloc => some handleAlloc
  | .seek => some handleSeek
  | .pop => some handlePop
  | .pos => some handlePos
  | .reserve => some handleReserve
  | .size => some handleSize
  | _ => none

/-- `find_vma` finds `vma`, a mapping of the driver whose object is allocated. -/
structure Finds (s : Process δ) (addr : UInt64) (vma : Vma δ) (p : InfoPtr) (info : MmapInfo) :
    Prop where
  found : ((findVma s.mm addr).bind fun i => s.mm[i]?) = some vma
  own : vma.privateData = .mmapInfo (some p)
  live : s.driver.info? p = some info

/-- The handler returns an error, or it works on the object of a live mapping of the driver that
    contains the address. -/
def Acts (s : Process δ) (call : Call) : Prop :=
  ∃ r, s.ioctl call = some r ∧ (call.cmd.LooksUp → r.1 ≠ 0 ∨
    ∃ vma p info, Finds s call.arg.addr vma p info ∧
      vma.area.vmStart ≤ call.arg.addr ∧ call.arg.addr < vma.area.vmEnd)

/-- An error that a command returns after it has found `info`: a POP of too much, or a struct
    that cannot be copied back. -/
def Fails (info : MmapInfo) (call : Call) : Prop :=
  match call.cmd with
  | .pop => info.cur < call.arg.size
  | .destroy => False
  | _ => call.env.copyToUser = false

/-- The struct can be copied in, the first mapping that ends above the address is a live one of
    the driver, and it contains the address unless the command fails. -/
def FindsOwn (s : Process δ) (call : Call) : Prop :=
  call.cmd.LooksUp → call.env.copyFromUser = true ∧
    ∃ vma p info, Finds s call.arg.addr vma p info ∧
      (vma.area.vmStart ≤ call.arg.addr ∨ Fails info call)

section Lookup

variable {s : Process δ} {call : Call}

/-- What the lookup of a command gives it. -/
theorem vmaInfo_eq_some_iff {i : ℕ} {p : InfoPtr} {info : MmapInfo} :
    vmaInfo s.driver s.mm call.arg call.env = some (i, p, info) ↔
      call.env.copyFromUser = true ∧ findVma s.mm call.arg.addr = some i ∧
        ∃ vma, s.mm[i]? = some vma ∧ vma.privateData = .mmapInfo (some p) ∧
          s.driver.info? p = some info := by
  unfold vmaInfo getAllocAndFindVma
  constructor
  · intro h
    obtain ⟨j, hj, h⟩ := Option.bind_eq_some_iff.mp h
    split at hj
    · next hcopy =>
      split at h
      · next q hdata =>
        obtain ⟨vma, hvma, hown⟩ := Option.map_eq_some_iff.mp hdata
        obtain ⟨info', hinfo, heq⟩ := Option.map_eq_some_iff.mp h
        cases heq
        exact ⟨hcopy, hj, vma, hvma, hown, hinfo⟩
      · cases h
    · cases hj
  · rintro ⟨hcopy, hfind, vma, hvma, hown, hinfo⟩
    simp only [hcopy, if_true, hfind, Option.bind_some, hvma, Option.map_some, hown, hinfo]

/-- The call after its lookup. -/
def Process.answer (s : Process δ) (call : Call) (i : ℕ) (p : InfoPtr) (info : MmapInfo) :
    Int × Process δ × Option OkaData :=
  match infoHandler call.cmd with
  | some handler =>
      let r := handler info call.arg
      let out := copyBack call.cmd call.env (r.1, r.2.2)
      (out.1, ⟨s.driver.setInfo p r.2.1, s.mm⟩, out.2)
  | none =>
      let r := handleDestroy s.driver s.mm i p info
      (0, ⟨r.1, r.2⟩, none)

/-- **A command with a lookup has a result exactly if the lookup finds an object.** -/
theorem ioctl_eq_answer (h : call.cmd.LooksUp) :
    s.ioctl call = (vmaInfo s.driver s.mm call.arg call.env).map fun r =>
      s.answer call r.1 r.2.1 r.2.2 := by
  obtain ⟨cmd, arg, env⟩ := call
  cases cmd with
  | create | other n => exact absurd h id
  | alloc | seek | pop | pos | reserve | size | destroy =>
    simp only [Process.ioctl, karenaIoctl, Option.map_map]
    rfl

/-- The commands that look nothing up always have a result. -/
theorem ioctl_isSome_of_not_looksUp (h : ¬ call.cmd.LooksUp) : (s.ioctl call).isSome := by
  obtain ⟨cmd, arg, env⟩ := call
  cases cmd with
  | create | other n => rfl
  | alloc | seek | pop | pos | reserve | size | destroy => exact absurd trivial h

theorem copyBack_ne_zero_iff (cmd : Cmd) (env : Env) (r : Int × OkaData) :
    (copyBack cmd env r).1 ≠ 0 ↔ r.1 ≠ 0 ∨ (cmd ≠ .pop ∧ env.copyToUser = false) := by
  have hfault : -eFAULT ≠ 0 := by decide
  unfold copyBack
  by_cases hret : r.1 = 0
  · by_cases hpop : cmd = .pop
    · simp [hret, hpop]
    · cases henv : env.copyToUser with
      | false => simp [hret, hpop, hfault]
      | true => simp [hret, hpop]
  · simp [hret]

/-- When a command fails that has found its object. -/
theorem answer_ne_zero_iff (h : call.cmd.LooksUp) (i : ℕ) (p : InfoPtr) (info : MmapInfo) :
    (s.answer call i p info).1 ≠ 0 ↔ Fails info call := by
  obtain ⟨cmd, arg, env⟩ := call
  cases cmd with
  | create | other n => exact absurd h id
  | destroy => exact iff_of_false (fun hne => hne rfl) id
  | pop =>
    refine (copyBack_ne_zero_iff _ _ _).trans ?_
    have hfault : -eFAULT ≠ 0 := by decide
    by_cases hpop : info.cur < arg.size
    · simp [handlePop, Fails, hpop, hfault]
    · simp [handlePop, Fails, hpop]
  | alloc | seek | pos | size =>
    refine (copyBack_ne_zero_iff _ _ _).trans ?_
    simp [handleAlloc, handleSeek, handlePos, handleSize, Fails]
  | reserve =>
    refine (copyBack_ne_zero_iff _ _ _).trans ?_
    unfold handleReserve
    split
    · simp [Fails]
    · simp [Fails]

/-- What `find_vma` finds ends above the address. -/
theorem lt_end_of_findVma {mm : List (Vma δ)} {addr : UInt64} {vma : Vma δ}
    (h : ((findVma mm addr).bind fun i => mm[i]?) = some vma) : addr < vma.area.vmEnd := by
  obtain ⟨i, hfind, hvma⟩ := Option.bind_eq_some_iff.mp h
  obtain ⟨hi, habove, _⟩ := List.findIdx?_eq_some_iff_getElem.mp hfind
  rw [List.getElem?_eq_getElem hi] at hvma
  cases hvma
  exact of_decide_eq_true habove

/-- **A command acts on what it should, or fails, exactly if its lookup finds that.** -/
theorem acts_iff (s : Process δ) (call : Call) : Acts s call ↔ FindsOwn s call := by
  by_cases hlook : call.cmd.LooksUp
  · constructor
    · rintro ⟨r, hr, hacts⟩ _
      rw [ioctl_eq_answer hlook] at hr
      obtain ⟨⟨i, p, info⟩, hv, rfl⟩ := Option.map_eq_some_iff.mp hr
      obtain ⟨hcopy, hfind, vma, hvma, hown, hlive⟩ := vmaInfo_eq_some_iff.mp hv
      have hfound : ((findVma s.mm call.arg.addr).bind fun i => s.mm[i]?) = some vma := by
        rw [hfind]
        exact hvma
      refine ⟨hcopy, vma, p, info, ⟨hfound, hown, hlive⟩, ?_⟩
      rcases hacts hlook with hfails | ⟨vma', _, _, hfinds, hstart, _⟩
      · exact Or.inr ((answer_ne_zero_iff hlook i p info).mp hfails)
      · have hsame : vma' = vma := Option.some.inj (hfinds.found.symm.trans hfound)
        rw [hsame] at hstart
        exact Or.inl hstart
    · intro hown
      obtain ⟨hcopy, vma, p, info, hfinds, hcontains⟩ := hown hlook
      obtain ⟨i, hfind, hvma⟩ := Option.bind_eq_some_iff.mp hfinds.found
      have hv := vmaInfo_eq_some_iff.mpr ⟨hcopy, hfind, vma, hvma, hfinds.own, hfinds.live⟩
      refine ⟨s.answer call i p info, by rw [ioctl_eq_answer hlook, hv]; rfl, ?_⟩
      intro _
      rcases hcontains with hstart | hfails
      · exact Or.inr ⟨vma, p, info, hfinds, hstart, lt_end_of_findVma hfinds.found⟩
      · exact Or.inl ((answer_ne_zero_iff hlook i p info).mpr hfails)
  · apply iff_of_true
    · obtain ⟨r, hr⟩ := Option.isSome_iff_exists.mp (@ioctl_isSome_of_not_looksUp _ s _ hlook)
      exact ⟨r, hr, fun h => absurd h hlook⟩
    · exact fun h => absurd h hlook

end Lookup

/-! ### Address spaces in which no pointer dangles -/

/-- The mapping number `i` is one of the driver, for the object `p`. -/
def Process.Points (s : Process δ) (i : ℕ) (p : InfoPtr) : Prop :=
  (s.mm[i]?).map Vma.privateData = some (.mmapInfo (some p))

/-- No two mappings of the driver have the same object, and every object is allocated. -/
structure Process.Sound (s : Process δ) : Prop where
  apart : ∀ i j p, s.Points i p → s.Points j p → i = j
  live : ∀ i p, s.Points i p → (s.driver.info? p).isSome

section Sound

variable {s s' : Process δ} {call : Call}

theorem info?_isSome_iff {k : Module} {p : InfoPtr} :
    (k.info? p).isSome ↔ p ∉ k.kfreed ∧ p < k.infos.length := by
  unfold Module.info?
  split
  · next hfreed => exact iff_of_false (by simp) fun h => h.1 hfreed
  · next hfreed => simp [hfreed]

/-- CREATE frees no object that was there before. -/
theorem info?_handleCreate {k : Module} {p : InfoPtr} (arg : OkaData) (env : Env)
    (h : (k.info? p).isSome) : ((handleCreate k arg env).2.1.info? p).isSome := by
  obtain ⟨hfreed, hlt⟩ := info?_isSome_iff.mp h
  have hnew : p ≠ k.infos.length := Nat.ne_of_lt hlt
  have hlt' : p < k.infos.length + 1 := Nat.lt_succ_of_lt hlt
  apply info?_isSome_iff.mpr
  unfold handleCreate
  split
  · exact ⟨hfreed, hlt⟩
  · dsimp only
    split
    · simp [hfreed, hlt']
    · split
      · simp [hfreed, hnew, hlt']
      · split
        · simp [hfreed, hnew, hlt']
        · split
          · simp [hfreed, hnew, hlt']
          · simp [hfreed, hlt']

/-- A command on an object keeps all objects. -/
theorem info?_setInfo {k : Module} {q : InfoPtr} (p : InfoPtr) (info : MmapInfo)
    (h : (k.info? q).isSome) : ((k.setInfo p info).info? q).isSome := by
  rw [info?_isSome_iff] at h ⊢
  rw [Module.setInfo, List.length_set]
  exact h

/-- The mapping of a destroyed arena points to nothing, all others are as they were. -/
theorem points_handleDestroy {k : Module} {i j : ℕ} {p q : InfoPtr} {info : MmapInfo}
    {mm : List (Vma δ)}
    (h : Process.Points ⟨(handleDestroy k mm i p info).1, (handleDestroy k mm i p info).2⟩ j q) :
    j ≠ i ∧ Process.Points ⟨k, mm⟩ j q := by
  unfold Process.Points handleDestroy at h
  dsimp only at h
  rw [List.getElem?_modify, Option.map_eq_map, Option.map_map] at h
  obtain ⟨vma, hvma, hdata⟩ := Option.map_eq_some_iff.mp h
  by_cases hji : i = j
  · simp only [hji, if_true, Function.comp_apply] at hdata
    cases hdata
  · simp only [hji, if_false, Function.comp_apply] at hdata
    refine ⟨fun heq => hji heq.symm, ?_⟩
    rw [Process.Points, hvma, Option.map_some, hdata]

/-- **No command of the driver leaves a pointer dangling.** -/
theorem Process.Sound.step (h : s.Sound) (hstep : s.step call = some s') : s'.Sound := by
  obtain ⟨r, hr, rfl⟩ := Option.map_eq_some_iff.mp hstep
  obtain ⟨cmd, arg, env⟩ := call
  cases cmd with
  | other n =>
    cases hr
    exact h
  | create =>
    cases hr
    exact ⟨h.apart, fun i p hp => info?_handleCreate arg env (h.live i p hp)⟩
  | alloc | seek | pop | pos | reserve | size =>
    rw [ioctl_eq_answer (by trivial)] at hr
    obtain ⟨⟨i, p, info⟩, _, rfl⟩ := Option.map_eq_some_iff.mp hr
    exact ⟨h.apart, fun j q hq => info?_setInfo _ _ (h.live j q hq)⟩
  | destroy =>
    rw [ioctl_eq_answer (by trivial)] at hr
    obtain ⟨⟨i, p, info⟩, hv, rfl⟩ := Option.map_eq_some_iff.mp hr
    obtain ⟨_, _, vma, hvma, hown, _⟩ := vmaInfo_eq_some_iff.mp hv
    have hpoints : s.Points i p := by
      rw [Process.Points, hvma, Option.map_some, hown]
    constructor
    · intro j j' q hj hj'
      exact h.apart j j' q (points_handleDestroy hj).2 (points_handleDestroy hj').2
    · intro j q hj
      obtain ⟨hji, hold⟩ := points_handleDestroy hj
      have hqp : q ≠ p := by
        rintro rfl
        exact hji (h.apart j i q hold hpoints)
      obtain ⟨hfreed, hlt⟩ := info?_isSome_iff.mp (h.live j q hold)
      apply info?_isSome_iff.mpr
      exact ⟨by simp [Process.answer, infoHandler, handleDestroy, hfreed, hqp], hlt⟩

theorem Process.Sound.run (h : s.Sound) {calls : List Call}
    (hrun : Library.run Process.step s calls = some s') : s'.Sound :=
  run_invariant (fun _ _ _ hsound hstep => hsound.step hstep) h hrun

/-- Where no pointer dangles, the lookup finds an object exactly if it finds a mapping of the
    driver that has not been destroyed. -/
theorem Process.Sound.finds_iff (h : s.Sound) {addr : UInt64} {vma : Vma δ} {p : InfoPtr} :
    (∃ info, Finds s addr vma p info) ↔
      ((findVma s.mm addr).bind fun i => s.mm[i]?) = some vma ∧
        vma.privateData = .mmapInfo (some p) := by
  constructor
  · rintro ⟨info, hfinds⟩
    exact ⟨hfinds.found, hfinds.own⟩
  · rintro ⟨hfound, hown⟩
    obtain ⟨i, _, hvma⟩ := Option.bind_eq_some_iff.mp hfound
    have hpoints : s.Points i p := by
      rw [Process.Points, hvma, Option.map_some, hown]
    obtain ⟨info, hinfo⟩ := Option.isSome_iff_exists.mp (h.live i p hpoints)
    exact ⟨info, hfound, hown, hinfo⟩

end Sound

/-! ### The main result -/

/-- **In every run the commands act on live mappings of the driver that contain their address, or
    fail, exactly as long as their lookups find such mappings.** -/
theorem acts_along_iff (s : Process δ) (calls : List Call) :
    Along Process.step Acts s calls ↔ Along Process.step FindsOwn s calls :=
  @along_congr _ _ Process.step Acts FindsOwn (fun _ => True) (fun _ _ _ _ _ => trivial)
    (fun s call _ => acts_iff s call) s calls trivial

theorem page_pos : (0 : UInt64) < 0x10000 := by decide

theorem page_lt : (0x10000 : UInt64) < 0x11000 := by decide

def pageArea : VmArea := ⟨0x10000, 0x11000, 0, page_pos, page_lt⟩

/-- A process whose only mapping is this one, when the driver has one arena of a page. -/
def oneMapping (data : PrivateData Unit) : Process Unit :=
  ⟨⟨some 0, [⟨4096, 0, some 0⟩], [], [4096], []⟩, [⟨pageArea, data⟩]⟩

/-- An ALLOC above all mappings, one in a mapping of another driver, and a SIZE after DESTROY
    follow a pointer that is none; an ALLOC below the mapping moves the cursor of the arena. -/
theorem lookup_unchecked :
    (oneMapping (.mmapInfo (some 0))).step ⟨.alloc, ⟨0x11000, 8⟩, Env.ok⟩ = none ∧
    (oneMapping (.foreign ())).step ⟨.alloc, ⟨0x10000, 8⟩, Env.ok⟩ = none ∧
    (((oneMapping (.mmapInfo (some 0))).step ⟨.destroy, ⟨0x10000, 0⟩, Env.ok⟩).bind fun s =>
        s.step ⟨.size, ⟨0x10000, 0⟩, Env.ok⟩) = none ∧
    (((oneMapping (.mmapInfo (some 0))).step ⟨.alloc, ⟨8, 8⟩, Env.ok⟩).bind fun s =>
        s.driver.info? 0) = some ⟨4096, 8, some 0⟩ ∧
    ¬ Along Process.step Acts (oneMapping (.mmapInfo (some 0)))
      [⟨.destroy, ⟨0x10000, 0⟩, Env.ok⟩, ⟨.size, ⟨0x10000, 0⟩, Env.ok⟩] := by
  refine ⟨rfl, rfl, rfl, by decide, ?_⟩
  rintro ⟨_, hrest⟩
  obtain ⟨⟨r, hr, _⟩, _⟩ := hrest _ rfl
  cases hr

end Lmalloc.OldKarena
