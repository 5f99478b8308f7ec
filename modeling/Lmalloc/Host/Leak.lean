/-
  Lmalloc/Host/Leak.lean
  ======================
  **A page that is not clean can be read.**

  The other half of `Recycling`: when `vmalloc` hands a CREATE a page with a byte
  that another process wrote into memory that is gone, that process could have
  written any other byte, and the new owner of the page only has to map the arena
  and read it.
-/
import Lmalloc.Karena.Serving
import Lmalloc.Host.Recycling

namespace Lmalloc.Host

open Lmalloc.Library Lmalloc.Karena

/-! ### Regions are numbered in the order in which they are obtained -/

/-- What the table and `vfree` have seen are regions that have been obtained. -/
structure Numbered (k : Kernel) : Prop where
  slot_lt : ∀ i r, (k.karenas i).kaddr = some r → r < k.regions.length
  vfreed_lt : ∀ r ∈ k.vfreed, r < k.regions.length

variable {k k' : Kernel} {pid : Pid}

theorem Numbered.recedes (hk : Numbered k) (h : Recedes k k') : Numbered k' where
  slot_lt := by
    intro i r hr
    rw [h.regions_eq]
    exact hk.slot_lt i r (h.kaddr_eq hr)
  vfreed_lt := by
    intro r hr
    rw [h.regions_eq]
    rcases h.vfreed r hr with hold | ⟨i, hi⟩
    · exact hk.vfreed_lt r hold
    · exact hk.slot_lt i r hi

theorem Numbered.created (hk : Numbered k) (pid : Pid) (i : Slot) (size : UInt64) :
    Numbered (k.created pid i size) := by
  have hlen : (k.created pid i size).regions.length = k.regions.length + 1 := by
    simp [Kernel.created]
  constructor
  · intro j r hr
    rw [hlen]
    by_cases hj : j = i
    · subst hj
      rw [created_same] at hr
      cases hr
      exact Nat.lt_succ_self _
    · rw [created_other k pid size hj] at hr
      exact Nat.lt_succ_of_lt (hk.slot_lt j r hr)
  · intro r hr
    rw [hlen]
    exact Nat.lt_succ_of_lt (hk.vfreed_lt r hr)

theorem Numbered.bootstrapped (hk : Numbered k) (i : Slot) (size : UInt64) (j : Slot) :
    Numbered (k.bootstrapped i size j) := by
  constructor
  · intro l r hr
    show r < k.regions.length
    by_cases hl : l = j
    · subst hl
      rw [Kernel.bootstrapped, karenas_setSlot_same] at hr
      exact hk.slot_lt i r hr
    · rw [Kernel.bootstrapped, karenas_setSlot_other _ _ hl, kaddr_claim] at hr
      exact hk.slot_lt l r hr
  · exact hk.vfreed_lt

theorem Numbered.ioctl (hk : Numbered k) {cmd : Cmd} {d : KaData} {env : Env}
    {r : Int × Kernel × Option KaData} (h : karenaIoctl k pid cmd d env = some r) :
    Numbered r.2.1 := by
  rcases ioctl_memory h with hidle | ⟨i, _, heq⟩ | ⟨i, j, _, _, _, _, _, heq⟩ | ⟨i, _, _, _, heq⟩
  · have hlen : k.regions.length ≤ r.2.1.regions.length := by
      rcases ioctl_regions h with hr | ⟨hr, -⟩
      · simp [hr]
      · simp [hr]
    constructor
    · intro i r hr
      exact Nat.lt_of_lt_of_le (hk.slot_lt i r (hidle.kaddr_eq hr)) hlen
    · intro r hr
      rw [hidle.vfreed_eq] at hr
      exact Nat.lt_of_lt_of_le (hk.vfreed_lt r hr) hlen
  · rw [heq]
    exact hk.created pid i _
  · rw [heq]
    exact hk.bootstrapped i d.size j
  · rw [heq]
    exact hk.recedes (recedes_destroy k i d)

theorem numbered_boot : Numbered Kernel.boot := ⟨fun _ _ h => (by cases h), fun _ h => (by cases h)⟩

section Steps

variable {c c' c₁ : Control} {b : Backing} {u : Update Place UInt8 (Pid × Backing)}

/-- Obtaining pages changes none of the modules, and writes nothing. -/
theorem obtain_spec {size? : Option UInt64} {pages : List Frame} {zeroed : Bool}
    (h : c.obtain b size? pages zeroed = some (c', u)) :
    c'.karena = c.karena ∧ ∀ place v w, u ≠ .write place v w := by
  cases size? with
  | none =>
    cases h
    exact ⟨rfl, fun _ _ _ h => (by cases h)⟩
  | some size =>
    simp only [Control.obtain, Option.ite_none_right_eq_some, Option.some.injEq,
      Prod.mk.injEq] at h
    obtain ⟨-, rfl, rfl⟩ := h
    refine ⟨rfl, ?_⟩
    intro place v w
    cases zeroed
    · exact fun h => (by cases h)
    · exact fun h => (by cases h)

theorem mapDevice_karena {area : VmArea}
    {driver : Option (Control × Option (OldKarena.PrivateData Other))}
    (hdriver : ∀ c₁ data, driver = some (c₁, data) → Numbered c₁.karena)
    (h : c.mapDevice pid area driver = some c') : Numbered c'.karena := by
  simp only [Control.mapDevice, Option.ite_none_right_eq_some, Option.map_eq_some_iff,
    Prod.exists] at h
  obtain ⟨-, c₁, data, hd, rfl⟩ := h
  cases data with
  | none => exact hdriver c₁ none hd
  | some data => exact hdriver c₁ (some data) hd

/-- **A step keeps the regions numbered, and if it writes it is a write.** -/
theorem next_spec {e : Event} (h : c.next e = some (c', u)) :
    (Numbered c.karena → Numbered c'.karena) ∧
      ∀ place v w, u = .write place v w → ∃ pid addr, e = .write pid addr v := by
  cases e with
  | kaOpen =>
    cases h
    exact ⟨fun hk => ⟨hk.slot_lt, hk.vfreed_lt⟩, fun _ _ _ h => (by cases h)⟩
  | kaIoctl pid cmd alloc env pages =>
    simp only [Control.next, Control.ioctlKarena, Option.bind_eq_some_iff] at h
    obtain ⟨r, hcall, hob⟩ := h
    obtain ⟨hkarena, hu⟩ := obtain_spec hob
    refine ⟨?_, fun place v w heq => absurd heq (hu place v w)⟩
    rw [hkarena]
    exact fun hk => hk.ioctl hcall
  | kaMmap pid area =>
    obtain ⟨c₁, hmap, heq⟩ := Option.map_eq_some_iff.mp h
    cases heq
    refine ⟨fun hk => mapDevice_karena ?_ hmap, fun _ _ _ h => (by cases h)⟩
    intro c₂ data hd
    obtain ⟨⟨ret, k, slot⟩, hcall, heq⟩ := Option.map_eq_some_iff.mp hd
    cases heq
    rcases karenaMmap_cases hcall with ⟨_, _, rfl⟩ | ⟨i, _, _, _, rfl⟩
    · exact hk
    · exact hk.recedes ((Recedes.refl _).setSlot i (Or.inl rfl))
  | kaRelease pid =>
    cases h
    exact ⟨fun hk => hk.recedes (recedes_release c.karena pid), fun _ _ _ h => (by cases h)⟩
  | okaIoctl pid cmd arg env pages =>
    simp only [Control.next, Control.ioctlOkarena, Option.bind_eq_some_iff] at h
    obtain ⟨r, hcall, hob⟩ := h
    obtain ⟨hkarena, hu⟩ := obtain_spec hob
    refine ⟨?_, fun place v w heq => absurd heq (hu place v w)⟩
    rw [hkarena]
    exact id
  | okaMmap pid area =>
    obtain ⟨c₁, hmap, heq⟩ := Option.map_eq_some_iff.mp h
    cases heq
    refine ⟨fun hk => mapDevice_karena ?_ hmap, fun _ _ _ h => (by cases h)⟩
    intro c₂ data hd
    obtain ⟨_, _, heq⟩ := Option.map_eq_some_iff.mp hd
    cases heq
    exact hk
  | uaCreate pid contiguous arenaSz cap start pages =>
    simp only [Control.next, Control.uaCreate] at h
    split at h
    · cases h
      exact ⟨id, fun _ _ _ h => (by cases h)⟩
    · rw [Option.ite_none_right_eq_some] at h
      obtain ⟨hkarena, hu⟩ := obtain_spec h.2
      refine ⟨?_, fun place v w heq => absurd heq (hu place v w)⟩
      rw [hkarena]
      exact id
  | munmap pid start =>
    cases h
    exact ⟨id, fun _ _ _ h => (by cases h)⟩
  | read pid addr =>
    obtain ⟨_, _, heq⟩ := Option.map_eq_some_iff.mp h
    cases heq
    exact ⟨id, fun _ _ _ h => (by cases h)⟩
  | write pid addr v =>
    obtain ⟨_, _, heq⟩ := Option.map_eq_some_iff.mp h
    cases heq
    refine ⟨id, ?_⟩
    intro place v' w heq
    cases heq
    exact ⟨pid, addr, rfl⟩

theorem run_numbered {m : Memory} {es : List Event} {s : State}
    (h : run step (Control.boot, m) es = some s) : Numbered s.1.karena := by
  refine run_invariant (I := fun s => Numbered s.1.karena) ?_ numbered_boot h
  intro s e s' hs hstep
  obtain ⟨c', u, hnext, rfl⟩ := storeStep_eq_some.mp hstep
  exact (next_spec hnext).1 hs

/-- A process that writes a byte could have written any other. -/
theorem next_write_any {e : Event} {place : Place} {v : UInt8} {w : Pid × Backing}
    (h : c.next e = some (c', .write place v w)) (v' : UInt8) :
    ∃ e', c.next e' = some (c', .write place v' w) := by
  obtain ⟨pid, addr, rfl⟩ := (next_spec h).2 place v w rfl
  obtain ⟨⟨b, place'⟩, hplace, heq⟩ := Option.map_eq_some_iff.mp h
  cases heq
  exact ⟨.write pid addr v', Option.map_eq_some_iff.mpr ⟨_, hplace, rfl⟩⟩

end Steps

/-! ### Mapping and reading a page -/

theorem toNat_lowEnd {n : ℕ} (h : n + 2 < 2 ^ 52) :
    (UInt64.ofNat (4096 * (n + 2))).toNat = 4096 * (n + 2) :=
  UInt64.toNat_ofNat_of_lt' (by simp only [UInt64.size]; omega)

theorem toNat_page {n : ℕ} (h : n + 2 < 2 ^ 52) : (UInt64.ofNat n).toNat = n :=
  UInt64.toNat_ofNat_of_lt' (by simp only [UInt64.size]; omega)

theorem lowStart_lt {n : ℕ} (h : n + 2 < 2 ^ 52) :
    (4096 : UInt64) < UInt64.ofNat (4096 * (n + 2)) := by
  rw [UInt64.lt_iff_toNat_lt, toNat_lowEnd h]
  simp only [UInt64.reduceToNat]
  omega

theorem toNat_sub_lowStart {a : UInt64} (h : 4096 ≤ a) : (a - 4096).toNat = a.toNat - 4096 :=
  UInt64.toNat_sub_of_le _ _ h

theorem lowStart_pos : (0 : UInt64) < 4096 := by decide

theorem lowStart_mod : (4096 : UInt64) % 4096 = 0 := by decide

/-- The area of the pages `1, …, n + 1` of an address space. -/
def lowArea (n : ℕ) (h : n + 2 < 2 ^ 52) : VmArea where
  vmStart := 4096
  vmEnd := UInt64.ofNat (4096 * (n + 2))
  vmPgoff := 0
  start_pos := lowStart_pos
  start_lt_end := lowStart_lt h

section Read

variable {c : Control} {i : Slot} {size : UInt64} {n o : ℕ}

/-- The state after the owner has mapped the pages up to page `n` of its new arena. -/
def Control.mappedLow (c : Control) (pid : Pid) (i : Slot) (n : ℕ) (h : n + 2 < 2 ^ 52) :
    Control :=
  { c with
    karena := c.karena.setSlot i { c.karena.karenas i with uaddr := (lowArea n h).vmStart }
    mm := Function.update c.mm pid [⟨lowArea n h, .foreign (.karena i)⟩] }

theorem next_kaMmap_created (hk : c.karena = k.created pid i size) (hmm : c.mm pid = [])
    (h : n + 2 < 2 ^ 52) (hn : n < size.toNat / 4096) :
    c.next (.kaMmap pid (lowArea n h)) = some (c.mappedLow pid i n h, .keep) := by
  have hslot : slot? c.karena.currentArenaIndex = some i := by
    rw [hk]
    exact slot?_slotIndex i
  have harena : c.karena.karenas i = ⟨size, 0, 0, false, some k.regions.length, pid⟩ := by
    rw [hk, created_same]
  have hlen : (lowArea n h).vmEnd - (lowArea n h).vmStart ≤ size := by
    have hsub := toNat_sub_lowStart (UInt64.le_of_lt (lowStart_lt h))
    rw [toNat_lowEnd h] at hsub
    rw [UInt64.le_iff_toNat_le]
    refine Nat.le_trans (Nat.le_of_eq hsub) ?_
    omega
  have hvacant : c.Vacant pid (lowArea n h) := by
    refine ⟨lowStart_mod, ?_, ?_⟩
    · apply UInt64.toNat.inj
      rw [UInt64.toNat_mod]
      show (UInt64.ofNat (4096 * (n + 2))).toNat % 4096 = 0
      rw [toNat_lowEnd h]
      omega
    · rw [hmm]
      exact fun _ hmem => absurd hmem List.not_mem_nil
  have hcall : karenaMmap c.karena (lowArea n h) = some (0, (c.mappedLow pid i n h).karena, some i) := by
    rw [karenaMmap_eq hslot, if_pos ⟨by rw [harena], by rw [harena]; exact hlen, rfl⟩]
    rfl
  simp only [Control.next, hcall, Option.map_some, Control.mapDevice, if_pos hvacant,
    Option.elim_some, Control.addVma, hmm]
  rfl

/-- The owner of a new arena finds byte `o` of page `n` of it. -/
theorem placeAt_mappedLow (hnum : Numbered k) (hk : c.karena = k.created pid i size)
    (htable : ∀ vpn, c.pageTable pid vpn = none) (h : n + 2 < 2 ^ 52)
    (hn : n < size.toNat / 4096) (ho : o < 4096) {f : Frame}
    (hf : (c.frames (.karena k.regions.length))[n]? = some f) :
    (c.mappedLow pid i n h).placeAt pid (UInt64.ofNat (4096 * (n + 1) + o)) =
      some (.karena k.regions.length, f, o) := by
  have haddr : (UInt64.ofNat (4096 * (n + 1) + o)).toNat = 4096 * (n + 1) + o :=
    UInt64.toNat_ofNat_of_lt' (by simp only [UInt64.size]; omega)
  have hend : UInt64.ofNat (4096 * (n + 1) + o) < (lowArea n h).vmEnd := by
    rw [UInt64.lt_iff_toNat_lt, haddr]
    exact Nat.lt_of_lt_of_eq (by omega) (toNat_lowEnd h).symm
  have hstart : (lowArea n h).vmStart ≤ UInt64.ofNat (4096 * (n + 1) + o) := by
    rw [UInt64.le_iff_toNat_le, haddr]
    show 4096 ≤ _
    omega
  have hpgoff : (lowArea n h).vmPgoff +
      ((UInt64.ofNat (4096 * (n + 1) + o) - (lowArea n h).vmStart) >>> 12) = UInt64.ofNat n := by
    have hsub := toNat_sub_lowStart hstart
    rw [haddr] at hsub
    show (0 : UInt64) + ((UInt64.ofNat (4096 * (n + 1) + o) - 4096) >>> 12) = UInt64.ofNat n
    apply UInt64.toNat.inj
    rw [UInt64.zero_add, UInt64.toNat_shiftRight, hsub, toNat_page h, Nat.shiftRight_eq_div_pow]
    simp only [UInt64.reduceToNat, Nat.reduceMod, Nat.reducePow]
    omega
  have hfault : karenaVmFault (c.mappedLow pid i n h).karena i (UInt64.ofNat n) =
      some ⟨k.regions.length, n⟩ := by
    have hoff : (UInt64.ofNat n <<< 12).toNat = n * 4096 := by
      rw [UInt64.toNat_shiftLeft, toNat_page h, Nat.shiftLeft_eq]
      simp only [UInt64.reduceToNat, Nat.reduceMod, Nat.reducePow]
      omega
    have hsize : UInt64.ofNat n <<< 12 < size := by
      rw [UInt64.lt_iff_toNat_lt, hoff]
      omega
    have hkept : k.regions.length ∉ k.vfreed := fun hmem => Nat.lt_irrefl _ (hnum.vfreed_lt _ hmem)
    have hregion : (k.created pid i size).regions[k.regions.length]? = some size := by
      simp [Kernel.created]
    have hvfreed : (k.created pid i size).vfreed = k.vfreed := rfl
    simp [karenaVmFault, Control.mappedLow, hk, vmallocToPage, hregion, hvfreed, hkept, hsize,
      UInt64.not_le.mpr hsize, hoff]
  have hpage : (c.mappedLow pid i n h).pageAt pid (UInt64.ofNat (4096 * (n + 1) + o)) =
      some (.karena k.regions.length, n) := by
    have hmm : (c.mappedLow pid i n h).mm pid = [⟨lowArea n h, .foreign (.karena i)⟩] :=
      Function.update_self _ _ _
    have htable' : (c.mappedLow pid i n h).pageTable = c.pageTable := rfl
    simp only [Control.pageAt, htable', htable, hmm, List.find?_cons, decide_eq_true hend,
      Option.bind_some, if_pos hstart, hpgoff, Control.fault, hfault, Option.map_some]
  simp only [Control.placeAt, hpage, Option.bind_some]
  rw [show (c.mappedLow pid i n h).frames = c.frames from rfl, hf, haddr]
  simp
  omega

end Read

theorem created_next {c c' : Control} {b : Backing} {size arena : UInt64} {env : Env}
    {pages : List Frame} {u : Update Place UInt8 (Pid × Backing)}
    (hfresh : c.fresh (.kaIoctl pid .create ⟨size, arena⟩ env pages) = some (pid, b))
    (hnext : c.next (.kaIoctl pid .create ⟨size, arena⟩ env pages) = some (c', u)) :
    ∃ i, b = .karena c.karena.regions.length ∧ pages.length = (pageAlign size).toNat / 4096 ∧
      u = .keep ∧ c'.karena = c.karena.created pid i (pageAlign size) ∧ c'.mm = c.mm ∧
      c'.pageTable = c.pageTable ∧ c'.frames b = pages := by
  obtain ⟨⟨ret, k', out⟩, hcall, hret⟩ := Option.bind_eq_some_iff.mp hfresh
  simp only [Option.ite_none_right_eq_some, Option.some.injEq, Prod.mk.injEq, true_and] at hret
  obtain ⟨rfl, rfl⟩ := hret
  obtain ⟨i, -, rfl, -⟩ := create_success hcall
  simp only [Control.next, Control.ioctlKarena, hcall, Option.bind_some] at hnext
  have hregion : (c.karena.created pid i (pageAlign size)).regions[c.karena.regions.length]? =
      some (pageAlign size) := List.getElem?_concat_length
  rw [hregion] at hnext
  simp only [Control.obtain, Option.ite_none_right_eq_some, Option.some.injEq,
    Prod.mk.injEq] at hnext
  obtain ⟨hlength, rfl, rfl⟩ := hnext
  exact ⟨i, rfl, hlength, rfl, rfl, rfl, rfl, Function.update_self _ _ _⟩

/-! ### The other run -/

/-- **If `vmalloc` hands out a page that is not clean, the new owner may read something else in
    another run.**  The owner has no mapping yet, and the arena is one that fits into an address
    space. -/
theorem reads_differ_of_dirty {m : Memory} (hm : ∀ place, (m place).writer = none)
    {earlier : List Event} {s s₁ : State} {pid : Pid} {b : Backing} {size arena : UInt64}
    {env : Env} {pages : List Frame} (hearlier : run step (Control.boot, m) earlier = some s)
    (hfresh : s.1.fresh (.kaIoctl pid .create ⟨size, arena⟩ env pages) = some (pid, b))
    (hstep : step s (.kaIoctl pid .create ⟨size, arena⟩ env pages) = some s₁)
    (hdirty : ¬ s.HandsOutClean (.kaIoctl pid .create ⟨size, arena⟩ env pages))
    (hmm : s.1.mm pid = []) (htable : ∀ vpn, s.1.pageTable pid vpn = none)
    (hfits : pages.length < 2 ^ 51) :
    ∃ earlier' later t t' addr v v',
      DifferOnlyIn Control.next (s.1.OthersGone pid) Control.boot earlier earlier' ∧
      run step s (.kaIoctl pid .create ⟨size, arena⟩ env pages :: later) = some t ∧
      run step (Control.boot, m)
        (earlier' ++ .kaIoctl pid .create ⟨size, arena⟩ env pages :: later) = some t' ∧
      t.read pid addr = some (b, v) ∧ t'.read pid addr = some (b, v') ∧ v ≠ v' := by
  simp only [State.HandsOutClean, Cell.Clean, not_forall, not_not] at hdirty
  obtain ⟨f, hf, o, ho, w, hwriter, hw⟩ := hdirty
  obtain ⟨n, hn⟩ := List.mem_iff_getElem?.mp hf
  -- the other run writes another byte there
  have hchange := @run_untouched_or_changed _ _ _ _ _ Control.next _ _ _ m s.2 _ _ (f, o) w
    ((s.2 (f, o)).value + 1) hw (fun _ _ _ _ _ h v' => next_write_any h v') earlier hearlier hwriter
  rcases hchange with huntouched | ⟨earlier', m', hdiffer, hearlier', hvalue⟩
  · obtain ⟨m', hrun, hsame⟩ := huntouched m
    have heq : s.2 = m' := congrArg Prod.snd (Option.some.inj (hearlier.symm.trans hrun))
    subst heq
    rw [hsame, hm] at hwriter
    cases hwriter
  obtain ⟨c₁, u, hnext, rfl⟩ := storeStep_eq_some.mp hstep
  obtain ⟨i, rfl, hlength, rfl, hkarena, hmm', htable', hframes⟩ := created_next hfresh hnext
  have hpage : n < (pageAlign size).toNat / 4096 :=
    Nat.lt_of_lt_of_eq (List.getElem?_eq_some_iff.mp hn).1 hlength
  have hroom : n + 2 < 2 ^ 52 := by omega
  have hmap := next_kaMmap_created hkarena (by rw [hmm', hmm]) hroom hpage
  have hplace := placeAt_mappedLow (run_numbered hearlier) hkarena (by rw [htable']; exact htable)
    hroom hpage ho (by rw [hframes]; exact hn)
  have hboth : ∀ m₀ : Memory, run step (s.1, m₀)
      [.kaIoctl pid .create ⟨size, arena⟩ env pages, .kaMmap pid (lowArea n hroom)] =
        some (c₁.mappedLow pid i n hroom, m₀) := by
    intro m₀
    rw [run_cons_of_step (storeStep_of_next hnext m₀), run_cons_of_step (storeStep_of_next hmap _)]
    rfl
  refine ⟨earlier', [.kaMmap pid (lowArea n hroom)], (c₁.mappedLow pid i n hroom, s.2),
    (c₁.mappedLow pid i n hroom, m'), UInt64.ofNat (4096 * (n + 1) + o), (s.2 (f, o)).value,
    (m' (f, o)).value, hdiffer, hboth s.2, ?_, ?_, ?_, ?_⟩
  · rw [run_append hearlier', hboth m']
  · rw [State.read, hplace, Option.map_some]
  · rw [State.read, hplace, Option.map_some]
  · rw [hvalue]
    exact fun heq => absurd (add_eq_left.mp heq.symm) (by decide)

end Lmalloc.Host
