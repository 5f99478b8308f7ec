/-
  Lmalloc/Host/Recycling.lean
  ===========================
  **What a fresh arena shows of the arenas whose pages it got.**

  Two runs of the host differ in what other processes wrote into arenas that have
  been given back since.  A process then creates an arena, and both runs go on in
  the same way.  What the process reads in an arena of `oka_create` or `ua_create`
  is the same in both, because its pages are cleared.  In one of `ka_create` it is
  the same when no byte of its pages is one of those the runs differ in, and only
  then: `vmalloc` leaves the pages as they are, and nothing else clears them.
-/
import Lmalloc.Karena.Isolation
import Lmalloc.Karena.Regions
import Lmalloc.Host.Machine

namespace Lmalloc.Host

open Lmalloc.Library Lmalloc.Karena

/-! ### Memory keeps its pages -/

namespace Control

/-- The memory has been obtained, in this state or before. -/
def Has (c : Control) : Backing → Prop
  | .karena r => r < c.karena.regions.length
  | .okarena r => r < c.okarena.regions.length
  | .anon n => n < c.anons

/-- What has been obtained before `c` consists of the same pages in `c'`. -/
def Keeps (c c' : Control) : Prop := ∀ b, c.Has b → c'.Has b ∧ c'.frames b = c.frames b

variable {c c' c₁ : Control} {pid : Pid} {b : Backing}

theorem Keeps.of_le (hk : c.karena.regions.length ≤ c'.karena.regions.length)
    (ho : c.okarena.regions.length ≤ c'.okarena.regions.length) (hn : c.anons ≤ c'.anons)
    (hf : c'.frames = c.frames) : c.Keeps c' := by
  intro b hb
  refine ⟨?_, congrFun hf b⟩
  cases b with
  | karena r => exact Nat.lt_of_lt_of_le hb hk
  | okarena r => exact Nat.lt_of_lt_of_le hb ho
  | anon n => exact Nat.lt_of_lt_of_le hb hn

theorem Keeps.obtain {size? : Option UInt64} {pages : List Frame} {zeroed : Bool}
    {u : Update Place UInt8 (Pid × Backing)}
    (hob : c₁.obtain b size? pages zeroed = some (c', u)) (h : c.Keeps c₁) (hb : ¬ c.Has b) :
    c.Keeps c' := by
  cases size? with
  | none =>
    obtain ⟨rfl, -⟩ : c₁ = c' ∧ _ := by simpa [Control.obtain] using hob
    exact h
  | some size =>
    simp only [Control.obtain, Option.ite_none_right_eq_some, Option.some.injEq,
      Prod.mk.injEq] at hob
    obtain ⟨-, rfl, -⟩ := hob
    intro b' hb'
    have hne : b' ≠ b := fun heq => hb (heq ▸ hb')
    exact ⟨(h b' hb').1, (Function.update_of_ne hne _ _).trans (h b' hb').2⟩

theorem Keeps.mapDevice {area : VmArea}
    {driver : Option (Control × Option (OldKarena.PrivateData Other))}
    (hdriver : ∀ c₁ data, driver = some (c₁, data) → c.Keeps c₁)
    (h : c.mapDevice pid area driver = some c') : c.Keeps c' := by
  simp only [Control.mapDevice, Option.ite_none_right_eq_some, Option.map_eq_some_iff,
    Prod.exists] at h
  obtain ⟨-, c₁, data, hd, rfl⟩ := h
  cases data with
  | none => exact hdriver c₁ none hd
  | some data => exact hdriver c₁ (some data) hd

theorem ioctlKarena_keeps {cmd : Cmd} {alloc : KaData} {env : Env} {pages : List Frame}
    {u : Update Place UInt8 (Pid × Backing)}
    (h : c.ioctlKarena pid cmd alloc env pages = some (c', u)) : c.Keeps c' := by
  simp only [ioctlKarena, Option.bind_eq_some_iff, Prod.exists] at h
  obtain ⟨ret, k, out, hcall, hob⟩ := h
  refine Keeps.obtain hob (Keeps.of_le ?_ le_rfl le_rfl rfl) (Nat.lt_irrefl _)
  rcases ioctl_regions hcall with hr | ⟨hr, -⟩
  · simp [hr]
  · simp [hr]

theorem ioctlOkarena_keeps {cmd : OldKarena.Cmd} {arg : OldKarena.OkaData} {env : OldKarena.Env}
    {pages : List Frame} {u : Update Place UInt8 (Pid × Backing)}
    (h : c.ioctlOkarena pid cmd arg env pages = some (c', u)) : c.Keeps c' := by
  simp only [ioctlOkarena, Option.bind_eq_some_iff, Prod.exists] at h
  obtain ⟨ret, k, mm, out, hcall, hob⟩ := h
  refine Keeps.obtain hob (Keeps.of_le le_rfl ?_ le_rfl rfl) (Nat.lt_irrefl _)
  rcases OldKarena.ioctl_regions hcall with hr | ⟨hr, -⟩
  · simp [hr]
  · simp [hr]

theorem uaCreate_keeps {contiguous : Bool} {arenaSz cap start : UInt64} {pages : List Frame}
    {u : Update Place UInt8 (Pid × Backing)}
    (h : c.uaCreate pid contiguous arenaSz cap start pages = some (c', u)) : c.Keeps c' := by
  unfold uaCreate at h
  dsimp only at h
  split at h
  · cases h
    exact Keeps.of_le le_rfl le_rfl le_rfl rfl
  · rw [Option.ite_none_right_eq_some] at h
    exact Keeps.obtain h.2 (Keeps.of_le le_rfl le_rfl (Nat.le_succ _) rfl) (Nat.lt_irrefl _)

theorem next_keeps {e : Event} {u : Update Place UInt8 (Pid × Backing)}
    (h : c.next e = some (c', u)) : c.Keeps c' := by
  cases e with
  | kaOpen =>
    cases h
    exact Keeps.of_le le_rfl le_rfl le_rfl rfl
  | kaIoctl pid cmd alloc env pages => exact ioctlKarena_keeps h
  | kaMmap pid area =>
    obtain ⟨c₁, hmap, heq⟩ := Option.map_eq_some_iff.mp h
    cases heq
    refine Keeps.mapDevice ?_ hmap
    intro c₂ data hd
    obtain ⟨⟨ret, k, slot⟩, hcall, heq⟩ := Option.map_eq_some_iff.mp hd
    cases heq
    have hregions : k.regions = c.karena.regions := by
      rcases karenaMmap_cases hcall with ⟨_, _, rfl⟩ | ⟨i, _, _, _, rfl⟩
      · rfl
      · rfl
    exact Keeps.of_le (le_of_eq (congrArg List.length hregions.symm)) le_rfl le_rfl rfl
  | kaRelease pid =>
    cases h
    have hregions := (recedes_release c.karena pid).regions_eq
    exact Keeps.of_le (le_of_eq (congrArg List.length hregions.symm)) le_rfl le_rfl rfl
  | okaIoctl pid cmd arg env pages => exact ioctlOkarena_keeps h
  | okaMmap pid area =>
    obtain ⟨c₁, hmap, heq⟩ := Option.map_eq_some_iff.mp h
    cases heq
    refine Keeps.mapDevice ?_ hmap
    intro c₂ data hd
    obtain ⟨_, _, heq⟩ := Option.map_eq_some_iff.mp hd
    cases heq
    exact Keeps.of_le le_rfl le_rfl le_rfl rfl
  | uaCreate pid contiguous arenaSz cap start pages => exact uaCreate_keeps h
  | munmap pid start =>
    cases h
    exact Keeps.of_le le_rfl le_rfl le_rfl rfl
  | read pid addr | write pid addr v =>
    obtain ⟨_, _, heq⟩ := Option.map_eq_some_iff.mp h
    cases heq
    exact Keeps.of_le le_rfl le_rfl le_rfl rfl

/-! ### The pages of a fresh arena -/

theorem obtain_pages {size? : Option UInt64} {size : UInt64} {pages : List Frame} {zeroed : Bool}
    {u : Update Place UInt8 (Pid × Backing)} (hsize : size? = some size)
    (h : c.obtain b size? pages zeroed = some (c', u)) :
    c'.frames b = pages ∧ u = (if zeroed then clearPages pages else .keep) ∧
      (c.Has b → c'.Has b) := by
  subst hsize
  simp only [Control.obtain, Option.ite_none_right_eq_some, Option.some.injEq, Prod.mk.injEq] at h
  obtain ⟨-, rfl, rfl⟩ := h
  refine ⟨Function.update_self _ _ _, rfl, ?_⟩
  cases b with
  | karena r | okarena r | anon r => exact fun hb => hb

/-- **A fresh arena is one of `vmalloc`, whose pages hold what they held, or its pages have
    been cleared.** -/
theorem fresh_pages {e : Event} {u : Update Place UInt8 (Pid × Backing)}
    (hfresh : c.fresh e = some (pid, b)) (h : c.next e = some (c', u)) :
    c'.Has b ∧ ((∃ alloc env, e = .kaIoctl pid .create alloc env (c'.frames b) ∧ u = .keep) ∨
      u = clearPages (c'.frames b)) := by
  unfold Control.fresh at hfresh
  split at hfresh
  · rename_i p alloc env pages
    obtain ⟨⟨ret, k, out⟩, hcall, hret⟩ := Option.bind_eq_some_iff.mp hfresh
    simp only [Option.ite_none_right_eq_some, Option.some.injEq, Prod.mk.injEq] at hret
    obtain ⟨hzero, rfl, rfl⟩ := hret
    have hregions : k.regions = c.karena.regions ++ [pageAlign alloc.size] := by
      rcases ioctl_regions hcall with hr | ⟨-, hr⟩
      · exact hr
      · exact absurd hzero (hr rfl)
    simp only [Control.next, ioctlKarena, hcall, Option.bind_some] at h
    obtain ⟨hpages, hu, hhas⟩ := obtain_pages (by rw [hregions, List.getElem?_concat_length]) h
    refine ⟨hhas ?_, Or.inl ⟨alloc, env, by rw [hpages], hu⟩⟩
    exact Nat.lt_of_lt_of_eq (Nat.lt_succ_self _) (by simp [hregions])
  · rename_i p arg env pages
    obtain ⟨⟨ret, k, mm, out⟩, hcall, hret⟩ := Option.bind_eq_some_iff.mp hfresh
    simp only [Option.ite_none_right_eq_some, Option.some.injEq, Prod.mk.injEq] at hret
    obtain ⟨hzero, rfl, rfl⟩ := hret
    have hregions : k.regions = c.okarena.regions ++ [pageAlign arg.size] := by
      rcases OldKarena.ioctl_regions hcall with hr | ⟨-, hr⟩
      · exact hr
      · exact absurd hzero (hr rfl)
    simp only [Control.next, ioctlOkarena, hcall, Option.bind_some] at h
    obtain ⟨hpages, hu, hhas⟩ := obtain_pages (by rw [hregions, List.getElem?_concat_length]) h
    refine ⟨hhas ?_, Or.inr (by rw [hpages, hu, if_pos rfl])⟩
    exact Nat.lt_of_lt_of_eq (Nat.lt_succ_self _) (by simp [hregions])
  · rename_i p contiguous arenaSz cap start pages
    obtain ⟨area, harea, heq⟩ := Option.map_eq_some_iff.mp hfresh
    cases heq
    simp only [Control.next, uaCreate, harea, Option.ite_none_right_eq_some] at h
    obtain ⟨hpages, hu, hhas⟩ := obtain_pages rfl h.2
    exact ⟨hhas (Nat.lt_succ_self _), Or.inr (by rw [hpages, hu, if_pos rfl])⟩
  · cases hfresh

end Control

/-! ### Two runs -/

/-- What other processes have written into memory that is gone. -/
def Control.OthersGone (c : Control) (pid : Pid) : Pid × Backing → Prop :=
  fun w => w.1 ≠ pid ∧ c.Gone w.2

/-- `vmalloc` hands a CREATE of `karena` no page with a byte that another process wrote into
    memory that is gone. -/
def State.HandsOutClean (s : State) : Event → Prop
  | .kaIoctl pid .create _ _ pages =>
      ∀ f ∈ pages, ∀ o < 4096, (s.2 (f, o)).Clean (s.1.OthersGone pid)
  | _ => True

/-- The bytes of the pages. -/
def bytesOf (pages : List Frame) : Set Place := {place | place.1 ∈ pages ∧ place.2 < 4096}

theorem placeAt_mem {c : Control} {pid : Pid} {addr : UInt64} {b : Backing} {place : Place}
    (h : c.placeAt pid addr = some (b, place)) : place ∈ bytesOf (c.frames b) := by
  simp only [Control.placeAt, Option.bind_eq_some_iff, Option.map_eq_some_iff, Prod.mk.injEq] at h
  obtain ⟨page, -, frame, hframe, rfl, rfl⟩ := h
  exact ⟨List.mem_of_getElem? hframe, Nat.mod_lt _ (by decide)⟩

theorem run_keeps {s t : State} {es : List Event} (h : run step s es = some t) :
    s.1.Keeps t.1 := by
  have hstart : s.1.Keeps s.1 := fun b hb => ⟨hb, rfl⟩
  refine run_invariant (I := fun t => s.1.Keeps t.1) ?_ hstart h
  intro t e t' ht hstep
  obtain ⟨c', u, hnext, rfl⟩ := storeStep_eq_some.mp hstep
  intro b hb
  have hmid := ht b hb
  have hlast := Control.next_keeps hnext b hmid.1
  exact ⟨hlast.1, hlast.2.trans hmid.2⟩

/-- After the creation the two memories agree on the pages of the fresh arena. -/
theorem fresh_agree {s : State} {e : Event} {pid : Pid} {b : Backing} {c' : Control}
    {u : Update Place UInt8 (Pid × Backing)} {m : Memory}
    (hfresh : s.1.fresh e = some (pid, b)) (hclean : s.HandsOutClean e)
    (hnext : s.1.next e = some (c', u)) (hm : Store.SameBut (s.1.OthersGone pid) s.2 m) :
    ∀ place ∈ bytesOf (c'.frames b), u.apply s.2 place = u.apply m place := by
  rintro ⟨f, o⟩ ⟨hf, ho⟩
  rcases (Control.fresh_pages hfresh hnext).2 with ⟨alloc, env, rfl, rfl⟩ | rfl
  · exact hm.eq_of_clean (hclean f hf o ho)
  · simp only [Control.clearPages, Update.apply, decide_eq_true hf, if_true]

/-- **Whatever other processes wrote into arenas that are gone, a process reads the same in a
    fresh arena whose creation hands it clean pages.** -/
theorem fresh_arena_reads_same {m : Memory} {earlier earlier' later : List Event} {e : Event}
    {s t : State} {pid : Pid} {b : Backing}
    (hearlier : run step (Control.boot, m) earlier = some s)
    (hdiffer : DifferOnlyIn Control.next (s.1.OthersGone pid) Control.boot earlier earlier')
    (hfresh : s.1.fresh e = some (pid, b)) (hclean : s.HandsOutClean e)
    (hrun : run step s (e :: later) = some t) :
    ∃ t', run step (Control.boot, m) (earlier' ++ e :: later) = some t' ∧
      ∀ addr v, t.read pid addr = some (b, v) → t'.read pid addr = some (b, v) := by
  obtain ⟨m', hearlier', hm⟩ := run_sameBut hdiffer (Store.SameBut.refl _ m) hearlier
  obtain ⟨s₁, hstep, hlater⟩ := run_cons_eq_some.mp hrun
  obtain ⟨c', u, hnext, rfl⟩ := storeStep_eq_some.mp hstep
  have hagree := fresh_agree hfresh hclean hnext hm
  obtain ⟨m'', hlater', hend⟩ := run_agree hagree hlater
  refine ⟨(t.1, m''), ?_, ?_⟩
  · rw [run_append hearlier', run_cons_of_step (storeStep_of_next hnext m'), hlater']
  · intro addr v hread
    obtain ⟨⟨b', place⟩, hplace, heq⟩ := Option.map_eq_some_iff.mp hread
    cases heq
    have hframes := (run_keeps hlater b (Control.fresh_pages hfresh hnext).1).2
    have hmem := placeAt_mem hplace
    rw [hframes] at hmem
    exact Option.map_eq_some_iff.mpr ⟨(b, place), hplace, by rw [hend place hmem]⟩

/-- Memory that nobody has written. -/
def zeros : Memory := fun _ => ⟨0, none⟩

/-- Process 2 makes an arena of one page, the page 5, writes a byte and destroys it. -/
def pageUsed (v : UInt8) : List Event :=
  [.kaOpen, .kaIoctl 2 .create ⟨4096, 0⟩ Env.ok [5], .kaMmap 2 pageArea] ++
    .write 2 0x10010 v :: [.kaIoctl 2 .destroy ⟨0, 0⟩ Env.ok [], .munmap 2 0x10000]

theorem pageUsed_differ (v v' : UInt8) {c : Control} (h : c.Gone (.karena 0)) :
    DifferOnlyIn Control.next (c.OthersGone 1) Control.boot (pageUsed v) (pageUsed v') := by
  refine differOnlyIn_one (show run step (Control.boot, zeros) _ = some (_, _) from rfl)
    (Or.inr ⟨_, _, _, rfl, rfl, Or.inr ?_⟩)
  exact ⟨_, v, v', (2, .karena 0), rfl, rfl, by decide, h⟩

/-- Process 1 gets the page 5 from `vzalloc`. -/
theorem fresh_arena_reads_same_recycled :
    ∃ s t, run step (Control.boot, zeros) (pageUsed 42) = some s ∧
      run step s (.okaIoctl 1 .create ⟨0, 4096⟩ OldKarena.Env.ok [5] :: [.okaMmap 1 pageArea]) =
        some t ∧
      ∃ t', run step (Control.boot, zeros) (pageUsed 7 ++
          .okaIoctl 1 .create ⟨0, 4096⟩ OldKarena.Env.ok [5] :: [.okaMmap 1 pageArea]) = some t' ∧
        ∀ addr v, t.read 1 addr = some (.okarena 0, v) → t'.read 1 addr = some (.okarena 0, v) := by
  refine ⟨_, _, rfl, rfl, ?_⟩
  exact fresh_arena_reads_same rfl (pageUsed_differ 42 7 (List.mem_singleton_self 0)) rfl trivial rfl

/-- Process 1 gets the page 5 from `vmalloc` and reads what process 2 wrote. -/
theorem recycled_page_shows_secret :
    ∃ s t t', run step (Control.boot, zeros) (pageUsed 42) = some s ∧
      DifferOnlyIn Control.next (s.1.OthersGone 1) Control.boot (pageUsed 42) (pageUsed 7) ∧
      s.1.fresh (.kaIoctl 1 .create ⟨4096, 0⟩ Env.ok [5]) = some (1, .karena 1) ∧
      run step (Control.boot, zeros) (pageUsed 42 ++
        .kaIoctl 1 .create ⟨4096, 0⟩ Env.ok [5] :: [.kaMmap 1 pageArea]) = some t ∧
      run step (Control.boot, zeros) (pageUsed 7 ++
        .kaIoctl 1 .create ⟨4096, 0⟩ Env.ok [5] :: [.kaMmap 1 pageArea]) = some t' ∧
      t.read 1 0x10010 = some (.karena 1, 42) ∧ t'.read 1 0x10010 = some (.karena 1, 7) := by
  refine ⟨_, _, _, rfl, ?_, rfl, rfl, rfl, rfl, rfl⟩
  exact pageUsed_differ 42 7 (List.mem_singleton_self 0)

end Lmalloc.Host
