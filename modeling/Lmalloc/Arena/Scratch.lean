/-
  Lmalloc/Arena/Scratch.lean
  ==========================
  **Which arena a scratch is taken from.**

  A thread registers its arenas in a table.  `ua__scratch_get__` and its copies for
  karena and Sdb are to return a scratch on a registered arena that conflicts with
  none of the arenas the caller names.  All three leave their two loops at the
  first registered arena that differs from *some* conflict.  That is the right
  arena when the conflicts are all the same one, or when the first registered arena
  is no conflict; otherwise it is the first registered arena, which is a conflict.
-/
import Lmalloc.Arena.SdbArena
import Lmalloc.Arena.UArenaBlocks
import Lmalloc.Karena.UserApi

namespace Lmalloc.Arena

open Lmalloc.Library

/-! ### The table and the search -/

/-- A table of pointers to arenas; `NULL` is `none`. -/
structure ThreadArenas (π : Type*) where
  arenas : List (Option π)     -- the buffer, `maxCount` pointers
  count : ℕ
  maxCount : ℕ

section Table

variable {π : Type*}

/-- The table as it is registered: a zeroed buffer. -/
def ThreadArenas.register (maxCount : ℕ) : ThreadArenas π :=
  { arenas := List.replicate maxCount none, count := 0, maxCount := maxCount }

/-- `failed` is what the function returns when the table is full. -/
def threadArenasAdd (failed : ℤ) (a : Option π) (tas : ThreadArenas π) : ℤ × ThreadArenas π :=
  if tas.count + 1 ≤ tas.maxCount then
    (0, { tas with arenas := tas.arenas.set tas.count a, count := tas.count + 1 })
  else (failed, tas)

def uaThreadArenasAdd : Option π → ThreadArenas π → ℤ × ThreadArenas π := threadArenasAdd 1
def kaThreadArenasAdd : Option π → ThreadArenas π → ℤ × ThreadArenas π := threadArenasAdd 1
def sdbThreadArenasAdd : Option π → ThreadArenas π → ℤ × ThreadArenas π := threadArenasAdd (-1)

/-- A table built by adding arenas one after the other. -/
def ThreadArenas.addAll (add : Option π → ThreadArenas π → ℤ × ThreadArenas π)
    (tas : ThreadArenas π) : List π → ThreadArenas π
  | [] => tas
  | a :: as => ThreadArenas.addAll add (add (some a) tas).2 as

def ThreadArenas.registered (tas : ThreadArenas π) : List (Option π) :=
  tas.arenas.take tas.count

variable [DecidableEq π]

/-- The inner loop: `true` is the `goto exit`. -/
def conflictLoop (a : Option π) : List (Option π) → Bool
  | [] => false
  | c :: cs => if a ≠ c then true else conflictLoop a cs

/-- The outer loop; the pointer is still `NULL` when it ends. -/
def arenaLoop (conflicts : List (Option π)) : List (Option π) → Option π
  | [] => none
  | a :: as => if conflictLoop a conflicts then a else arenaLoop conflicts as

/-- The pointer at the label `exit`. -/
def scratchArena (conflicts : List (Option π)) (tas : ThreadArenas π) : Option π :=
  if conflicts.length > 0 then arenaLoop conflicts tas.registered
  else tas.arenas.head?.join

end Table

/-! ### The three copies -/

def uaScratchGet (arenas : Addr → UArena) (conflicts : List (Option Addr))
    (tas : ThreadArenas Addr) : UAScratch :=
  match scratchArena conflicts tas with
  | none => { ua := none, f5 := 0 }
  | some ua => uaScratchBegin (some (ua, arenas ua))

structure KAScratch where
  ua : Option UInt64
  f5 : UInt64
deriving DecidableEq, Repr

/-- The position comes from an ioctl. -/
def kaScratchBegin (c : Karena.Client) (env : Karena.Env) :
    Option UInt64 → Option (KAScratch × Karena.Client)
  | some ka => (Karena.kaPos c ka env).map fun r => ({ ua := some ka, f5 := r.1 }, r.2)
  | none => some ({ ua := none, f5 := 0 }, c)

def kaScratchGet (c : Karena.Client) (env : Karena.Env) (conflicts : List (Option UInt64))
    (tas : ThreadArenas UInt64) : Option (KAScratch × Karena.Client) :=
  match scratchArena conflicts tas with
  | none => some ({ ua := none, f5 := 0 }, c)
  | some ka => kaScratchBegin c env (some ka)

structure SdbScratchArena where
  arena : Option Addr
  f5 : UInt64
deriving DecidableEq, Repr

def sdbScratchBegin (p : Addr) (arena : SdbArena) : SdbScratchArena :=
  { arena := some p, f5 := sdbArenaGetPos arena }

def sdbScratchGet (arenas : Addr → SdbArena) (conflicts : List (Option Addr))
    (tas : ThreadArenas Addr) : SdbScratchArena :=
  match scratchArena conflicts tas with
  | none => { arena := none, f5 := 0 }
  | some arena => sdbScratchBegin arena (arenas arena)

/-! ### What is asked of the search, and when it is met -/

section Search

variable {π : Type*}

/-- The result is registered and no conflict; there is none only if every
    registered arena is a conflict. -/
def Avoids (registered conflicts : List (Option π)) (result : Option π) : Prop :=
  match result with
  | some a => some a ∈ registered ∧ some a ∉ conflicts
  | none => ∀ a ∈ registered, a ∈ conflicts

/-- Nothing is registered, or all conflicts are one, or the first arena is none. -/
def FirstIsFree (registered conflicts : List (Option π)) : Prop :=
  registered = [] ∨ (∀ c ∈ conflicts, ∀ c' ∈ conflicts, c = c') ∨
    ∀ a, registered.head? = some a → a ∉ conflicts

variable [DecidableEq π]

theorem conflictLoop_iff (a : Option π) (conflicts : List (Option π)) :
    conflictLoop a conflicts = true ↔ ∃ c ∈ conflicts, a ≠ c := by
  induction conflicts with
  | nil => simp [conflictLoop]
  | cons c cs ih =>
    simp only [conflictLoop, List.mem_cons]
    by_cases h : a = c
    · subst h
      simp [ih]
    · simp [h]

/-- With all conflicts equal to `c`, the loop looks for the first arena that is
    not `c`. -/
theorem avoids_of_single {registered conflicts : List (Option π)} {c : Option π}
    (hne : conflicts ≠ []) (hall : ∀ c' ∈ conflicts, c' = c)
    (hreg : ∀ a ∈ registered, a ≠ none) :
    Avoids registered conflicts (arenaLoop conflicts registered) := by
  have hmem : ∀ a, a ∈ conflicts ↔ a = c := by
    intro a
    constructor
    · exact hall a
    · rintro rfl
      obtain ⟨c', hc'⟩ := List.exists_mem_of_ne_nil conflicts hne
      rw [← hall c' hc']
      exact hc'
  induction registered with
  | nil =>
    intro a ha
    cases ha
  | cons a as ih =>
    simp only [arenaLoop]
    by_cases hloop : conflictLoop a conflicts = true
    · rw [if_pos hloop]
      obtain ⟨c', hc', hac⟩ := (conflictLoop_iff a conflicts).mp hloop
      obtain ⟨p, rfl⟩ := Option.ne_none_iff_exists'.mp (hreg a List.mem_cons_self)
      refine ⟨List.mem_cons_self, ?_⟩
      rw [hmem, ← hall c' hc']
      exact hac
    · rw [if_neg hloop]
      have ha : a ∈ conflicts := by
        rw [hmem]
        by_contra hac
        exact hloop ((conflictLoop_iff a conflicts).mpr ⟨c, (hmem c).mpr rfl, hac⟩)
      have hrest := ih (fun b hb => hreg b (List.mem_cons_of_mem a hb))
      cases hres : arenaLoop conflicts as with
      | none =>
        rw [hres] at hrest
        intro b hb
        rcases List.mem_cons.mp hb with rfl | hb
        · exact ha
        · exact hrest b hb
      | some p =>
        rw [hres] at hrest
        exact ⟨List.mem_cons_of_mem a hrest.1, hrest.2⟩

/-- When some conflict differs from the first arena, the loop ends there. -/
theorem arenaLoop_cons_of_differs {a : Option π} {as conflicts : List (Option π)}
    (h : ∃ c ∈ conflicts, a ≠ c) : arenaLoop conflicts (a :: as) = a := by
  simp only [arenaLoop, if_pos ((conflictLoop_iff a conflicts).mpr h)]

/-- **The search meets what is asked of it exactly when the first arena is free of
    conflicts or the conflicts are all one.** -/
theorem avoids_arenaLoop_iff {registered conflicts : List (Option π)} (hne : conflicts ≠ [])
    (hreg : ∀ a ∈ registered, a ≠ none) :
    Avoids registered conflicts (arenaLoop conflicts registered) ↔
      FirstIsFree registered conflicts := by
  obtain ⟨c, hc⟩ := List.exists_mem_of_ne_nil conflicts hne
  by_cases hone : ∀ c' ∈ conflicts, c' = c
  · refine iff_of_true (avoids_of_single hne hone hreg) (Or.inr (Or.inl ?_))
    intro c₁ h₁ c₂ h₂
    rw [hone c₁ h₁, hone c₂ h₂]
  · cases registered with
    | nil =>
      refine iff_of_true ?_ (Or.inl rfl)
      intro a ha
      cases ha
    | cons a as =>
      simp only [not_forall] at hone
      obtain ⟨c', hc', hdiff⟩ := hone
      -- two different conflicts: the first arena differs from one of them
      have hfirst : ∃ c ∈ conflicts, a ≠ c := by
        by_cases hac : a = c
        · exact ⟨c', hc', fun hac' => hdiff (by rw [← hac', hac])⟩
        · exact ⟨c, hc, hac⟩
      obtain ⟨p, rfl⟩ := Option.ne_none_iff_exists'.mp (hreg a List.mem_cons_self)
      rw [arenaLoop_cons_of_differs hfirst]
      constructor
      · rintro ⟨_, hnot⟩
        refine Or.inr (Or.inr ?_)
        rintro a ⟨⟩
        exact hnot
      · rintro (hnil | hsame | hfree)
        · cases hnil
        · exact absurd (hsame c' hc' c hc) hdiff
        · exact ⟨List.mem_cons_self, hfree _ rfl⟩

end Search

/-! ### Tables built by adding arenas -/

section Built

variable {π : Type*}

/-- The table has been registered and filled by calls of `add` on arenas. -/
def Built (add : Option π → ThreadArenas π → ℤ × ThreadArenas π) (tas : ThreadArenas π) : Prop :=
  ∃ maxCount as, tas = (ThreadArenas.register maxCount).addAll add as

theorem registered_add {failed : ℤ} {a : Option π} {tas : ThreadArenas π}
    (hlen : tas.arenas.length = tas.maxCount) (hroom : tas.count + 1 ≤ tas.maxCount) :
    (threadArenasAdd failed a tas).2.registered = tas.registered ++ [a] := by
  have hlt : tas.count < tas.arenas.length := by
    rw [hlen]
    exact hroom
  simp [threadArenasAdd, hroom, ThreadArenas.registered, List.take_add_one, List.take_set_of_le,
    hlt]

/-- Only arenas get into the table. -/
theorem registered_addAll {failed : ℤ} {as : List π} {tas : ThreadArenas π}
    (hlen : tas.arenas.length = tas.maxCount) (hreg : ∀ a ∈ tas.registered, a ≠ none) :
    ∀ a ∈ (tas.addAll (threadArenasAdd failed) as).registered, a ≠ none := by
  induction as generalizing tas with
  | nil => exact hreg
  | cons b as ih =>
    simp only [ThreadArenas.addAll]
    by_cases hroom : tas.count + 1 ≤ tas.maxCount
    · apply ih
      · simpa [threadArenasAdd, hroom] using hlen
      · rw [registered_add hlen hroom]
        intro a ha
        rcases List.mem_append.mp ha with hold | hnew
        · exact hreg a hold
        · rw [List.mem_singleton.mp hnew]
          exact Option.some_ne_none b
    · have hfull : (threadArenasAdd failed (some b) tas).2 = tas := by
        simp only [threadArenasAdd, if_neg hroom]
      rw [hfull]
      exact ih hlen hreg

theorem Built.registered_ne_none {failed : ℤ} {tas : ThreadArenas π}
    (h : Built (threadArenasAdd failed) tas) : ∀ a ∈ tas.registered, a ≠ none := by
  obtain ⟨maxCount, as, rfl⟩ := h
  apply registered_addAll
  · simp [ThreadArenas.register]
  · intro a ha
    simp [ThreadArenas.register, ThreadArenas.registered] at ha

/-- The pointer the search ends with, for a table of arenas and some conflict. -/
theorem avoids_scratchArena_iff [DecidableEq π] {failed : ℤ} {conflicts : List (Option π)}
    {tas : ThreadArenas π} (h : Built (threadArenasAdd failed) tas) (hne : conflicts ≠ []) :
    Avoids tas.registered conflicts (scratchArena conflicts tas) ↔
      FirstIsFree tas.registered conflicts := by
  have hlen : conflicts.length > 0 := List.length_pos_of_ne_nil hne
  rw [scratchArena, if_pos hlen]
  exact avoids_arenaLoop_iff hne h.registered_ne_none

end Built

/-! ### The scratch that is returned -/

theorem ua_uaScratchGet (arenas : Addr → UArena) (conflicts : List (Option Addr))
    (tas : ThreadArenas Addr) :
    (uaScratchGet arenas conflicts tas).ua = scratchArena conflicts tas := by
  simp only [uaScratchGet]
  split
  · rename_i hnull
    exact hnull.symm
  · rename_i hfound
    exact hfound.symm

theorem ua_kaScratchGet {c : Karena.Client} {env : Karena.Env}
    {conflicts : List (Option UInt64)} {tas : ThreadArenas UInt64}
    {r : KAScratch × Karena.Client} (h : kaScratchGet c env conflicts tas = some r) :
    r.1.ua = scratchArena conflicts tas := by
  simp only [kaScratchGet] at h
  split at h
  · rename_i hnull
    cases h
    exact hnull.symm
  · rename_i hfound
    obtain ⟨pos, _, rfl⟩ := Option.map_eq_some_iff.mp h
    exact hfound.symm

theorem arena_sdbScratchGet (arenas : Addr → SdbArena) (conflicts : List (Option Addr))
    (tas : ThreadArenas Addr) :
    (sdbScratchGet arenas conflicts tas).arena = scratchArena conflicts tas := by
  simp only [sdbScratchGet]
  split
  · rename_i hnull
    exact hnull.symm
  · rename_i hfound
    exact hfound.symm

/-- **Each of the three copies returns a scratch on a registered arena that is no
    conflict, or the null scratch if there is none, exactly when the first
    registered arena is free of conflicts or the conflicts are all one.** -/
theorem scratchGet_avoids_iff {conflicts : List (Option Addr)} {kaConflicts : List (Option UInt64)}
    (hne : conflicts ≠ []) (hneKa : kaConflicts ≠ []) :
    (∀ arenas tas, Built uaThreadArenasAdd tas →
      (Avoids tas.registered conflicts (uaScratchGet arenas conflicts tas).ua ↔
        FirstIsFree tas.registered conflicts)) ∧
    (∀ c env tas r, Built kaThreadArenasAdd tas → kaScratchGet c env kaConflicts tas = some r →
      (Avoids tas.registered kaConflicts r.1.ua ↔ FirstIsFree tas.registered kaConflicts)) ∧
    ∀ arenas tas, Built sdbThreadArenasAdd tas →
      (Avoids tas.registered conflicts (sdbScratchGet arenas conflicts tas).arena ↔
        FirstIsFree tas.registered conflicts) := by
  refine ⟨?_, ?_, ?_⟩
  · intro arenas tas hbuilt
    rw [ua_uaScratchGet]
    exact avoids_scratchArena_iff hbuilt hne
  · intro c env tas r hbuilt hget
    rw [ua_kaScratchGet hget]
    exact avoids_scratchArena_iff hbuilt hneKa
  · intro arenas tas hbuilt
    rw [arena_sdbScratchGet]
    exact avoids_scratchArena_iff hbuilt hne

/-- Arenas at 64 and 128 in a table for four. -/
def twoArenas : ThreadArenas Addr := (ThreadArenas.register 4).addAll uaThreadArenasAdd [64, 128]

theorem scratchGet_avoids_iff_twoArenas :
    Avoids twoArenas.registered [some 64] (uaScratchGet (fun _ => hundred.ua) [some 64] twoArenas).ua ↔
      FirstIsFree twoArenas.registered [some 64] :=
  (@scratchGet_avoids_iff [some 64] [some 1] (by decide) (by decide)).1 _ _ ⟨4, [64, 128], rfl⟩

/-- Asked to avoid the arenas at 64 and 192, the search returns the one at 64,
    although the one at 128 is free. -/
theorem scratchGet_returns_conflict :
    (uaScratchGet (fun _ => hundred.ua) [some 64, some 192] twoArenas).ua = some 64 ∧
      some 128 ∈ twoArenas.registered ∧
      ¬ Avoids twoArenas.registered [some 64, some 192]
        (uaScratchGet (fun _ => hundred.ua) [some 64, some 192] twoArenas).ua := by
  refine ⟨by decide, by decide, ?_⟩
  rintro ⟨_, hnot⟩
  exact hnot List.mem_cons_self

end Lmalloc.Arena
