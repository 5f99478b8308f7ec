/-
  Lmalloc/Library/Nesting.lean
  ============================
  **Regions inside blocks of other regions.**

  A region is an area that gives out blocks from the bottom up.  A block may be
  made the area of a new region, and so on to any depth; the home of a region is
  the block its area is.  The invariant `Nested` is local: it speaks of one region
  and of a region and its home.

  From it follows the picture as a whole.  A block of one region and the area of
  another either have no cell in common, or one of the regions lies below the
  other.  In that case the block was given away for the area, or it is part of it.
-/
import Lmalloc.Library.Span
import Lmalloc.Library.Table

namespace Lmalloc.Library

structure Region where
  home : Option (ℕ × ℕ)    -- a region and the number of one of its blocks
  area : Span
  top : ℕ                  -- where the next block starts
  blocks : List Span
deriving DecidableEq, Repr

/-- Region `i` is at home in block `k` of region `j`. -/
def Housed (t : List Region) (j k i : ℕ) : Prop := ∃ r, t[i]? = some r ∧ r.home = some (j, k)

/-- Region `j` has `b` as block number `k`. -/
def HasBlock (t : List Region) (j k : ℕ) (b : Span) : Prop :=
  ∃ r, t[j]? = some r ∧ r.blocks[k]? = some b

/-- Block `k` of region `j` was given away for region `i`, or for a region above it. -/
inductive Gives (t : List Region) (j k : ℕ) : ℕ → Prop where
  | child {i : ℕ} : Housed t j k i → Gives t j k i
  | deeper {i i' k' : ℕ} : Gives t j k i' → Housed t i' k' i → Gives t j k i

structure Nested (t : List Region) : Prop where
  within : ∀ {i : ℕ} {r : Region} {b : Span}, t[i]? = some r → b ∈ r.blocks →
    r.area.start ≤ b.start ∧ b.stop ≤ r.top ∧ b.stop ≤ r.area.stop
  apart : ∀ {i k k' : ℕ} {b b' : Span}, HasBlock t i k b → HasBlock t i k' b' → k ≠ k' →
    Disjoint b.cells b'.cells
  housed : ∀ {i j k : ℕ} {r : Region}, t[i]? = some r → r.home = some (j, k) →
    j < i ∧ HasBlock t j k r.area
  rooted : ∀ {i : ℕ} {r : Region}, t[i]? = some r → r.home = none → i = 0
  sole : ∀ {i i' j k : ℕ}, Housed t j k i → Housed t j k i' → i = i'

section Nested

variable {t : List Region} {i j k : ℕ}

theorem HasBlock.unique {b b' : Span} (h : HasBlock t j k b) (h' : HasBlock t j k b') : b = b' := by
  obtain ⟨r, hr, hb⟩ := h
  obtain ⟨r', hr', hb'⟩ := h'
  rw [hr] at hr'
  cases hr'
  rw [hb] at hb'
  cases hb'
  rfl

theorem Nested.lt_of_housed (h : Nested t) (hi : Housed t j k i) : j < i := by
  obtain ⟨r, hr, hhome⟩ := hi
  exact (h.housed hr hhome).1

/-- The blocks of a region are cells of its area. -/
theorem Nested.block_subset (h : Nested t) {r : Region} {b : Span} (hr : t[i]? = some r)
    (hb : HasBlock t i k b) : b.cells ⊆ r.area.cells := by
  obtain ⟨r', hr', hmem⟩ := hb
  rw [hr] at hr'
  cases hr'
  obtain ⟨hlo, _, hhi⟩ := h.within hr (List.mem_of_getElem? hmem)
  rintro a ⟨ha, ha'⟩
  exact ⟨Nat.le_trans hlo ha, Nat.lt_of_lt_of_le ha' hhi⟩

/-- The area of a region is inside every block given away for it. -/
theorem Nested.area_subset (h : Nested t) (hg : Gives t j k i) {r : Region} {g : Span}
    (hr : t[i]? = some r) (hb : HasBlock t j k g) : r.area.cells ⊆ g.cells := by
  induction hg generalizing r with
  | child hi =>
    obtain ⟨r', hr', hhome⟩ := hi
    rw [hr] at hr'
    cases hr'
    rw [(h.housed hr hhome).2.unique hb]
  | deeper _ hi ih =>
    obtain ⟨r', hr', hhome⟩ := hi
    rw [hr] at hr'
    cases hr'
    obtain ⟨_, hblock⟩ := h.housed hr hhome
    obtain ⟨p, hp, _⟩ := id hblock
    exact (h.block_subset hp hblock).trans (ih hp)

/-- A region below a given-away block is the region at home there or below it. -/
theorem Nested.le_of_gives (h : Nested t) (hg : Gives t j k i) {c : ℕ} (hc : Housed t j k c) :
    c ≤ i := by
  induction hg with
  | child hi => exact Nat.le_of_eq (h.sole hc hi)
  | deeper _ hi ih => exact Nat.le_trans ih (Nat.le_of_lt (h.lt_of_housed hi))

/-- What has been given away is a block. -/
theorem Nested.gives_housed (h : Nested t) (hg : Gives t j k i) : ∃ b, HasBlock t j k b := by
  induction hg with
  | child hi =>
    obtain ⟨r, hr, hhome⟩ := hi
    exact ⟨_, (h.housed hr hhome).2⟩
  | deeper _ _ ih => exact ih

/-- Somebody lives in a block that has been given away. -/
theorem Gives.housed (hg : Gives t j k i) : ∃ c, Housed t j k c := by
  induction hg with
  | child hi => exact ⟨_, hi⟩
  | deeper _ _ ih => exact ih

/-- How block `b`, number `k` of region `j`, and the area of region `i` may lie to each
    other: the block was given away for the area, they are apart, the block is one
    of the region's own, or it is part of one of its own. -/
inductive Lie (t : List Region) (j k : ℕ) (b : Span) (i : ℕ) (area : Span) : Prop where
  | given : Gives t j k i → Lie t j k b i area
  | apart : Disjoint b.cells area.cells → Lie t j k b i area
  | own : j = i → Lie t j k b i area
  | inside {k' : ℕ} {b' : Span} : Gives t i k' j → HasBlock t i k' b' → b.cells ⊆ b'.cells →
      Lie t j k b i area

/-- **Every block and every area.**  By induction on the two regions: the younger one
    is at home in an older one. -/
theorem Nested.lie (h : Nested t) {r : Region} {b : Span} (hr : t[i]? = some r)
    (hb : HasBlock t j k b) : Lie t j k b i r.area := by
  induction hn : i + j using Nat.strong_induction_on generalizing i j k r b with
  | _ n ih =>
  rcases Nat.lt_trichotomy i j with hij | heq | hji
  · -- the region of the block is the younger one
    obtain ⟨q, hq, _⟩ := id hb
    cases hhome : q.home with
    | none => exact absurd (h.rooted hq hhome) (by omega)
    | some home =>
      obtain ⟨p, k'⟩ := home
      obtain ⟨hp, hblock⟩ := h.housed hq hhome
      have hsub := h.block_subset hq hb
      have hhoused : Housed t p k' j := ⟨q, hq, hhome⟩
      rcases ih (i + p) (by omega) hr hblock rfl with hgives | hapart | heq |
        ⟨hgives, hbig, hinside⟩
      · have hle := h.le_of_gives hgives hhoused
        omega
      · exact .apart (hapart.mono_left hsub)
      · rw [heq] at hhoused hblock
        exact .inside (.child hhoused) hblock hsub
      · exact .inside (.deeper hgives hhoused) hbig (hsub.trans hinside)
  · exact .own heq.symm
  · -- the region of the area is the younger one
    cases hhome : r.home with
    | none => exact absurd (h.rooted hr hhome) (by omega)
    | some home =>
      obtain ⟨p, k'⟩ := home
      obtain ⟨hp, hblock⟩ := h.housed hr hhome
      have hhoused : Housed t p k' i := ⟨r, hr, hhome⟩
      obtain ⟨q, hq, _⟩ := id hblock
      have hsub := h.block_subset hq hblock
      rcases ih (p + j) (by omega) hq hb rfl with hgives | hapart | heq |
        ⟨hgives, hbig, hinside⟩
      · exact .given (.deeper hgives hhoused)
      · exact .apart (hapart.mono_right hsub)
      · rw [heq] at hb ⊢
        by_cases hk : k = k'
        · rw [hk]
          exact .given (.child hhoused)
        · exact .apart (h.apart hb hblock hk)
      · rename_i k₂ b₂
        by_cases hk : k₂ = k'
        · rw [hk] at hgives
          have hle := h.le_of_gives hgives hhoused
          omega
        · exact .apart ((h.apart hbig hblock hk).mono_left hinside)

/-- A span of the area that is above all blocks of its region meets only the blocks
    given away for the region. -/
theorem Nested.free_apart (h : Nested t) {r : Region} {b z : Span} (hr : t[i]? = some r)
    (hz : z.cells ⊆ r.area.cells) (htop : r.top ≤ z.start) (hb : HasBlock t j k b) :
    Gives t j k i ∨ Disjoint b.cells z.cells := by
  have hown : ∀ {k' b'}, HasBlock t i k' b' → Disjoint b'.cells z.cells := by
    rintro k' b' ⟨r', hr', hmem⟩
    rw [hr] at hr'
    cases hr'
    exact Span.disjoint_of_stop_le
      (Nat.le_trans (h.within hr (List.mem_of_getElem? hmem)).2.1 htop)
  rcases h.lie hr hb with hgives | hapart | heq | ⟨_, hbig, hinside⟩
  · exact Or.inl hgives
  · exact Or.inr (hapart.mono_right hz)
  · rw [heq] at hb
    exact Or.inr (hown hb)
  · exact Or.inr ((hown hbig).mono_left hinside)

/-- A span that no region uses: it is outside all of them, or it is a block that was
    not given away. -/
def Kept (t : List Region) (s : Span) : Prop :=
  (∀ r ∈ t, Disjoint s.cells r.area.cells) ∨
    ∃ j k, HasBlock t j k s ∧ ∀ c, ¬ Housed t j k c

theorem Nested.kept_apart (h : Nested t) {r : Region} {s z : Span} (hs : Kept t s)
    (hr : t[i]? = some r) (hz : z.cells ⊆ r.area.cells) (htop : r.top ≤ z.start) :
    Disjoint s.cells z.cells := by
  rcases hs with houtside | ⟨j, k, hb, hfree⟩
  · exact (houtside r (List.mem_of_getElem? hr)).mono_right hz
  · rcases h.free_apart hr hz htop hb with hgives | hapart
    · obtain ⟨c, hc⟩ := hgives.housed
      exact absurd hc (hfree c)
    · exact hapart

/-- The picture as a whole. -/
structure Laid (t : List Region) : Prop where
  inside : ∀ {i : ℕ} {r : Region} {b : Span}, t[i]? = some r → b ∈ r.blocks →
    b.Within r.area.start r.area.stop
  disjoint : ∀ {i : ℕ} {r : Region}, t[i]? = some r → Span.PairwiseDisjoint r.blocks
  enclosed : ∀ {i j k k' : ℕ} {b g : Span}, Gives t j k i → HasBlock t j k g →
    HasBlock t i k' b → b.cells ⊆ g.cells
  elsewhere : ∀ {i j k k' k'' : ℕ} {b g : Span}, Gives t j k i → HasBlock t j k'' g → k'' ≠ k →
    HasBlock t i k' b → Disjoint b.cells g.cells

/-- **A nested table is laid out well.** -/
theorem Nested.laid (h : Nested t) : Laid t := by
  have henclosed : ∀ {i j k k' : ℕ} {b g : Span}, Gives t j k i → HasBlock t j k g →
      HasBlock t i k' b → b.cells ⊆ g.cells := by
    intro i j k k' b g hgives hg hb
    obtain ⟨r, hr, _⟩ := id hb
    exact (h.block_subset hr hb).trans (h.area_subset hgives hr hg)
  refine ⟨?_, ?_, henclosed, ?_⟩
  · intro i r b hr hb
    obtain ⟨hlo, _, hhi⟩ := h.within hr hb
    exact Span.within_of_bounds hlo hhi
  · intro i r hr
    refine List.pairwise_iff_getElem.mpr ?_
    intro k k' hk hk' hlt
    exact h.apart ⟨r, hr, List.getElem?_eq_getElem hk⟩ ⟨r, hr, List.getElem?_eq_getElem hk'⟩
      (Nat.ne_of_lt hlt)
  · intro i j k k' k'' b g hgives hg hne hb
    obtain ⟨c, hc⟩ := h.gives_housed hgives
    exact (h.apart hg hc hne).symm.mono_left (henclosed hgives hc hb)

/-! ### Two ways to grow -/

theorem nested_single (area : Span) (top : ℕ) : Nested [⟨none, area, top, []⟩] := by
  have hget : ∀ {i r}, [(⟨none, area, top, []⟩ : Region)][i]? = some r →
      i = 0 ∧ r = ⟨none, area, top, []⟩ := by
    intro i r hr
    rw [List.getElem?_singleton] at hr
    split at hr
    · cases hr
      exact ⟨‹_›, rfl⟩
    · cases hr
  refine ⟨?_, ?_, ?_, fun hr _ => (hget hr).1, ?_⟩
  · intro i r b hr hb
    rw [(hget hr).2] at hb
    cases hb
  · rintro i k k' b b' ⟨r, hr, hb⟩ _ _
    rw [(hget hr).2] at hb
    cases hb
  · intro i j k r hr hhome
    rw [(hget hr).2] at hhome
    cases hhome
  · rintro i i' j k ⟨r, hr, hhome⟩ _
    rw [(hget hr).2] at hhome
    cases hhome

/-- The region with one more block of `n` cells. -/
def Region.push (r : Region) (n : ℕ) : Region :=
  { r with top := r.top + n, blocks := r.blocks ++ [⟨r.top, n⟩] }

@[simp]
theorem Region.area_push (r : Region) (n : ℕ) : (r.push n).area = r.area := rfl

theorem housed_push {r : Region} {n c : ℕ} (hr : t[i]? = some r) :
    Housed (t.set i (r.push n)) j k c ↔ Housed t j k c := by
  have hlt := (List.getElem?_eq_some_iff.mp hr).1
  constructor
  · rintro ⟨q, hq, hhome⟩
    rcases getElem?_set_cases hq with ⟨rfl, rfl⟩ | ⟨_, hold⟩
    · exact ⟨r, hr, hhome⟩
    · exact ⟨q, hold, hhome⟩
  · rintro ⟨q, hq, hhome⟩
    by_cases hc : c = i
    · rw [hc, hr] at hq
      cases hq
      exact ⟨r.push n, by rw [hc, List.getElem?_set_self hlt], hhome⟩
    · exact ⟨q, by rw [List.getElem?_set_ne (Ne.symm hc), hq], hhome⟩

theorem hasBlock_push {r : Region} {n : ℕ} {b : Span} (hr : t[i]? = some r) :
    HasBlock (t.set i (r.push n)) j k b ↔
      HasBlock t j k b ∨ (j = i ∧ k = r.blocks.length ∧ b = ⟨r.top, n⟩) := by
  have hlt := (List.getElem?_eq_some_iff.mp hr).1
  constructor
  · rintro ⟨q, hq, hb⟩
    rcases getElem?_set_cases hq with ⟨hj, rfl⟩ | ⟨_, hold⟩
    · rcases getElem?_concat_cases hb with hb | ⟨hk, hb⟩
      · rw [hj]
        exact Or.inl ⟨r, hr, hb⟩
      · exact Or.inr ⟨hj, hk, hb⟩
    · exact Or.inl ⟨q, hold, hb⟩
  · rintro (⟨q, hq, hb⟩ | ⟨rfl, rfl, rfl⟩)
    · by_cases hj : j = i
      · rw [hj, hr] at hq
        cases hq
        exact ⟨r.push n, by rw [hj, List.getElem?_set_self hlt], getElem?_concat_of_some hb⟩
      · exact ⟨q, by rw [List.getElem?_set_ne (Ne.symm hj), hq], hb⟩
    · refine ⟨r.push n, List.getElem?_set_self hlt, ?_⟩
      simp [Region.push]

/-- **A region gives out the next block of its area.** -/
theorem Nested.push (h : Nested t) {r : Region} {n : ℕ} (hr : t[i]? = some r)
    (hlo : r.area.start ≤ r.top) (hfit : r.top + n ≤ r.area.stop) :
    Nested (t.set i (r.push n)) := by
  have hnew : ∀ {k b}, HasBlock t i k b → Disjoint b.cells (⟨r.top, n⟩ : Span).cells := by
    rintro k b ⟨q, hq, hb⟩
    rw [hr] at hq
    cases hq
    exact Span.disjoint_of_stop_le (h.within hr (List.mem_of_getElem? hb)).2.1
  refine ⟨?_, ?_, ?_, ?_, ?_⟩
  · intro c q b hq hb
    rcases getElem?_set_cases hq with ⟨_, rfl⟩ | ⟨_, hold⟩
    · rcases List.mem_append.mp hb with hb | hb
      · obtain ⟨hbLo, hbTop, hbHi⟩ := h.within hr hb
        exact ⟨hbLo, Nat.le_trans hbTop (Nat.le_add_right _ _), hbHi⟩
      · rw [List.mem_singleton.mp hb]
        exact ⟨hlo, Nat.le_refl _, hfit⟩
    · exact h.within hold hb
  · intro c k k' b b' hb hb' hne
    rcases (hasBlock_push hr).mp hb with hbOld | ⟨rfl, rfl, rfl⟩
    · rcases (hasBlock_push hr).mp hb' with hbOld' | ⟨rfl, rfl, rfl⟩
      · exact h.apart hbOld hbOld' hne
      · exact hnew hbOld
    · rcases (hasBlock_push hr).mp hb' with hbOld' | ⟨_, rfl, _⟩
      · exact (hnew hbOld').symm
      · exact absurd rfl hne
  · intro c j k q hq hhome
    rcases getElem?_set_cases hq with ⟨rfl, rfl⟩ | ⟨_, hold⟩
    · obtain ⟨hlt, hblock⟩ := h.housed hr hhome
      exact ⟨hlt, (hasBlock_push hr).mpr (Or.inl hblock)⟩
    · obtain ⟨hlt, hblock⟩ := h.housed hold hhome
      exact ⟨hlt, (hasBlock_push hr).mpr (Or.inl hblock)⟩
  · intro c q hq hhome
    rcases getElem?_set_cases hq with ⟨rfl, rfl⟩ | ⟨_, hold⟩
    · exact h.rooted hr hhome
    · exact h.rooted hold hhome
  · intro c c' j k hc hc'
    exact h.sole ((housed_push hr).mp hc) ((housed_push hr).mp hc')

theorem Kept.push {r : Region} {s : Span} {n : ℕ} (hs : Kept t s) (hr : t[i]? = some r) :
    Kept (t.set i (r.push n)) s := by
  rcases hs with houtside | ⟨j, k, hb, hfree⟩
  · refine Or.inl ?_
    intro q hq
    obtain ⟨c, hc⟩ := List.mem_iff_getElem?.mp hq
    rcases getElem?_set_cases hc with ⟨_, rfl⟩ | ⟨_, hold⟩
    · exact houtside r (List.mem_of_getElem? hr)
    · exact houtside q (List.mem_of_getElem? hold)
  · refine Or.inr ⟨j, k, (hasBlock_push hr).mpr (Or.inl hb), ?_⟩
    exact fun c hc => hfree c ((housed_push hr).mp hc)

/-- A block is kept until it is given away. -/
theorem Nested.kept_new (h : Nested t) {r : Region} {n : ℕ} (hr : t[i]? = some r) :
    Kept (t.set i (r.push n)) ⟨r.top, n⟩ := by
  refine Or.inr ⟨i, r.blocks.length, (hasBlock_push hr).mpr (Or.inr ⟨rfl, rfl, rfl⟩), ?_⟩
  intro c hc
  obtain ⟨q, hq, hhome⟩ := (housed_push hr).mp hc
  obtain ⟨_, p, hp, hblock⟩ := h.housed hq hhome
  rw [hr] at hp
  cases hp
  exact absurd (List.getElem?_eq_some_iff.mp hblock).1 (Nat.lt_irrefl _)

section Adopt

variable {g : Span} {r : Region}

theorem housed_append {j' k' c : ℕ} :
    Housed (t ++ [r]) j' k' c ↔
      Housed t j' k' c ∨ (c = t.length ∧ r.home = some (j', k')) := by
  constructor
  · rintro ⟨q, hq, hhome⟩
    rcases getElem?_concat_cases hq with hold | ⟨hc, rfl⟩
    · exact Or.inl ⟨q, hold, hhome⟩
    · exact Or.inr ⟨hc, hhome⟩
  · rintro (⟨q, hq, hhome⟩ | ⟨rfl, hhome⟩)
    · exact ⟨q, getElem?_concat_of_some hq, hhome⟩
    · exact ⟨r, List.getElem?_concat_length, hhome⟩

theorem hasBlock_append {j' k' : ℕ} {b : Span} (hr : r.blocks = []) :
    HasBlock (t ++ [r]) j' k' b ↔ HasBlock t j' k' b := by
  constructor
  · rintro ⟨q, hq, hb⟩
    rcases getElem?_concat_cases hq with hold | ⟨_, rfl⟩
    · exact ⟨q, hold, hb⟩
    · rw [hr] at hb
      cases hb
  · rintro ⟨q, hq, hb⟩
    exact ⟨q, getElem?_concat_of_some hq, hb⟩

/-- **A block becomes the area of a new region.** -/
theorem Nested.adopt (h : Nested t) (hb : HasBlock t j k g) (hfree : ∀ c, ¬ Housed t j k c)
    (hhome : r.home = some (j, k)) (harea : r.area = g) (hnone : r.blocks = []) :
    Nested (t ++ [r]) := by
  refine ⟨?_, ?_, ?_, ?_, ?_⟩
  · intro c q b hq hb
    rcases getElem?_concat_cases hq with hold | ⟨_, rfl⟩
    · exact h.within hold hb
    · rw [hnone] at hb
      cases hb
  · intro c k' k'' b b' hb' hb'' hne
    exact h.apart ((hasBlock_append hnone).mp hb') ((hasBlock_append hnone).mp hb'') hne
  · intro c j' k' q hq hq'
    rcases getElem?_concat_cases hq with hold | ⟨hc, rfl⟩
    · obtain ⟨hlt, hblock⟩ := h.housed hold hq'
      exact ⟨hlt, (hasBlock_append hnone).mpr hblock⟩
    · rw [hhome] at hq'
      cases hq'
      obtain ⟨p, hp, _⟩ := id hb
      rw [hc, harea]
      exact ⟨(List.getElem?_eq_some_iff.mp hp).1, (hasBlock_append hnone).mpr hb⟩
  · intro c q hq hq'
    rcases getElem?_concat_cases hq with hold | ⟨_, rfl⟩
    · exact h.rooted hold hq'
    · rw [hhome] at hq'
      cases hq'
  · intro c c' j' k' hc hc'
    rcases housed_append.mp hc with hc | ⟨hc, hc₂⟩
    · rcases housed_append.mp hc' with hc' | ⟨_, hc₂⟩
      · exact h.sole hc hc'
      · rw [hhome] at hc₂
        cases hc₂
        exact absurd hc (hfree c)
    · rcases housed_append.mp hc' with hc' | ⟨hc', _⟩
      · rw [hhome] at hc₂
        cases hc₂
        exact absurd hc' (hfree c')
      · rw [hc, hc']

/-- What is kept stays so when another block is given away. -/
theorem Nested.kept_adopt (h : Nested t) {s : Span} (hs : Kept t s) (hb : HasBlock t j k g)
    (hne : s ≠ g) (hhome : r.home = some (j, k)) (harea : r.area = g) (hnone : r.blocks = []) :
    Kept (t ++ [r]) s := by
  rcases hs with houtside | ⟨j', k', hb', hfree⟩
  · refine Or.inl ?_
    intro q hq
    rcases List.mem_append.mp hq with hold | hnew
    · exact houtside q hold
    · rw [List.mem_singleton.mp hnew, harea]
      obtain ⟨p, hp, _⟩ := id hb
      exact (houtside p (List.mem_of_getElem? hp)).mono_right (h.block_subset hp hb)
  · refine Or.inr ⟨j', k', (hasBlock_append hnone).mpr hb', ?_⟩
    intro c hc
    rcases housed_append.mp hc with hc | ⟨_, hc⟩
    · exact hfree c hc
    · rw [hhome] at hc
      cases hc
      exact hne (hb'.unique hb)

end Adopt

end Nested

end Lmalloc.Library
