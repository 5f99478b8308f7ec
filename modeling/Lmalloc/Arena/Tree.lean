/-
  Lmalloc/Arena/Tree.lean
  =======================
  **Trees of bootstrapped arenas.**

  `ua_bootstrap` takes a block from one arena and makes it the memory of another,
  whose header is a second block of the parent or a place that the caller has.
  `Tree` keeps one memory with all of this in it, and for each arena where its
  header is, which block its memory was, and the blocks it has handed out.  Where
  an arena's memory is and how far it is used is read from its header, so nothing
  is assumed about headers staying intact: that they do is part of the invariant.
-/
import Lmalloc.Arena.InMemory
import Lmalloc.Library.Nesting
import Lmalloc.Library.Run

namespace Lmalloc.Arena

open Lmalloc.Library Lmalloc.Library.Word

structure Node where
  header : ℕ
  home : Option (ℕ × ℕ)    -- the parent and the number of its block
  blocks : List Span
deriving DecidableEq, Repr

structure Tree where
  memory : Memory
  nodes : List Node

inductive TreeOp where
  | call (i : ℕ) (c : Call)
  | bootstrap (i : ℕ) (newExisting : Option ℕ) (cap : UInt64)
deriving DecidableEq, Repr

/-- The arena that the operation works on. -/
def TreeOp.node : TreeOp → ℕ
  | .call i _ => i
  | .bootstrap i _ _ => i

/-- The arena as a region: its header says where it is and how far it is used. -/
def Node.region (m : Memory) (n : Node) : Region :=
  { home := n.home
    area := (loadArena m n.header).area
    top := (loadArena m n.header).top
    blocks := n.blocks }

/-- Where the header is. -/
def Node.span (n : Node) : Span := ⟨n.header, arenaSize⟩

theorem Node.size_span_pos (n : Node) : 0 < n.span.size := Nat.succ_pos 31

namespace Tree

def regions (t : Tree) : List Region := t.nodes.map (Node.region t.memory)

/-! ### Steps -/

/-- An allocating call on arena `i`; what it hands out is recorded. -/
def call (t : Tree) (i : ℕ) (c : Call) : Option (Option Span × Tree) :=
  (t.nodes[i]?).map fun n =>
    let r := callAt t.memory n.header c
    (r.1, { memory := r.2, nodes := t.nodes.set i { n with blocks := n.blocks ++ r.1.toList } })

/-- `ua_init` of a new arena at `new` in the block `mem`, the last one of arena `i`. -/
def adopt (t : Tree) (i new : ℕ) (cap : UInt64) (mem : Span) : Tree :=
  let k := ((t.nodes[i]?).map fun n => n.blocks.length - 1).getD 0
  { memory := uaInitAt t.memory new false false true cap mem.start
    nodes := t.nodes ++ [⟨new, some (i, k), []⟩] }

/-- Where the header of the new arena goes: to the caller's place, or into a block. -/
def headerFor (t : Tree) (i : ℕ) : Option ℕ → Option (Option ℕ × Tree)
  | some p => some (some p, t)
  | none => (t.call i (.alloc (UInt64.ofNat arenaSize))).map fun r => (r.1.map Span.start, r.2)

def bootstrap (t : Tree) (i : ℕ) (newExisting : Option ℕ) (cap : UInt64) :
    Option (Option ℕ × Tree) :=
  (t.headerFor i newExisting).bind fun h =>
    (h.2.call i (.zalloc cap)).map fun r =>
      match h.1, r.1 with
      | some new, some mem => (some new, r.2.adopt i new cap mem)
      | _, _ => (none, r.2)

def step (t : Tree) : TreeOp → Option Tree
  | .call i c => (t.call i c).map Prod.snd
  | .bootstrap i newExisting cap => (t.bootstrap i newExisting cap).map Prod.snd

/-! ### What is promised -/

/-- A header that the caller supplies is outside all memory of the tree and not in
    use. -/
def Legal (t : Tree) : TreeOp → Prop
  | .bootstrap _ (some p) _ =>
      (∀ r ∈ t.regions, Disjoint (Span.cells ⟨p, arenaSize⟩) r.area.cells) ∧
        ∀ n ∈ t.nodes, Disjoint (Span.cells ⟨p, arenaSize⟩) n.span.cells
  | .bootstrap _ none _ | .call _ _ => True

/-- No capacity test of the operation wraps. -/
def NoWrap (t : Tree) : TreeOp → Prop
  | .call i c => ∀ n, t.nodes[i]? = some n →
      (loadArena t.memory n.header).cur.toNat + c.size.toNat < 2 ^ 64
  | .bootstrap i (some _) cap => ∀ n, t.nodes[i]? = some n →
      (loadArena t.memory n.header).cur.toNat + cap.toNat < 2 ^ 64
  | .bootstrap i none cap => ∀ n, t.nodes[i]? = some n →
      (loadArena t.memory n.header).cur.toNat + arenaSize < 2 ^ 64 ∧
        (loadArena (uaAllocAt t.memory n.header (UInt64.ofNat arenaSize)).2 n.header).cur.toNat +
          cap.toNat < 2 ^ 64

instance : DecidableRel Legal
  | t, .bootstrap _ (some p) _ =>
      inferInstanceAs (Decidable ((∀ r ∈ t.regions,
        Disjoint (Span.cells ⟨p, arenaSize⟩) r.area.cells) ∧
          ∀ n ∈ t.nodes, Disjoint (Span.cells ⟨p, arenaSize⟩) n.span.cells))
  | _, .bootstrap _ none _ => isTrue trivial
  | _, .call _ _ => isTrue trivial

/-- A statement about the node at an index can be decided. -/
instance decidableAt {o : Option Node} {P : Node → Prop} [hP : DecidablePred P] :
    Decidable (∀ n, o = some n → P n) :=
  match o with
  | none => isTrue fun _ h => nomatch h
  | some n => decidable_of_iff (P n) (by simp)

instance : DecidableRel NoWrap
  | t, .call i c => inferInstanceAs (Decidable (∀ n, t.nodes[i]? = some n →
      (loadArena t.memory n.header).cur.toNat + c.size.toNat < 2 ^ 64))
  | t, .bootstrap i (some _) cap => inferInstanceAs (Decidable (∀ n, t.nodes[i]? = some n →
      (loadArena t.memory n.header).cur.toNat + cap.toNat < 2 ^ 64))
  | t, .bootstrap i none cap => inferInstanceAs (Decidable (∀ n, t.nodes[i]? = some n →
      (loadArena t.memory n.header).cur.toNat + arenaSize < 2 ^ 64 ∧
        (loadArena (uaAllocAt t.memory n.header (UInt64.ofNat arenaSize)).2 n.header).cur.toNat +
          cap.toNat < 2 ^ 64))

/-- From `t` to `t'`, arena `i` with its record `n` works: for a block that was handed out
    before, either it was given away for the arena, or the new blocks are apart from it
    and its bytes are what they were, but for those of the arena's cursor. -/
def Spares (t : Tree) (i : ℕ) (n : Node) (t' : Tree) : Prop :=
  ∀ {j k : ℕ} {b : Span}, HasBlock t.regions j k b → Gives t.regions j k i ∨
    (∀ {k' : ℕ} {z : Span}, HasBlock t'.regions i k' z →
      HasBlock t.regions i k' z ∨ Disjoint b.cells z.cells) ∧
    ∀ a ∈ b.cells, a < n.header + 16 ∨ n.header + 24 ≤ a → t'.memory a = t.memory a

def PreservesBlocks (t : Tree) (op : TreeOp) : Prop :=
  ∀ t', t.step op = some t' → ∀ n, t.nodes[op.node]? = some n → t.Spares op.node n t'

/-! ### The steps are the functions -/

section Steps

variable {t : Tree} {i : ℕ} {n : Node}

theorem call_eq (hn : t.nodes[i]? = some n) (c : Call) :
    t.call i c = some ((callAt t.memory n.header c).1,
      { memory := (callAt t.memory n.header c).2
        nodes := t.nodes.set i
          { n with blocks := n.blocks ++ (callAt t.memory n.header c).1.toList } }) := by
  rw [call, hn]
  rfl

theorem bootstrap_of_headerFor {newExisting new : Option ℕ} {t₁ : Tree} {n₁ : Node} {cap : UInt64}
    (hfor : t.headerFor i newExisting = some (new, t₁)) (hn : t₁.nodes[i]? = some n₁) :
    ∃ t', t.bootstrap i newExisting cap =
        some ((uaBootstrapMem t₁.memory n₁.header new cap).1, t') ∧
      t'.memory = (uaBootstrapMem t₁.memory n₁.header new cap).2 := by
  rw [bootstrap, hfor, Option.bind_some, call_eq hn, callAt_zalloc, Option.map_some,
    uaBootstrapMem.eq_def]
  generalize uaZallocAt t₁.memory n₁.header cap = r
  obtain ⟨_ | mem, m⟩ := r
  · cases new with
    | none => exact ⟨_, rfl, rfl⟩
    | some p => exact ⟨_, rfl, rfl⟩
  · cases new with
    | none => exact ⟨_, rfl, rfl⟩
    | some p => exact ⟨_, rfl, rfl⟩

/-- **The bootstrap of a tree is `ua_bootstrap`.** -/
theorem bootstrap_eq (hn : t.nodes[i]? = some n) (newExisting : Option ℕ) (cap : UInt64) :
    ∃ t', t.bootstrap i newExisting cap =
        some ((uaBootstrapAt t.memory n.header newExisting cap).1, t') ∧
      t'.memory = (uaBootstrapAt t.memory n.header newExisting cap).2 := by
  cases newExisting with
  | some p => exact bootstrap_of_headerFor rfl hn
  | none =>
    have hlt := (List.getElem?_eq_some_iff.mp hn).1
    have hcall := call_eq hn (.alloc (UInt64.ofNat arenaSize))
    rw [callAt_alloc] at hcall
    simp only [uaBootstrapAt]
    generalize uaAllocAt t.memory n.header (UInt64.ofNat arenaSize) = r at hcall ⊢
    obtain ⟨new, m⟩ := r
    have hfor : ∃ t₁, t.headerFor i none = some (new, t₁) ∧ t₁.memory = m ∧
        ∃ bs, t₁.nodes[i]? = some { n with blocks := bs } := by
      rw [headerFor, hcall, Option.map_some]
      cases new with
      | none => exact ⟨_, rfl, rfl, _, List.getElem?_set_self hlt⟩
      | some p => exact ⟨_, rfl, rfl, _, List.getElem?_set_self hlt⟩
    obtain ⟨t₁, hfor, hmemory, bs, hn₁⟩ := hfor
    rw [← hmemory]
    exact @bootstrap_of_headerFor t i none new t₁ { n with blocks := bs } cap hfor hn₁

end Steps

/-! ### The invariant -/

structure Sound (t : Tree) : Prop where
  nested : Nested t.regions
  kept : ∀ n ∈ t.nodes, Kept t.regions n.span
  apart : ∀ {i j : ℕ} {n n' : Node}, i ≠ j → t.nodes[i]? = some n → t.nodes[j]? = some n' →
    Disjoint n.span.cells n'.span.cells
  small : ∀ r ∈ t.regions, r.area.stop < 2 ^ 64

theorem regions_getElem? (t : Tree) (i : ℕ) :
    t.regions[i]? = (t.nodes[i]?).map (Node.region t.memory) :=
  List.getElem?_map

theorem regions_of_nodes {t : Tree} {i : ℕ} {n : Node} (hn : t.nodes[i]? = some n) :
    t.regions[i]? = some (n.region t.memory) := by
  rw [regions_getElem?, hn, Option.map_some]

/-- Headers whose bytes are the same read the same. -/
theorem region_congr {m m' : Memory} {n : Node} (h : ∀ a ∈ n.span.cells, m' a = m a) :
    n.region m' = n.region m := by
  have harena : loadArena m' n.header = loadArena m n.header := by
    refine loadArena_congr fun i hi => h _ ?_
    exact ⟨Nat.le_add_right _ _, Nat.add_lt_add_left hi _⟩
  rw [Node.region, Node.region, harena]

/-! ### One call -/

/-- `t'` is `t` after arena `i` has handed out `size` bytes. -/
structure Served (t : Tree) (i : ℕ) (n : Node) (size : ℕ) (t' : Tree) : Prop where
  fits : (n.region t.memory).top + size ≤ (n.region t.memory).area.stop
  nodes : t'.nodes = t.nodes.set i { n with blocks := n.blocks ++ [⟨(n.region t.memory).top, size⟩] }
  regions : t'.regions = t.regions.set i ((n.region t.memory).push size)
  frame : ∀ a : ℕ, a < n.header + 16 ∨ n.header + 24 ≤ a →
    a ∉ Span.cells ⟨(n.region t.memory).top, size⟩ → t'.memory a = t.memory a

section Call

variable {t t' : Tree} {i size : ℕ} {n : Node}

/-- The block at the cursor is in the area. -/
theorem free_subset (hfit : (n.region t.memory).top + size ≤ (n.region t.memory).area.stop) :
    (Span.cells ⟨(n.region t.memory).top, size⟩) ⊆ (n.region t.memory).area.cells := by
  rintro a ⟨hlo, hhi⟩
  exact ⟨Nat.le_trans (Nat.le_add_right _ _) hlo, Nat.lt_of_lt_of_le hhi hfit⟩

/-- No header is in the block at the cursor. -/
theorem Sound.header_apart (h : t.Sound) (hn : t.nodes[i]? = some n)
    (hfit : (n.region t.memory).top + size ≤ (n.region t.memory).area.stop) {n' : Node}
    (hn' : n' ∈ t.nodes) :
    Disjoint n'.span.cells (Span.cells ⟨(n.region t.memory).top, size⟩) :=
  h.nested.kept_apart (h.kept n' hn') (regions_of_nodes hn) (free_subset hfit) (Nat.le_refl _)

/-- The region of an arena after a call that fits. -/
theorem region_callAt {m : Memory} {c : Call} {bs : List Span}
    (hfit : (loadArena m n.header).cur + c.size ≤ (loadArena m n.header).cap)
    (hwrap : (loadArena m n.header).cur.toNat + c.size.toNat < 2 ^ 64)
    (hapart : Disjoint (Span.cells ⟨n.header, arenaSize⟩)
      (Span.cells ⟨(loadArena m n.header).top, c.size.toNat⟩)) :
    Node.region (callAt m n.header c).2 { n with blocks := bs } =
      { n.region m with
        top := (loadArena m n.header).top + c.size.toNat
        blocks := bs } := by
  have hload := loadArena_callAt hfit hapart
  have hsum := toNat_add_of_lt hwrap
  simp only [Node.region, hload, UArena.area, UArena.top, hsum, Nat.add_assoc]

/-- The regions after one arena has changed. -/
theorem regions_set {n' : Node} {q : Region} (hn : t.nodes[i]? = some n)
    (hnodes : t'.nodes = t.nodes.set i n') (hregion : n'.region t'.memory = q)
    (hothers : ∀ (j : ℕ) (n₂ : Node), j ≠ i → t.nodes[j]? = some n₂ →
      n₂.region t'.memory = n₂.region t.memory) :
    t'.regions = t.regions.set i q := by
  have hlt := (List.getElem?_eq_some_iff.mp hn).1
  have hltRegions := (List.getElem?_eq_some_iff.mp (regions_of_nodes hn)).1
  refine List.ext_getElem? fun j => ?_
  rw [regions_getElem?, hnodes]
  by_cases hj : j = i
  · rw [hj, List.getElem?_set_self hlt, List.getElem?_set_self hltRegions, Option.map_some,
      hregion]
  · rw [List.getElem?_set_ne (Ne.symm hj), List.getElem?_set_ne (Ne.symm hj), regions_getElem?]
    cases hn₂ : t.nodes[j]? with
    | none => rw [Option.map_none, Option.map_none]
    | some n₂ => rw [Option.map_some, Option.map_some, hothers j n₂ hj hn₂]

/-- **A call on a sound tree.** -/
theorem Sound.call_cases (h : t.Sound) (hn : t.nodes[i]? = some n) {c : Call}
    (hwrap : (loadArena t.memory n.header).cur.toNat + c.size.toNat < 2 ^ 64) :
    t.call i c = some (none, t) ∨
      ∃ t', t.call i c = some (some ⟨(n.region t.memory).top, c.size.toNat⟩, t') ∧
        t.Served i n c.size.toNat t' := by
  have hsum := toNat_add_of_lt hwrap
  rw [call_eq hn]
  by_cases hfit : (loadArena t.memory n.header).cur + c.size ≤ (loadArena t.memory n.header).cap
  · refine Or.inr ?_
    have hfitNat : (n.region t.memory).top + c.size.toNat ≤ (n.region t.memory).area.stop := by
      rw [UInt64.le_iff_toNat_le, hsum] at hfit
      simp only [Node.region, UArena.top, UArena.area, Span.stop]
      rw [Nat.add_assoc]
      exact Nat.add_le_add_left hfit _
    have hblock : (callAt t.memory n.header c).1 =
        some ⟨(n.region t.memory).top, c.size.toNat⟩ := by
      rw [callAt_of_fits hfit]
      rfl
    have hframe : ∀ a : ℕ, a < n.header + 16 ∨ n.header + 24 ≤ a →
        a ∉ Span.cells ⟨(n.region t.memory).top, c.size.toNat⟩ →
        (callAt t.memory n.header c).2 a = t.memory a := by
      intro a hcur ha
      refine callAt_frame hcur ?_
      simp only [Span.mem_cells, Span.stop, Node.region] at ha
      omega
    rw [hblock]
    refine ⟨_, rfl, hfitNat, rfl, regions_set hn rfl ?_ ?_, hframe⟩
    · exact region_callAt hfit hwrap (h.header_apart hn hfitNat (List.mem_of_getElem? hn))
    · intro j n₂ hj hn₂
      refine region_congr fun a ha => hframe a ?_ ?_
      · have hnot := Set.disjoint_left.mp (h.apart hj hn₂ hn) ha
        simp only [Node.span, Span.mem_cells, Span.stop, arenaSize] at hnot
        omega
      · exact Set.disjoint_left.mp (h.header_apart hn hfitNat (List.mem_of_getElem? hn₂)) ha
  · rw [callAt_of_full hfit]
    refine Or.inl ?_
    simp only [Option.toList_none, List.append_nil, set_of_getElem? hn]

/-- The node of the arena afterwards. -/
theorem Served.node (hs : t.Served i n size t') (hn : t.nodes[i]? = some n) :
    t'.nodes[i]? = some { n with blocks := n.blocks ++ [⟨(n.region t.memory).top, size⟩] } := by
  rw [hs.nodes, List.getElem?_set_self (List.getElem?_eq_some_iff.mp hn).1]

/-- Every node had its header where it has it now. -/
theorem Served.header_eq (hs : t.Served i n size t') (hn : t.nodes[i]? = some n) {j : ℕ}
    {n' : Node} (hn' : t'.nodes[j]? = some n') :
    ∃ n₀, t.nodes[j]? = some n₀ ∧ n'.span = n₀.span := by
  rw [hs.nodes] at hn'
  rcases getElem?_set_cases hn' with ⟨rfl, rfl⟩ | ⟨_, hold⟩
  · exact ⟨n, hn, rfl⟩
  · exact ⟨n', hold, rfl⟩

theorem Served.sound (hs : t.Served i n size t') (h : t.Sound) (hn : t.nodes[i]? = some n) :
    t'.Sound := by
  have hr := regions_of_nodes hn
  refine ⟨?_, ?_, ?_, ?_⟩
  · rw [hs.regions]
    exact h.nested.push hr (Nat.le_add_right _ _) hs.fits
  · intro n' hn'
    obtain ⟨j, hj⟩ := List.mem_iff_getElem?.mp hn'
    obtain ⟨n₀, hn₀, hspan⟩ := hs.header_eq hn hj
    rw [hs.regions, hspan]
    exact (h.kept n₀ (List.mem_of_getElem? hn₀)).push hr
  · intro j j' n₁ n₂ hne hn₁ hn₂
    obtain ⟨m₁, hm₁, hspan₁⟩ := hs.header_eq hn hn₁
    obtain ⟨m₂, hm₂, hspan₂⟩ := hs.header_eq hn hn₂
    rw [hspan₁, hspan₂]
    exact h.apart hne hm₁ hm₂
  · intro q hq
    rw [hs.regions] at hq
    obtain ⟨j, hj⟩ := List.mem_iff_getElem?.mp hq
    rcases getElem?_set_cases hj with ⟨_, rfl⟩ | ⟨_, hold⟩
    · rw [Region.area_push]
      exact h.small (n.region t.memory) (List.mem_of_getElem? hr)
    · exact h.small q (List.mem_of_getElem? hold)

end Call

/-! ### Several calls on one arena -/

/-- `t'` comes from `t` by work on arena `i`: nothing is forgotten, nothing is given
    away, and the bytes of the blocks are preserved. -/
structure Grown (t : Tree) (i : ℕ) (n : Node) (t' : Tree) (n' : Node) : Prop where
  sound : t'.Sound
  node : t'.nodes[i]? = some n'
  header : n'.header = n.header
  blocks : ∀ {j k : ℕ} {b : Span}, HasBlock t.regions j k b → HasBlock t'.regions j k b
  gives : ∀ {j k : ℕ}, Gives t'.regions j k i → Gives t.regions j k i
  kept : ∀ {s : Span}, Kept t.regions s → Kept t'.regions s
  spans : ∀ n₂ ∈ t'.nodes, ∃ n₁ ∈ t.nodes, n₂.span = n₁.span
  spares : t.Spares i n t'

section Grown

variable {t t₁ t₂ : Tree} {i : ℕ} {n n₁ n₂ : Node}

theorem Spares.refl : t.Spares i n t := fun _ => Or.inr ⟨Or.inl, fun _ _ _ => rfl⟩

theorem Grown.refl (h : t.Sound) (hn : t.nodes[i]? = some n) : t.Grown i n t n :=
  ⟨h, hn, rfl, id, id, id, fun n₂ hn₂ => ⟨n₂, hn₂, rfl⟩, Spares.refl⟩

theorem Grown.trans (h₁ : t.Grown i n t₁ n₁) (h₂ : t₁.Grown i n₁ t₂ n₂) : t.Grown i n t₂ n₂ := by
  refine ⟨h₂.sound, h₂.node, h₂.header.trans h₁.header, fun hb => h₂.blocks (h₁.blocks hb),
    fun hg => h₁.gives (h₂.gives hg), fun hs => h₂.kept (h₁.kept hs), ?_, ?_⟩
  · intro m hm
    obtain ⟨m₁, hm₁, hspan₁⟩ := h₂.spans m hm
    obtain ⟨m₀, hm₀, hspan₀⟩ := h₁.spans m₁ hm₁
    exact ⟨m₀, hm₀, hspan₁.trans hspan₀⟩
  · intro j k b hb
    rcases h₁.spares hb with hgives | ⟨hnew₁, hsame₁⟩
    · exact Or.inl hgives
    · rcases h₂.spares (h₁.blocks hb) with hgives | ⟨hnew₂, hsame₂⟩
      · exact Or.inl (h₁.gives hgives)
      · refine Or.inr ⟨?_, ?_⟩
        · intro k' z hz
          rcases hnew₂ hz with hold | hapart
          · exact hnew₁ hold
          · exact Or.inr hapart
        · intro a ha hcur
          rw [hsame₂ a ha (h₁.header ▸ hcur), hsame₁ a ha hcur]

theorem gives_push {r : Region} {size j k c : ℕ} {rs : List Region} (hr : rs[i]? = some r)
    (hg : Gives (rs.set i (r.push size)) j k c) : Gives rs j k c := by
  induction hg with
  | child hi => exact .child ((housed_push hr).mp hi)
  | deeper _ hi ih => exact .deeper ih ((housed_push hr).mp hi)

theorem Served.grown {size : ℕ} (hs : t.Served i n size t₁) (h : t.Sound)
    (hn : t.nodes[i]? = some n) :
    t.Grown i n t₁ { n with blocks := n.blocks ++ [⟨(n.region t.memory).top, size⟩] } := by
  have hr := regions_of_nodes hn
  refine ⟨hs.sound h hn, hs.node hn, rfl, ?_, ?_, ?_, ?_, ?_⟩
  · intro j k b hb
    rw [hs.regions]
    exact (hasBlock_push hr).mpr (Or.inl hb)
  · intro j k hg
    rw [hs.regions] at hg
    exact gives_push hr hg
  · intro s hs'
    rw [hs.regions]
    exact hs'.push hr
  · intro m hm
    obtain ⟨j, hj⟩ := List.mem_iff_getElem?.mp hm
    obtain ⟨m₀, hm₀, hspan⟩ := hs.header_eq hn hj
    exact ⟨m₀, List.mem_of_getElem? hm₀, hspan⟩
  · intro j k b hb
    rcases h.nested.free_apart hr (free_subset hs.fits) (Nat.le_refl _) hb with hgives | hapart
    · exact Or.inl hgives
    · refine Or.inr ⟨?_, ?_⟩
      · intro k' z hz
        rw [hs.regions] at hz
        rcases (hasBlock_push hr).mp hz with hold | ⟨_, _, rfl⟩
        · exact Or.inl hold
        · exact Or.inr hapart
      · exact fun a ha hcur => hs.frame a hcur (Set.disjoint_left.mp hapart ha)

end Grown

/-! ### A block becomes an arena -/

/-- `s` is fit for a header: nothing uses it, and no block but one that was given away
    for arena `i` meets it. -/
structure Fresh (t t₁ : Tree) (i : ℕ) (s : Span) : Prop where
  kept : Kept t₁.regions s
  unused : ∀ m ∈ t₁.nodes, Disjoint s.cells m.span.cells
  blocks : ∀ {j k : ℕ} {b : Span}, HasBlock t.regions j k b → Gives t.regions j k i ∨
    Disjoint b.cells s.cells

section Adopt

variable {t : Tree} {i new : ℕ} {n : Node} {bs : List Span} {cap : UInt64} {mem : Span}

theorem adopt_frame {a : ℕ} (ha : a ∉ Span.cells ⟨new, arenaSize⟩) :
    (t.adopt i new cap mem).memory a = t.memory a := by
  refine uaInitAt_of_outside ?_
  simp only [Span.mem_cells, Span.stop] at ha
  omega

theorem nodes_adopt (hn : t.nodes[i]? = some n) (hbs : n.blocks = bs ++ [mem]) :
    (t.adopt i new cap mem).nodes = t.nodes ++ [⟨new, some (i, bs.length), []⟩] := by
  have hlast : n.blocks.length - 1 = bs.length := by
    rw [hbs, List.length_append, List.length_singleton, Nat.add_sub_cancel]
  simp only [adopt, hn, Option.map_some, Option.getD_some, hlast]

/-- The new arena has the block as its memory, and nothing in it is used. -/
theorem region_adopt (hcap : cap.toNat = mem.size) (hmem : mem.start < 2 ^ 64)
    {home : Option (ℕ × ℕ)} :
    Node.region (t.adopt i new cap mem).memory ⟨new, home, []⟩ =
      { home := home, area := mem, top := mem.start, blocks := [] } := by
  have hload : loadArena (t.adopt i new cap mem).memory new =
      uaInit false false true cap mem.start := loadArena_uaInitAt hmem
  have harea : (uaInit false false true cap mem.start).area = mem := by
    simp only [UArena.area, uaInit, hcap]
  have htop : (uaInit false false true cap mem.start).top = mem.start := by
    simp only [UArena.top, uaInit]
    rfl
  simp only [Node.region, hload, harea, htop]

theorem regions_adopt (hn : t.nodes[i]? = some n) (hbs : n.blocks = bs ++ [mem])
    (hcap : cap.toNat = mem.size) (hmem : mem.start < 2 ^ 64)
    (hunused : ∀ m ∈ t.nodes, Disjoint (Span.cells ⟨new, arenaSize⟩) m.span.cells) :
    (t.adopt i new cap mem).regions =
      t.regions ++ [⟨some (i, bs.length), mem, mem.start, []⟩] := by
  have hold : ∀ m ∈ t.nodes, m.region (t.adopt i new cap mem).memory = m.region t.memory := by
    intro m hm
    exact region_congr fun a ha => adopt_frame (Set.disjoint_right.mp (hunused m hm) ha)
  rw [regions, nodes_adopt hn hbs, List.map_append, List.map_congr_left hold,
    List.map_singleton, region_adopt hcap hmem]
  rfl

/-- **A sound tree stays sound when a block that was just cleared becomes an arena.** -/
theorem Sound.adopt (h : t.Sound) (hn : t.nodes[i]? = some n) (hbs : n.blocks = bs ++ [mem])
    (hfree : ∀ c, ¬ Housed t.regions i bs.length c)
    (hheaders : ∀ m ∈ t.nodes, Disjoint m.span.cells mem.cells)
    (hcap : cap.toNat = mem.size) (hmem : mem.stop < 2 ^ 64)
    (hkept : Kept t.regions ⟨new, arenaSize⟩)
    (hunused : ∀ m ∈ t.nodes, Disjoint (Span.cells ⟨new, arenaSize⟩) m.span.cells)
    (hapart : Disjoint (Span.cells ⟨new, arenaSize⟩) mem.cells) :
    (t.adopt i new cap mem).Sound := by
  have hstart : mem.start < 2 ^ 64 := Nat.lt_of_le_of_lt (Nat.le_add_right _ _) hmem
  have hregions := regions_adopt hn hbs hcap hstart hunused
  have hnodes := @nodes_adopt t i new n bs cap mem hn hbs
  have hblock : HasBlock t.regions i bs.length mem := by
    refine ⟨n.region t.memory, regions_of_nodes hn, ?_⟩
    rw [Node.region, hbs, List.getElem?_concat_length]
  have hstays : ∀ {s : Span}, Kept t.regions s → s ≠ mem →
      Kept (t.adopt i new cap mem).regions s := by
    intro s hs hne
    rw [hregions]
    exact h.nested.kept_adopt hs hblock hne rfl rfl rfl
  refine ⟨?_, ?_, ?_, ?_⟩
  · rw [hregions]
    exact h.nested.adopt hblock hfree rfl rfl rfl
  · intro m hm
    rw [hnodes] at hm
    rcases List.mem_append.mp hm with hold | hnew
    · exact hstays (h.kept m hold) (Span.ne_of_disjoint (hheaders m hold) m.size_span_pos)
    · rw [List.mem_singleton.mp hnew]
      exact hstays hkept (Span.ne_of_disjoint hapart (Node.size_span_pos ⟨new, none, []⟩))
  · intro j j' m m' hne hm hm'
    rw [hnodes] at hm hm'
    rcases getElem?_concat_cases hm with hold | ⟨hj, rfl⟩
    · rcases getElem?_concat_cases hm' with hold' | ⟨_, rfl⟩
      · exact h.apart hne hold hold'
      · exact (hunused m (List.mem_of_getElem? hold)).symm
    · rcases getElem?_concat_cases hm' with hold' | ⟨hj', _⟩
      · exact hunused m' (List.mem_of_getElem? hold')
      · exact absurd (hj.trans hj'.symm) hne
  · intro r hr
    rw [hregions] at hr
    rcases List.mem_append.mp hr with hold | hnew
    · exact h.small r hold
    · rw [List.mem_singleton.mp hnew]
      exact hmem

end Adopt

/-! ### One bootstrap -/

section Bootstrap

variable {t t₁ : Tree} {i : ℕ} {n n₁ : Node} {cap : UInt64}

theorem call_memory {r : Option Span × Tree} {c : Call} (hn : t.nodes[i]? = some n)
    (hcall : t.call i c = some r) : r.2.memory = (callAt t.memory n.header c).2 := by
  rw [call_eq hn] at hcall
  rw [← Option.some.inj hcall]

/-- The block that was just handed out is nobody's home. -/
theorem Served.free {size : ℕ} (hs : t.Served i n size t₁) (h : t.Sound)
    (hn : t.nodes[i]? = some n) (c : ℕ) : ¬ Housed t₁.regions i n.blocks.length c := by
  intro hc
  rw [hs.regions, housed_push (regions_of_nodes hn)] at hc
  obtain ⟨r, hr, hhome⟩ := hc
  obtain ⟨_, q, hq, hblock⟩ := h.nested.housed hr hhome
  rw [regions_of_nodes hn] at hq
  cases hq
  exact absurd (List.getElem?_eq_some_iff.mp hblock).1 (Nat.lt_irrefl _)

/-- The place for the header, from the caller or from the arena. -/
theorem Sound.headerFor_cases (h : t.Sound) (hn : t.nodes[i]? = some n) {newExisting : Option ℕ}
    (hlegal : t.Legal (.bootstrap i newExisting cap))
    (hwrap : t.NoWrap (.bootstrap i newExisting cap)) :
    ∃ new t₁ n₁, t.headerFor i newExisting = some (new, t₁) ∧ t.Grown i n t₁ n₁ ∧
      (∀ p, new = some p → Fresh t t₁ i ⟨p, arenaSize⟩) ∧
      (loadArena t₁.memory n₁.header).cur.toNat + cap.toNat < 2 ^ 64 := by
  cases newExisting with
  | some p =>
    refine ⟨some p, t, n, rfl, Grown.refl h hn, ?_, hwrap n hn⟩
    intro q hq
    cases hq
    refine ⟨Or.inl hlegal.1, hlegal.2, ?_⟩
    intro j k b hb
    obtain ⟨r, hr, _⟩ := id hb
    refine Or.inr ((hlegal.1 r (List.mem_of_getElem? hr)).symm.mono_left ?_)
    exact h.nested.block_subset hr hb
  | none =>
    obtain ⟨hwrap₁, hwrap₂⟩ := hwrap n hn
    have hmemory : (uaAllocAt t.memory n.header (UInt64.ofNat arenaSize)).2 =
        (callAt t.memory n.header (.alloc (UInt64.ofNat arenaSize))).2 := by
      rw [callAt_alloc]
    rw [hmemory] at hwrap₂
    rcases h.call_cases hn (c := .alloc (UInt64.ofNat arenaSize)) hwrap₁ with hfull | ⟨t₁, hcall, hs⟩
    · rw [← call_memory hn hfull] at hwrap₂
      refine ⟨none, t, n, ?_, Grown.refl h hn, ?_, hwrap₂⟩
      · rw [headerFor, hfull]
        rfl
      · intro p hp
        cases hp
    · rw [← call_memory hn hcall] at hwrap₂
      refine ⟨some (n.region t.memory).top, t₁, _, ?_, hs.grown h hn, ?_, hwrap₂⟩
      · rw [headerFor, hcall]
        rfl
      · intro p hp
        obtain rfl := Option.some.inj hp
        refine ⟨?_, ?_, ?_⟩
        · rw [hs.regions]
          exact h.nested.kept_new (regions_of_nodes hn)
        · intro m hm
          obtain ⟨m₀, hm₀, hspan⟩ := (hs.grown h hn).spans m hm
          rw [hspan]
          exact (h.header_apart hn hs.fits hm₀).symm
        · intro j k b hb
          exact h.nested.free_apart (regions_of_nodes hn) (free_subset hs.fits) (Nat.le_refl _) hb

theorem Served.mem_lt (hs : t.Served i n cap.toNat t₁) (h : t.Sound)
    (hn : t.nodes[i]? = some n) :
    Span.stop ⟨(n.region t.memory).top, cap.toNat⟩ < 2 ^ 64 :=
  Nat.lt_of_le_of_lt hs.fits
    (h.small (n.region t.memory) (List.mem_of_getElem? (regions_of_nodes hn)))

theorem Served.unused {s : Span} (hs : t.Served i n cap.toNat t₁) (h : t.Sound)
    (hn : t.nodes[i]? = some n) (hunused : ∀ m ∈ t.nodes, Disjoint s.cells m.span.cells) :
    ∀ m ∈ t₁.nodes, Disjoint s.cells m.span.cells := by
  intro m hm
  obtain ⟨m₀, hm₀, hspan⟩ := (hs.grown h hn).spans m hm
  rw [hspan]
  exact hunused m₀ hm₀

/-- The new arena has no blocks yet. -/
theorem Served.hasBlock_adopt {new j k : ℕ} {b : Span} (hs : t.Served i n cap.toNat t₁)
    (h : t.Sound) (hn : t.nodes[i]? = some n)
    (hunused : ∀ m ∈ t.nodes, Disjoint (Span.cells ⟨new, arenaSize⟩) m.span.cells)
    (hb : HasBlock (t₁.adopt i new cap ⟨(n.region t.memory).top, cap.toNat⟩).regions j k b) :
    HasBlock t₁.regions j k b := by
  have hstart := Nat.lt_of_le_of_lt (Nat.le_add_right _ _) (hs.mem_lt h hn)
  rw [regions_adopt (hs.node hn) rfl rfl hstart (hs.unused h hn hunused)] at hb
  exact (hasBlock_append rfl).mp hb

/-- **The new arena takes the block that was just cleared for it.** -/
theorem Served.adopt_sound {new : ℕ} (hs : t.Served i n cap.toNat t₁) (h : t.Sound)
    (hn : t.nodes[i]? = some n) (hkept : Kept t.regions ⟨new, arenaSize⟩)
    (hunused : ∀ m ∈ t.nodes, Disjoint (Span.cells ⟨new, arenaSize⟩) m.span.cells) :
    (t₁.adopt i new cap ⟨(n.region t.memory).top, cap.toNat⟩).Sound := by
  have hr := regions_of_nodes hn
  have hgrown := hs.grown h hn
  refine (hs.sound h hn).adopt (hs.node hn) rfl (hs.free h hn) ?_ rfl (hs.mem_lt h hn)
    (hgrown.kept hkept) (hs.unused h hn hunused) ?_
  · intro m hm
    obtain ⟨m₀, hm₀, hspan⟩ := hgrown.spans m hm
    rw [hspan]
    exact h.header_apart hn hs.fits hm₀
  · exact h.nested.kept_apart hkept hr (free_subset hs.fits) (Nat.le_refl _)

/-- **A bootstrap on a sound tree.** -/
theorem Sound.bootstrap_cases (h : t.Sound) (hn : t.nodes[i]? = some n)
    {newExisting : Option ℕ} (hlegal : t.Legal (.bootstrap i newExisting cap))
    (hwrap : t.NoWrap (.bootstrap i newExisting cap)) :
    ∃ r, t.bootstrap i newExisting cap = some r ∧ r.2.Sound ∧ t.Spares i n r.2 := by
  obtain ⟨new, t₁, n₁, hfor, hgrown₁, hfresh, hwrap₁⟩ := h.headerFor_cases hn hlegal hwrap
  have h₁ := hgrown₁.sound
  rcases h₁.call_cases hgrown₁.node (c := .zalloc cap) hwrap₁ with hfull | ⟨t₂, hcall, hs⟩
  · -- no room for the memory: what was taken for the header stays taken
    refine ⟨(none, t₁), ?_, h₁, hgrown₁.spares⟩
    rw [bootstrap, hfor, Option.bind_some, hfull, Option.map_some]
    cases new with
    | none => rfl
    | some p => rfl
  · have hgrown₂ := hgrown₁.trans (hs.grown h₁ hgrown₁.node)
    cases new with
    | none =>
      refine ⟨(none, t₂), ?_, hgrown₂.sound, hgrown₂.spares⟩
      rw [bootstrap, hfor, Option.bind_some, hcall, Option.map_some]
    | some p =>
      have hp := hfresh p rfl
      refine ⟨(some p, t₂.adopt i p cap ⟨(n₁.region t₁.memory).top, cap.toNat⟩), ?_, ?_, ?_⟩
      · rw [bootstrap, hfor, Option.bind_some, hcall, Option.map_some]
        rfl
      · exact hs.adopt_sound h₁ hgrown₁.node hp.kept hp.unused
      · intro j k b hb
        rcases hp.blocks hb with hgives | hapart
        · exact Or.inl hgives
        · rcases hgrown₂.spares hb with hgives | ⟨hnew, hsame⟩
          · exact Or.inl hgives
          · refine Or.inr ⟨?_, ?_⟩
            · intro k' z hz
              exact hnew (hs.hasBlock_adopt h₁ hgrown₁.node hp.unused hz)
            · intro a ha hcur
              rw [← hsame a ha hcur]
              exact adopt_frame (Set.disjoint_left.mp hapart ha)

end Bootstrap

/-! ### Runs -/

section Runs

variable {t t' : Tree} {op : TreeOp} {n : Node}

theorem node_of_step (hstep : t.step op = some t') : ∃ n, t.nodes[op.node]? = some n := by
  cases hn : t.nodes[op.node]? with
  | some n => exact ⟨n, rfl⟩
  | none =>
    have hcall : ∀ c, t.call op.node c = none := by
      intro c
      rw [call, hn, Option.map_none]
    cases op with
    | call i c =>
      rw [step, show t.call i c = none from hcall c] at hstep
      cases hstep
    | bootstrap i newExisting cap =>
      have hboot : t.bootstrap i newExisting cap = none := by
        cases newExisting with
        | some p =>
          rw [bootstrap, headerFor, Option.bind_some,
            show t.call i (.zalloc cap) = none from hcall _, Option.map_none]
        | none =>
          rw [bootstrap, headerFor, show t.call i (.alloc (UInt64.ofNat arenaSize)) = none from
            hcall _, Option.map_none, Option.bind_none]
      rw [step, hboot] at hstep
      cases hstep

/-- **One operation on a sound tree.** -/
theorem Sound.step_cases (h : t.Sound) (hn : t.nodes[op.node]? = some n) (hlegal : t.Legal op)
    (hwrap : t.NoWrap op) :
    ∃ t', t.step op = some t' ∧ t'.Sound ∧ t.Spares op.node n t' := by
  cases op with
  | call i c =>
    have hn : t.nodes[i]? = some n := hn
    rcases h.call_cases hn (hwrap n hn) with hfull | ⟨t', hcall, hs⟩
    · refine ⟨t, ?_, h, Spares.refl⟩
      rw [step, hfull, Option.map_some]
    · refine ⟨t', ?_, hs.sound h hn, (hs.grown h hn).spares⟩
      rw [step, hcall, Option.map_some]
  | bootstrap i newExisting cap =>
    have hn : t.nodes[i]? = some n := hn
    obtain ⟨r, hboot, hsound, hspares⟩ := h.bootstrap_cases hn hlegal hwrap
    refine ⟨r.2, ?_, hsound, hspares⟩
    rw [step, hboot, Option.map_some]

theorem Sound.step (h : t.Sound) (hok : t.Legal op ∧ t.NoWrap op) (hstep : t.step op = some t') :
    t'.Sound := by
  obtain ⟨n, hn⟩ := node_of_step hstep
  obtain ⟨t₂, hstep₂, hsound, _⟩ := h.step_cases hn hok.1 hok.2
  rw [hstep] at hstep₂
  cases hstep₂
  exact hsound

theorem Sound.preservesBlocks (h : t.Sound) (hok : t.Legal op ∧ t.NoWrap op) :
    t.PreservesBlocks op := by
  intro t' hstep n hn
  obtain ⟨t₂, hstep₂, _, hspares⟩ := h.step_cases hn hok.1 hok.2
  rw [hstep] at hstep₂
  cases hstep₂
  exact hspares

/-- One arena that has handed out nothing, with its header outside its memory. -/
structure Root (t : Tree) (header : ℕ) : Prop where
  nodes : t.nodes = [⟨header, none, []⟩]
  apart : Disjoint (Span.cells ⟨header, arenaSize⟩) (loadArena t.memory header).area.cells
  small : (loadArena t.memory header).area.stop < 2 ^ 64

theorem Root.sound {header : ℕ} (h : t.Root header) : t.Sound := by
  have hregions : t.regions = [Node.region t.memory ⟨header, none, []⟩] := by
    rw [regions, h.nodes, List.map_singleton]
  refine ⟨?_, ?_, ?_, ?_⟩
  · rw [hregions]
    exact nested_single _ _
  · intro n hn
    rw [h.nodes] at hn
    rw [List.mem_singleton.mp hn, hregions]
    refine Or.inl fun r hr => ?_
    rw [List.mem_singleton.mp hr]
    exact h.apart
  · intro i j n n' hne hn hn'
    rw [h.nodes] at hn hn'
    have hi := (List.getElem?_eq_some_iff.mp hn).1
    have hj := (List.getElem?_eq_some_iff.mp hn').1
    simp only [List.length_singleton] at hi hj
    omega
  · intro r hr
    rw [hregions] at hr
    rw [List.mem_singleton.mp hr]
    exact h.small

/-- **Nested arenas never overlap.**  In a tree grown from one arena the blocks of all
    arenas stay laid out as they should, and no operation touches a block that was
    handed out before, except the ones that were given away for its arena. -/
theorem nested_arenas {header : ℕ} (hroot : t.Root header) {ops : List TreeOp}
    (hok : Along step (fun t op => t.Legal op ∧ t.NoWrap op) t ops) :
    Throughout step (fun t => Laid t.regions) t ops ∧ Along step PreservesBlocks t ops := by
  constructor
  · exact throughout_of_along (fun _ _ _ h hok hstep => Sound.step h hok hstep)
      (fun _ h => h.nested.laid) hroot.sound hok
  · exact along_of_along (fun _ _ _ h hok hstep => Sound.step h hok hstep)
      (fun _ _ h hok => h.preservesBlocks hok) hroot.sound hok

/-- 4096 bytes at 200, with the header at 100. -/
def rootTree : Tree :=
  { memory := uaInitAt (fun _ => 0) 100 false false false 4096 200
    nodes := [⟨100, none, []⟩] }

theorem rootTree_root : rootTree.Root 100 := by
  have hload : loadArena rootTree.memory 100 = uaInit false false false 4096 200 :=
    loadArena_uaInitAt (by decide)
  refine ⟨rfl, ?_, ?_⟩
  · rw [hload]
    decide
  · rw [hload]
    decide

/-- A child in the root, a grandchild with its header elsewhere, and calls on each. -/
theorem nested_arenas_two_deep :
    let ops : List TreeOp := [.bootstrap 0 none 1024, .bootstrap 1 (some 8000) 256,
      .call 0 (.alloc 16), .call 2 (.zalloc 64), .call 1 (.reserve 8)]
    Throughout step (fun t => Laid t.regions) rootTree ops ∧
      Along step PreservesBlocks rootTree ops :=
  nested_arenas rootTree_root (by decide +kernel)

end Runs

end Tree

end Lmalloc.Arena
