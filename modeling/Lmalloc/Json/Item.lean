/-
  Lmalloc/Json/Item.lean
  ======================
  **The items of `cJSON.c`: how they are held, deleted and searched.**

  `next` and `prev` make a list of the children of an item, so here the children
  are a list.  `Item` keeps the block each part came from the allocator in; the
  allocator answers as it likes, and a block that is not live cannot be given
  back.
-/
import Mathlib

namespace Lmalloc.Json

/-! ### The allocator of the hooks -/

/-- `granted n size` is its answer to the request number `n`, of `size` bytes.  A
    block is known by the number of its request. -/
structure Heap where
  granted : ℕ → ℕ → Bool
  requests : ℕ
  live : Finset ℕ
  fresh : ∀ block ∈ live, block < requests

namespace Heap

def allocate (heap : Heap) (size : ℕ) : Option ℕ × Heap :=
  if heap.granted heap.requests size then
    (some heap.requests,
      { granted := heap.granted
        requests := heap.requests + 1
        live := insert heap.requests heap.live
        fresh := by
          intro block hblock
          rcases Finset.mem_insert.mp hblock with rfl | hblock
          · exact Nat.lt_succ_self _
          · exact Nat.lt_succ_of_lt (heap.fresh block hblock) })
  else
    (none, { heap with
      requests := heap.requests + 1
      fresh := fun block hblock => Nat.lt_succ_of_lt (heap.fresh block hblock) })

def deallocate (heap : Heap) (block : ℕ) : Option Heap :=
  if block ∈ heap.live then
    some { heap with
      live := heap.live.erase block
      fresh := fun b hb => heap.fresh b (Finset.mem_of_mem_erase hb) }
  else none

/-- Every allocation is granted. -/
def NeverRefuses (heap : Heap) : Prop := ∀ request size, heap.granted request size = true

end Heap

/-! ### Items -/

/-- A string that was allocated: its block, and the bytes written into it. -/
structure Str where
  block : ℕ
  bytes : List UInt8
deriving DecidableEq

/-- What `strcmp` and `printf` see of it. -/
def Str.cString (s : Str) : List UInt8 := s.bytes.takeWhile (· ≠ 0)

inductive Kind where
  | invalid | isFalse | isTrue | null | number | string | array | object | raw
deriving DecidableEq

/-- A `cJSON`; `isReference` and `stringIsConst` are the two flags of `type`. -/
structure Item (Num : Type) where
  block : ℕ
  kind : Kind
  isReference : Bool
  stringIsConst : Bool
  valuestring : Option Str
  valueint : ℤ
  valuedouble : Num
  string : Option Str
  child : List (Item Num)

variable {Num : Type}

def deallocateString : Option Str → Heap → Option Heap
  | none, heap => some heap
  | some s, heap => heap.deallocate s.block

mutual

/-- One round of the loop of `cJSON_Delete`. -/
def deleteItem : Item Num → Heap → Option Heap
  | ⟨block, _, isReference, stringIsConst, valuestring, _, _, string, child⟩, heap =>
      (if isReference then some heap else cJSONDelete child heap).bind fun heap =>
        (if isReference then some heap else deallocateString valuestring heap).bind fun heap =>
          (if stringIsConst then some heap else deallocateString string heap).bind fun heap =>
            heap.deallocate block

/-- `cJSON_Delete` of an item and of those after it. -/
def cJSONDelete : List (Item Num) → Heap → Option Heap
  | [], heap => some heap
  | item :: next, heap => (deleteItem item heap).bind (cJSONDelete next)

end

/-! ### What an item owns -/

def stringBlocks : Option Str → Multiset ℕ
  | none => 0
  | some s => {s.block}

mutual

def Item.blocks : Item Num → Multiset ℕ
  | ⟨block, _, isReference, stringIsConst, valuestring, _, _, string, child⟩ =>
      (if isReference then 0 else childBlocks child) +
        (if isReference then 0 else stringBlocks valuestring) +
          (if stringIsConst then 0 else stringBlocks string) + {block}

def childBlocks : List (Item Num) → Multiset ℕ
  | [] => 0
  | item :: next => item.blocks + childBlocks next

end

mutual

/-- How deep arrays and objects lie in each other. -/
def Item.nesting : Item Num → ℕ
  | ⟨_, kind, _, _, _, _, _, _, child⟩ =>
      childNesting child + if kind = Kind.array ∨ kind = Kind.object then 1 else 0

def childNesting : List (Item Num) → ℕ
  | [] => 0
  | item :: next => max item.nesting (childNesting next)

end

theorem Item.blocks_eq (item : Item Num) :
    item.blocks = (if item.isReference then 0 else childBlocks item.child) +
      (if item.isReference then 0 else stringBlocks item.valuestring) +
        (if item.stringIsConst then 0 else stringBlocks item.string) + {item.block} := by
  cases item
  rw [Item.blocks]

theorem Item.nesting_eq (item : Item Num) :
    item.nesting = childNesting item.child +
      if item.kind = Kind.array ∨ item.kind = Kind.object then 1 else 0 := by
  cases item
  rw [Item.nesting]

theorem childBlocks_append (items next : List (Item Num)) :
    childBlocks (items ++ next) = childBlocks items + childBlocks next := by
  induction items with
  | nil => simp [childBlocks]
  | cons item items ih => simp [childBlocks, ih, add_assoc]

theorem childNesting_append (items next : List (Item Num)) :
    childNesting (items ++ next) = max (childNesting items) (childNesting next) := by
  induction items with
  | nil => simp [childNesting]
  | cons item items ih => simp [childNesting, ih, max_assoc]

/-! ### Deleting gives back what the items own -/

/-- The blocks leave, and nothing else changes. -/
def Heap.Released (heap heap' : Heap) (blocks : Multiset ℕ) : Prop :=
  heap'.granted = heap.granted ∧ heap'.requests = heap.requests ∧
    heap'.live.val + blocks = heap.live.val

theorem Heap.Released.refl (heap : Heap) : heap.Released heap 0 := ⟨rfl, rfl, by simp⟩

theorem Heap.Released.trans {heap₁ heap₂ heap₃ : Heap} {b₁ b₂ : Multiset ℕ}
    (h₁ : heap₁.Released heap₂ b₁) (h₂ : heap₂.Released heap₃ b₂) :
    heap₁.Released heap₃ (b₁ + b₂) := by
  obtain ⟨hg₁, hr₁, hl₁⟩ := h₁
  obtain ⟨hg₂, hr₂, hl₂⟩ := h₂
  refine ⟨hg₂.trans hg₁, hr₂.trans hr₁, ?_⟩
  rw [← hl₁, ← hl₂, add_assoc, add_comm b₁]

/-- Giving back succeeds on every heap in which the blocks are live. -/
def Releases (release : Heap → Option Heap) (blocks : Multiset ℕ) : Prop :=
  ∀ heap : Heap, blocks ≤ heap.live.val →
    ∃ heap', release heap = some heap' ∧ heap.Released heap' blocks

/-- What is left once it has succeeded. -/
theorem Releases.live {release : Heap → Option Heap} {blocks : Multiset ℕ} {heap heap' : Heap}
    (h : Releases release blocks) (hle : blocks ≤ heap.live.val)
    (hrelease : release heap = some heap') : heap'.live.val + blocks = heap.live.val := by
  obtain ⟨heap'', hrelease', -, -, hlive⟩ := h heap hle
  obtain rfl := Option.some.inj (hrelease.symm.trans hrelease')
  exact hlive

theorem releases_none : Releases some 0 := fun heap _ => ⟨heap, rfl, Heap.Released.refl heap⟩

theorem releases_deallocate (block : ℕ) : Releases (·.deallocate block) {block} := by
  intro heap hle
  have hmem : block ∈ heap.live := Multiset.singleton_le.mp hle
  refine ⟨_, if_pos hmem, rfl, rfl, ?_⟩
  rw [add_comm, Multiset.singleton_add, Finset.erase_val]
  exact Multiset.cons_erase hmem

theorem Releases.bind {r₁ r₂ : Heap → Option Heap} {b₁ b₂ : Multiset ℕ} (h₁ : Releases r₁ b₁)
    (h₂ : Releases r₂ b₂) : Releases (fun heap => (r₁ heap).bind r₂) (b₁ + b₂) := by
  intro heap hle
  obtain ⟨heap₁, hr₁, hreleased₁⟩ := h₁ heap ((Multiset.le_add_right b₁ b₂).trans hle)
  have hle₂ : b₂ ≤ heap₁.live.val := by
    rw [← hreleased₁.2.2, add_comm] at hle
    exact Multiset.le_of_add_le_add_right hle
  obtain ⟨heap₂, hr₂, hreleased₂⟩ := h₂ heap₁ hle₂
  exact ⟨heap₂, by simp only [hr₁, Option.bind_some, hr₂], hreleased₁.trans hreleased₂⟩

theorem releases_unless {r : Heap → Option Heap} {b : Multiset ℕ} (kept : Bool)
    (h : Releases r b) :
    Releases (fun heap => if kept then some heap else r heap) (if kept then 0 else b) := by
  cases kept with
  | false => exact h
  | true => exact releases_none

theorem releases_deallocateString (s : Option Str) :
    Releases (deallocateString s) (stringBlocks s) := by
  cases s with
  | none => exact releases_none
  | some s => exact releases_deallocate s.block

mutual

theorem releases_deleteItem : (item : Item Num) → Releases (deleteItem item) item.blocks
  | ⟨block, _, isReference, stringIsConst, valuestring, _, _, string, child⟩ => by
      have hchild := releases_unless isReference (releases_cJSONDelete child)
      have hvalue := releases_unless isReference (releases_deallocateString valuestring)
      have hstring := releases_unless stringIsConst (releases_deallocateString string)
      have hall := hchild.bind (hvalue.bind (hstring.bind (releases_deallocate block)))
      simp only [← add_assoc] at hall
      intro heap hle
      simpa only [deleteItem, Item.blocks] using hall heap hle

/-- **`cJSON_Delete` gives back what the items own.** -/
theorem releases_cJSONDelete :
    (items : List (Item Num)) → Releases (cJSONDelete items) (childBlocks items)
  | [] => releases_none
  | item :: next => by
      have hall := (releases_deleteItem item).bind (releases_cJSONDelete next)
      intro heap hle
      simpa only [cJSONDelete, childBlocks] using hall heap hle

end

/-- A request that is granted adds its block, another one nothing. -/
theorem Heap.live_allocate (heap : Heap) (size : ℕ) :
    (heap.allocate size).2.live.val =
      heap.live.val + ((heap.allocate size).1.elim 0 fun block => {block}) := by
  unfold Heap.allocate
  split
  · have hnew : heap.requests ∉ heap.live := fun hmem =>
      absurd (heap.fresh _ hmem) (Nat.lt_irrefl _)
    rw [Finset.insert_val_of_notMem hnew, ← Multiset.singleton_add, add_comm]
    rfl
  · exact (add_zero _).symm

theorem Heap.allocate_some {heap heap' : Heap} {size block : ℕ}
    (h : heap.allocate size = (some block, heap')) :
    heap'.live.val = heap.live.val + {block} := by
  have hlive := heap.live_allocate size
  rw [h] at hlive
  exact hlive

theorem Heap.allocate_none {heap heap' : Heap} {size : ℕ}
    (h : heap.allocate size = (none, heap')) : heap'.live.val = heap.live.val := by
  have hlive := heap.live_allocate size
  rw [h] at hlive
  simpa using hlive

theorem Heap.deallocate_some {heap heap' : Heap} {block : ℕ}
    (h : heap.deallocate block = some heap') : heap'.live.val + {block} = heap.live.val := by
  obtain ⟨hmem, -⟩ := Option.ite_none_right_eq_some.mp h
  exact (releases_deallocate block).live (Multiset.singleton_le.mpr hmem) h

/-- A block that is live can be given back. -/
theorem Heap.deallocate_live {heap : Heap} {block : ℕ} (h : {block} ≤ heap.live.val) :
    ∃ heap', heap.deallocate block = some heap' ∧ heap'.live.val + {block} = heap.live.val := by
  obtain ⟨heap', hfree, -, -, hlive⟩ := releases_deallocate block heap h
  exact ⟨heap', hfree, hlive⟩

/-! ### Reading items -/

/-- `cJSON_GetStringValue`; `none` is `NULL`. -/
def cJSONGetStringValue (item : Item Num) : Option Str :=
  if item.kind = Kind.string then item.valuestring else none

/-- `cJSON_GetNumberValue`; `none` is `NAN`. -/
def cJSONGetNumberValue (item : Item Num) : Option Num :=
  if item.kind = Kind.number then some item.valuedouble else none

def tolower (c : UInt8) : UInt8 := if 65 ≤ c ∧ c ≤ 90 then c + 32 else c

/-- The loop of `case_insensitive_strcmp` over two strings up to their `NUL`. -/
def caseInsensitiveStrcmp : List UInt8 → List UInt8 → ℤ
  | [], [] => 0
  | c :: _, [] => (tolower c).toNat
  | [], d :: _ => -(tolower d).toNat
  | c :: cs, d :: ds =>
      if tolower c = tolower d then caseInsensitiveStrcmp cs ds
      else (tolower c).toNat - (tolower d).toNat

/-- The loop of `get_object_item`, not case sensitive. -/
def getObjectItemLoop (name : List UInt8) : List (Item Num) → Option (Item Num)
  | [] => none
  | current :: next =>
      match current.string with
      | none => getObjectItemLoop name next
      | some s =>
          if caseInsensitiveStrcmp name s.cString = 0 then some current
          else getObjectItemLoop name next

def cJSONGetObjectItem (object : Item Num) (name : List UInt8) : Option (Item Num) :=
  getObjectItemLoop name object.child

end Lmalloc.Json
