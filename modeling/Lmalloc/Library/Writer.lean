/-
  Lmalloc/Library/Writer.lean
  ===========================
  **Filling a buffer front to back.**

  A writer copies pieces into memory one after another and moves a 64-bit cursor
  past each.  As long as the pieces fit in the range of the cursor, what the
  memory holds is the pieces in order (`Holds.puts`); and the copies stay inside a
  buffer of a given size exactly if the pieces together fit (`within_puts_iff`).
-/
import Mathlib

namespace Lmalloc.Library

/-- Memory from the start of the buffer on, the cursor, and where each copy went
    with its length. -/
structure Writer (β : Type) where
  mem : ℕ → β
  pos : UInt64
  log : List (ℕ × ℕ)

namespace Writer

variable {β : Type}

def start (mem : ℕ → β) : Writer β := ⟨mem, 0, []⟩

/-- Copy a piece to the cursor and move the cursor past it. -/
def put (w : Writer β) (piece : List β) : Writer β where
  mem a := if w.pos.toNat ≤ a then piece.getD (a - w.pos.toNat) (w.mem a) else w.mem a
  pos := w.pos + UInt64.ofNat piece.length
  log := w.log ++ [(w.pos.toNat, piece.length)]

def puts (w : Writer β) (pieces : List (List β)) : Writer β := pieces.foldl put w

def read (w : Writer β) (n : ℕ) : List β := (List.range n).map w.mem

/-- Every copy stayed below `size`. -/
def Within (w : Writer β) (size : ℕ) : Prop := ∀ e ∈ w.log, e.1 + e.2 ≤ size

/-- The cells before the cursor are `cells`. -/
structure Holds (w : Writer β) (cells : List β) : Prop where
  pos : w.pos.toNat = cells.length
  mem : ∀ a (h : a < cells.length), w.mem a = cells[a]

theorem mem_put (w : Writer β) (piece : List β) (a : ℕ) : (w.put piece).mem a =
    if w.pos.toNat ≤ a then piece.getD (a - w.pos.toNat) (w.mem a) else w.mem a := rfl

@[simp] theorem puts_nil (w : Writer β) : w.puts [] = w := rfl

theorem puts_cons (w : Writer β) (p : List β) (ps : List (List β)) :
    w.puts (p :: ps) = (w.put p).puts ps := rfl

theorem puts_append (w : Writer β) (ps qs : List (List β)) :
    w.puts (ps ++ qs) = (w.puts ps).puts qs := List.foldl_append

/-- A loop that writes some pieces for each element of a list. -/
theorem foldl_puts {α : Type} (f : α → List (List β)) (w : Writer β) (xs : List α) :
    xs.foldl (fun w x => w.puts (f x)) w = w.puts (xs.flatMap f) := by
  induction xs generalizing w with
  | nil => rfl
  | cons x xs ih => rw [List.foldl_cons, ih, List.flatMap_cons, puts_append]

@[simp] theorem length_read (w : Writer β) (n : ℕ) : (w.read n).length = n := by simp [read]

theorem holds_start (mem : ℕ → β) : (start mem).Holds [] :=
  ⟨rfl, fun _ h => absurd h (Nat.not_lt_zero _)⟩

theorem Holds.put {w : Writer β} {cells piece : List β} (h : w.Holds cells)
    (hfit : cells.length + piece.length < 2 ^ 64) : (w.put piece).Holds (cells ++ piece) where
  pos := by
    have hp : (UInt64.ofNat piece.length).toNat = piece.length := by
      rw [UInt64.toNat_ofNat', Nat.mod_eq_of_lt (by omega)]
    rw [Writer.put, UInt64.toNat_add, h.pos, hp, List.length_append, Nat.mod_eq_of_lt hfit]
  mem a ha := by
    rw [List.length_append] at ha
    rw [mem_put, h.pos]
    by_cases hold : a < cells.length
    · rw [if_neg (by omega), h.mem a hold, List.getElem_append_left hold]
    · have hin : a - cells.length < piece.length := by omega
      rw [if_pos (by omega), List.getD_eq_getElem _ _ hin, List.getElem_append_right (by omega)]

theorem Holds.puts {w : Writer β} {cells : List β} {ps : List (List β)} (h : w.Holds cells)
    (hfit : cells.length + ps.flatten.length < 2 ^ 64) : (w.puts ps).Holds (cells ++ ps.flatten) := by
  induction ps generalizing w cells with
  | nil => simpa using h
  | cons p ps ih =>
      rw [List.flatten_cons, List.length_append] at hfit
      rw [puts_cons, List.flatten_cons, ← List.append_assoc]
      apply ih (h.put (by omega))
      rw [List.length_append]
      omega

theorem Holds.read {w : Writer β} {cells : List β} (h : w.Holds cells) :
    w.read cells.length = cells := by
  apply List.ext_getElem
  · rw [length_read]
  · intro a _ ha
    simp only [Writer.read, List.getElem_map, List.getElem_range]
    exact h.mem a ha

/-- A writer that started at the front holds the pieces, as long as the cursor has
    not wrapped. -/
theorem holds_start_puts {mem : ℕ → β} {ps : List (List β)} (hfit : ps.flatten.length < 2 ^ 64) :
    ((start mem).puts ps).Holds ps.flatten := by
  apply (holds_start mem).puts
  rwa [List.length_nil, Nat.zero_add]

theorem within_put {w : Writer β} {piece : List β} {size : ℕ} :
    (w.put piece).Within size ↔ w.Within size ∧ w.pos.toNat + piece.length ≤ size := by
  simp [Within, put, or_imp, forall_and]

/-- The copies stay inside the buffer exactly if the pieces together fit.  The
    cursor may wrap, but only after a copy has gone past the end. -/
theorem within_puts_iff {mem : ℕ → β} {ps : List (List β)} {size : ℕ} (hsize : size < 2 ^ 64) :
    ((start mem).puts ps).Within size ↔ ps.flatten.length ≤ size := by
  induction ps using List.reverseRecOn with
  | nil => simp [start, Within]
  | append_singleton ps p ih =>
      have hstep : (start mem).puts (ps ++ [p]) = ((start mem).puts ps).put p := by
        rw [puts_append]
        rfl
      have hlen : (ps ++ [p]).flatten.length = ps.flatten.length + p.length := by simp
      rw [hstep, within_put, ih, hlen]
      constructor
      · rintro ⟨hps, hp⟩
        rw [(holds_start_puts (by omega)).pos] at hp
        exact hp
      · intro hfit
        rw [(holds_start_puts (by omega)).pos]
        omega

end Writer

end Lmalloc.Library
