/-
  Lmalloc/Library/WordBump.lean
  =============================
  **A bump allocator held in two machine words.**

  An implementation keeps the capacity and the cursor as `size_t`.  As long as
  the capacity and every argument stay below `2^63`, no sum of a cursor and an
  argument wraps, so a test on the words is the test on the numbers whichever
  way round it is written, and moving the word moves the cursor.  Each
  implementation of the same interface uses these lemmas for its own form of the
  test.
-/
import Lmalloc.Library.Bump
import Lmalloc.Library.Run
import Lmalloc.Library.Word

namespace Lmalloc.Library.Bump

/-- `cap` and `cur` hold the two numbers of `b`. -/
structure InWords (b : Bump) (cap cur : UInt64) : Prop where
  cap_eq : cap.toNat = b.cap
  cur_eq : cur.toNat = b.cur

def answer (b : Bump) (r : Request) : (Reply × ℕ) × Bump :=
  (((b.serve r).1, (b.serve r).2.cur), (b.serve r).2)

/-- The arguments the implementations are meant for. -/
def Admissible (cap : ℕ) : Request → Prop
  | .take n | .drop n | .reserve n => n < 2 ^ 63
  | .seek p => p ≤ cap
  | .reset | .position | .capacity => True

instance (cap : ℕ) : DecidablePred (Admissible cap)
  | .take n | .drop n | .reserve n => inferInstanceAs (Decidable (n < 2 ^ 63))
  | .seek p => inferInstanceAs (Decidable (p ≤ cap))
  | .reset | .position | .capacity => inferInstanceAs (Decidable True)

namespace InWords

variable {b : Bump} {cap cur : UInt64}

theorem cur_le_cap (h : b.InWords cap cur) : cur ≤ cap := by
  rw [UInt64.le_iff_toNat_le, h.cap_eq, h.cur_eq]
  exact b.cur_le

theorem moveTo (h : b.InWords cap cur) {cur' : UInt64} {p : ℕ} (hp : p ≤ b.cap)
    (heq : cur'.toNat = p) : (b.moveTo p hp).InWords cap cur' :=
  ⟨h.cap_eq, heq⟩

/-- The room left is the difference of the words. -/
theorem toNat_left (h : b.InWords cap cur) : (cap - cur).toNat = b.cap - b.cur := by
  rw [Word.toNat_sub_of_le (UInt64.le_iff_toNat_le.mp h.cur_le_cap), h.cap_eq, h.cur_eq]

/-- A position inside the capacity is a word inside it. -/
theorem ofNat_le (h : b.InWords cap cur) (hcap : b.cap < 2 ^ 63) {p : ℕ} (hp : p ≤ b.cap) :
    (UInt64.ofNat p).toNat = p ∧ UInt64.ofNat p ≤ cap := by
  have hword : (UInt64.ofNat p).toNat = p :=
    Word.toNat_ofNat_of_lt (Nat.lt_of_le_of_lt hp hcap)
  refine ⟨hword, ?_⟩
  rw [UInt64.le_iff_toNat_le, hword, h.cap_eq]
  exact hp

theorem bump (h : b.InWords cap cur) {size : UInt64} {n : ℕ} (hsize : size.toNat = n)
    (hfit : b.cur + n ≤ b.cap) : (b.moveTo (b.cur + n) hfit).InWords cap (cur + size) := by
  have hcap : cap.toNat < 2 ^ 64 := cap.toNat_lt
  apply h.moveTo hfit
  rw [Word.toNat_add_of_lt, h.cur_eq, hsize]
  rw [h.cap_eq] at hcap
  rw [h.cur_eq, hsize]
  omega

theorem drop (h : b.InWords cap cur) {size : UInt64} {n : ℕ} (hsize : size.toNat = n)
    (hle : n ≤ b.cur) :
    (b.moveTo (b.cur - n) (Nat.le_trans (Nat.sub_le _ _) b.cur_le)).InWords cap (cur - size) := by
  apply h.moveTo
  rw [Word.toNat_sub_of_le, h.cur_eq, hsize]
  rw [h.cur_eq, hsize]
  exact hle

section Half

variable {size : UInt64} {n : ℕ} (h : b.InWords cap cur) (hcap : b.cap < 2 ^ 63)
  (hsize : size.toNat = n) (hn : n < 2 ^ 63)

include h hcap hsize hn

theorem noWrap : cur.toNat + size.toNat < 2 ^ 64 := by
  have hle := b.cur_le
  rw [h.cur_eq, hsize]
  omega

theorem add_le_iff : cur + size ≤ cap ↔ b.cur + n ≤ b.cap := by
  rw [Word.add_le_iff_of_lt (h.noWrap hcap hsize hn), h.cap_eq, h.cur_eq, hsize]

theorem lt_add_iff : cap < cur + size ↔ ¬ b.cur + n ≤ b.cap := by
  rw [← h.add_le_iff hcap hsize hn, UInt64.not_le]

end Half

end InWords

/-- **Refinement rule.**  An implementation that serves each admissible request as
    the abstract allocator does, on the two words it keeps, answers every run of
    them alike. -/
theorem trace_eq_of_serve {σ : Type} (cap cur : σ → UInt64) {serve : σ → Request → Reply × σ}
    (hserve : ∀ {b : Bump}, b.cap < 2 ^ 63 → ∀ {r : Request}, Admissible b.cap r →
      ∀ {s : σ}, b.InWords (cap s) (cur s) → (serve s r).1 = (b.serve r).1 ∧
        (b.serve r).2.InWords (cap (serve s r).2) (cur (serve s r).2))
    {b : Bump} {s : σ} {rs : List Request} (h : b.InWords (cap s) (cur s))
    (hcap : b.cap < 2 ^ 63) (hrs : ∀ r ∈ rs, Admissible b.cap r) :
    trace (fun s r => some (((serve s r).1, (cur (serve s r).2).toNat), (serve s r).2)) s rs =
      some (outputs answer b rs) := by
  refine trace_eq_outputs
    (R := fun s b' => b'.InWords (cap s) (cur s) ∧ b'.cap = b.cap) ?_ ⟨h, rfl⟩ hrs
  rintro s b' r ⟨hw, hb⟩ hr
  obtain ⟨hreply, hnext⟩ := hserve (hb ▸ hcap) (hb ▸ hr) hw
  refine ⟨(serve s r).2, ?_, hnext, by rw [answer, cap_serve, hb]⟩
  rw [answer, hreply, hnext.cur_eq]

end Lmalloc.Library.Bump
