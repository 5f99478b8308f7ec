/-
  Lmalloc/Arena/BackEnds.lean
  ===========================
  **The three arena back ends agree.**

  `UArena`, `sdb_arena` and the arena of the karena module are swapped behind one
  macro layer.  Started empty with one capacity, they answer every run of
  admissible requests alike, because each of them answers as the abstract
  allocator does.
-/
import Lmalloc.Arena.Answers
import Lmalloc.Karena.Serving

namespace Lmalloc.Arena

open Lmalloc.Library Lmalloc.Karena

/-- **Same answers, same positions.**  The karena arena is the one a successful
    `ka_create` returns, in whatever state the module is; its offsets are taken
    from what `ka_base` reports. -/
theorem backEnds_agree (cap : UInt64) (hpage : 4096 ∣ cap.toNat) (hcap : cap.toNat < 2 ^ 63)
    (ua : UArena) (hua : ua.cap = cap ∧ ua.cur = 0)
    (sa : SdbArena) (hsa : sa.cap = cap ∧ sa.cur = 0)
    (c c₀ c₁ : Client) (os : Os) (arena base : UInt64)
    (hcreate : kaCreate c cap os = some (some arena, c₀))
    (hbase : kaBase c₀ arena Env.ok = some (base, c₁))
    (rs : List Request) (hrs : ∀ r ∈ rs, Bump.Admissible cap.toNat r) :
    trace UArena.answer ua rs = some (outputs Bump.answer ⟨cap.toNat, 0, Nat.zero_le _⟩ rs) ∧
      trace SdbArena.answer sa rs = some (outputs Bump.answer ⟨cap.toNat, 0, Nat.zero_le _⟩ rs) ∧
      trace (kaAnswer arena base) c₁ rs =
        some (outputs Bump.answer ⟨cap.toNat, 0, Nat.zero_le _⟩ rs) := by
  obtain ⟨base', hholds⟩ := kaCreate_holds hcreate
  obtain ⟨c', hbase', hholds'⟩ := kaBase_holds hholds
  rw [hbase, Option.some.injEq, Prod.mk.injEq] at hbase'
  obtain ⟨rfl, rfl⟩ := hbase'
  simp only [pageAlign_of_dvd hpage] at hholds'
  refine ⟨?_, ?_, ?_⟩
  · apply UArena.trace_eq ⟨?_, ?_⟩ hcap hrs
    · rw [hua.1]
    · rw [hua.2, UInt64.toNat_zero]
  · apply SdbArena.trace_eq ⟨?_, ?_⟩ hcap hrs
    · rw [hsa.1]
    · rw [hsa.2, UInt64.toNat_zero]
  · exact kaTrace_eq hholds' hcap hrs

/-- A process that has not opened the device yet, on a module just loaded. -/
def freshClient : Client := ⟨World.boot, 7, .zero⟩

/-- Every call succeeds, and `mmap` picks the address `0x10000`. -/
def friendlyOs : Os := ⟨true, Env.ok, 0x10000, false⟩

/-- The last pop and the reserve ask for too much. -/
def sampleRequests : List Request :=
  [.take 100, .drop 40, .reserve 5000, .seek 8, .drop 9, .position, .reset, .capacity]

theorem backEnds_agree_page :
    ∃ c₀ c₁ base, kaCreate freshClient 4096 friendlyOs = some (some 0, c₀) ∧
      kaBase c₀ 0 Env.ok = some (base, c₁) ∧
      trace UArena.answer (uaInit true false false 4096 1000) sampleRequests =
        some (outputs Bump.answer ⟨4096, 0, Nat.zero_le _⟩ sampleRequests) ∧
      trace SdbArena.answer (sdbArenaInit 2000 4096) sampleRequests =
        some (outputs Bump.answer ⟨4096, 0, Nat.zero_le _⟩ sampleRequests) ∧
      trace (kaAnswer 0 base) c₁ sampleRequests =
        some (outputs Bump.answer ⟨4096, 0, Nat.zero_le _⟩ sampleRequests) := by
  refine ⟨_, _, _, rfl, rfl, ?_⟩
  exact backEnds_agree 4096 (by decide) (by decide) _ ⟨rfl, rfl⟩ _ ⟨rfl, rfl⟩
    freshClient _ _ friendlyOs 0 _ rfl rfl sampleRequests (by decide)

end Lmalloc.Arena
