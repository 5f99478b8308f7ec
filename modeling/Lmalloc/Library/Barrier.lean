/-
  Lmalloc/Library/Barrier.lean
  ============================
  **Parties that meet once at a barrier.**

  Each party makes a chain of calls that may fail, arrives at a barrier for all of
  them, goes on when the last one has arrived, and returns at some time.  A party
  whose chain fails returns at once.

  The barrier is a counter, as in `pthread_barrier_wait`.  It knows nothing of
  parties that have returned, so one failed chain is enough to keep the others
  waiting for ever.
-/
import Mathlib
import Lmalloc.Library.Run

namespace Lmalloc.Library

inductive Phase where
  | settingUp (calls : List Bool)   -- the results of the calls still to make
  | waiting
  | running
  | returned
deriving DecidableEq, Repr

structure Party where
  phase : Phase
  arrivals : ℕ
deriving DecidableEq, Repr

/-- The parties and the number of them that the barrier has counted. -/
structure Meeting (ι : Type*) where
  parties : ι → Party
  count : ℕ

namespace Meeting

variable {ι : Type*} [DecidableEq ι]

def start (calls : ι → List Bool) : Meeting ι := ⟨fun i => ⟨.settingUp (calls i), 0⟩, 0⟩

def set (s : Meeting ι) (i : ι) (p : Party) : Meeting ι :=
  { s with parties := Function.update s.parties i p }

/-- What the last arrival makes of a party. -/
def released (p : Party) : Party := if p.phase = .waiting then { p with phase := .running } else p

/-- `pthread_barrier_wait` of a barrier for `n`. -/
def arrive (n : ℕ) (s : Meeting ι) (i : ι) : Meeting ι :=
  let s := s.set i ⟨.waiting, (s.parties i).arrivals + 1⟩
  if s.count + 1 = n then { parties := fun j => released (s.parties j), count := 0 }
  else { s with count := s.count + 1 }

/-- Party `i` takes its next step; at the barrier it has none. -/
def step (n : ℕ) (s : Meeting ι) (i : ι) : Option (Meeting ι) :=
  let p := s.parties i
  match p.phase with
  | .settingUp (true :: calls) => some (s.set i { p with phase := .settingUp calls })
  | .settingUp (false :: _) => some (s.set i { p with phase := .returned })
  | .settingUp [] => some (s.arrive n i)
  | .waiting => none
  | .running => some (s.set i { p with phase := .returned })
  | .returned => none

/-- Who has returned has waited at the barrier exactly once. -/
def ArrivedOnce (s : Meeting ι) : Prop :=
  ∀ i, (s.parties i).phase = .returned → (s.parties i).arrivals = 1

/-- One party has returned without having arrived while another one is waiting. -/
def Stranded (s : Meeting ι) : Prop :=
  ∃ i j, (s.parties i).phase = .returned ∧ (s.parties i).arrivals = 0 ∧
    (s.parties j).phase = .waiting

instance [Fintype ι] (s : Meeting ι) : Decidable s.Stranded := by
  unfold Stranded
  infer_instance

section Set

variable (s : Meeting ι) (i : ι) (p : Party)

@[simp] theorem parties_set_same : (s.set i p).parties i = p := Function.update_self ..

theorem parties_set_other {j : ι} (h : j ≠ i) : (s.set i p).parties j = s.parties j :=
  Function.update_of_ne h ..

@[simp] theorem count_set : (s.set i p).count = s.count := rfl

end Set

/-! ### A chain that fails -/

/-- A party whose chain fails can return without ever having arrived. -/
theorem exists_returned (n : ℕ) {i : ι} (calls : List Bool) :
    ∀ s : Meeting ι, s.parties i = ⟨.settingUp calls, 0⟩ → false ∈ calls →
      ∃ s', Reachable (step n) s s' ∧ s'.parties i = ⟨.returned, 0⟩ := by
  induction calls with
  | nil => exact fun _ _ h => absurd h List.not_mem_nil
  | cons call calls ih =>
    intro s hs hfalse
    cases call with
    | false =>
      refine ⟨s.set i ⟨.returned, 0⟩, ⟨[i], ?_⟩, parties_set_same ..⟩
      simp only [run, step, hs]
    | true =>
      have hstep : step n s i = some (s.set i ⟨.settingUp calls, 0⟩) := by
        simp only [step, hs]
      have hrest : false ∈ calls := by simpa using hfalse
      obtain ⟨s', hreach, hs'⟩ := ih _ (parties_set_same ..) hrest
      exact ⟨s', Reachable.trans ⟨[i], run_cons_of_step hstep []⟩ hreach, hs'⟩

/-! ### All chains succeed -/

variable [Fintype ι]

/-- Before the last arrival each party is setting up or waiting. -/
structure Gathering (s : Meeting ι) : Prop where
  party : ∀ i, (∃ calls, s.parties i = ⟨.settingUp calls, 0⟩ ∧ ∀ call ∈ calls, call = true) ∨
    s.parties i = ⟨.waiting, 1⟩
  count_eq : s.count = (Finset.univ.filter fun i => (s.parties i).phase = .waiting).card

/-- After it each one is running or has returned. -/
def Dispersed (s : Meeting ι) : Prop :=
  ∀ i, s.parties i = ⟨.running, 1⟩ ∨ s.parties i = ⟨.returned, 1⟩

section Steps

variable {s s' : Meeting ι} {i : ι}

omit [DecidableEq ι] in
theorem gathering_start {calls : ι → List Bool} (h : ∀ i, ∀ call ∈ calls i, call = true) :
    Gathering (start calls) := by
  refine ⟨fun i => Or.inl ⟨calls i, rfl, h i⟩, ?_⟩
  simp [start]

/-- A successful call. -/
theorem Gathering.call {calls : List Bool} (h : Gathering s)
    (hi : s.parties i = ⟨.settingUp (true :: calls), 0⟩) (hcalls : ∀ call ∈ calls, call = true) :
    Gathering (s.set i ⟨.settingUp calls, 0⟩) := by
  constructor
  · intro j
    by_cases hj : j = i
    · subst hj
      exact Or.inl ⟨calls, parties_set_same .., hcalls⟩
    · rw [parties_set_other _ _ _ hj]
      exact h.party j
  · rw [count_set, h.count_eq]
    refine congrArg Finset.card (Finset.filter_congr fun j _ => ?_)
    by_cases hj : j = i
    · subst hj
      rw [parties_set_same, hi]
      exact ⟨fun h => (nomatch h), fun h => (nomatch h)⟩
    · rw [parties_set_other _ _ _ hj]

/-- The parties that wait once `i` has arrived. -/
theorem filter_waiting_set (s : Meeting ι) (i : ι) (n : ℕ) :
    (Finset.univ.filter fun j => ((s.set i ⟨.waiting, n⟩).parties j).phase = .waiting) =
      insert i (Finset.univ.filter fun j => (s.parties j).phase = .waiting) := by
  ext j
  by_cases hj : j = i
  · subst hj
    simp
  · simp [parties_set_other _ _ _ hj, hj]

theorem Gathering.arrive (h : Gathering s) (hi : s.parties i = ⟨.settingUp [], 0⟩) :
    Gathering (s.arrive (Fintype.card ι) i) ∨ Dispersed (s.arrive (Fintype.card ι) i) := by
  have hnew : i ∉ Finset.univ.filter fun j => (s.parties j).phase = .waiting := by
    simp [hi]
  have hcard : ((Finset.univ.filter fun j =>
      ((s.set i ⟨.waiting, 1⟩).parties j).phase = .waiting)).card = s.count + 1 := by
    rw [filter_waiting_set, Finset.card_insert_of_notMem hnew, h.count_eq]
  by_cases hlast : s.count + 1 = Fintype.card ι
  · right
    intro j
    -- the count is the number of the parties, so every one of them is waiting
    have hall := Finset.eq_univ_of_card _ (hcard.trans hlast)
    have hmem : j ∈ Finset.univ.filter fun j =>
        ((s.set i ⟨.waiting, 1⟩).parties j).phase = .waiting := by
      rw [hall]
      exact Finset.mem_univ j
    have hj := (Finset.mem_filter.mp hmem).2
    have hparty : (s.set i ⟨.waiting, 1⟩).parties j = ⟨.waiting, 1⟩ := by
      by_cases hji : j = i
      · subst hji
        exact parties_set_same ..
      · rw [parties_set_other _ _ _ hji] at hj ⊢
        rcases h.party j with ⟨calls, hsetting, _⟩ | hwaiting
        · rw [hsetting] at hj
          cases hj
        · exact hwaiting
    refine Or.inl ?_
    simp only [Meeting.arrive, hi, count_set, hlast, if_true, Nat.zero_add, hparty, released]
  · left
    simp only [Meeting.arrive, hi, count_set, hlast, if_false, Nat.zero_add]
    constructor
    · intro j
      by_cases hj : j = i
      · subst hj
        exact Or.inr (parties_set_same ..)
      · have hsame := parties_set_other s i ⟨.waiting, 1⟩ hj
        rcases h.party j with ⟨calls, hsetting, hcalls⟩ | hwaiting
        · exact Or.inl ⟨calls, hsame.trans hsetting, hcalls⟩
        · exact Or.inr (hsame.trans hwaiting)
    · exact hcard.symm

omit [Fintype ι] in
theorem dispersed_step {n : ℕ} (h : Dispersed s) (hs : step n s i = some s') : Dispersed s' := by
  rcases h i with hi | hi
  · simp only [step, hi, Option.some.injEq] at hs
    subst hs
    intro j
    by_cases hj : j = i
    · subst hj
      exact Or.inr (parties_set_same ..)
    · rw [parties_set_other _ _ _ hj]
      exact h j
  · simp only [step, hi] at hs
    cases hs

theorem gathering_step (h : Gathering s) (hs : step (Fintype.card ι) s i = some s') :
    Gathering s' ∨ Dispersed s' := by
  rcases h.party i with ⟨calls, hi, hcalls⟩ | hi
  · cases calls with
    | nil =>
      simp only [step, hi, Option.some.injEq] at hs
      subst hs
      exact h.arrive hi
    | cons call calls =>
      have hcall : call = true := hcalls call (List.mem_cons_self ..)
      subst hcall
      simp only [step, hi, Option.some.injEq] at hs
      subst hs
      exact Or.inl (h.call hi fun c hc => hcalls c (List.mem_cons_of_mem _ hc))
  · simp only [step, hi] at hs
    cases hs

end Steps

/-- In every reachable state all are before the last arrival, or all are behind it. -/
theorem gathering_or_dispersed {calls : ι → List Bool} (h : ∀ i, ∀ call ∈ calls i, call = true)
    {s : Meeting ι} (hs : Reachable (step (Fintype.card ι)) (start calls) s) :
    Gathering s ∨ Dispersed s := by
  refine hs.invariant (I := fun s => Gathering s ∨ Dispersed s) ?_ (Or.inl (gathering_start h))
  rintro s i s' (hgather | hdisperse) hstep
  · exact gathering_step hgather hstep
  · exact Or.inr (dispersed_step hdisperse hstep)

omit [DecidableEq ι] in
theorem Gathering.not_returned {s : Meeting ι} (h : Gathering s) (i : ι) :
    (s.parties i).phase ≠ .returned := by
  rcases h.party i with ⟨calls, hi, _⟩ | hi
  · rw [hi]
    exact fun hphase => nomatch hphase
  · rw [hi]
    exact fun hphase => nomatch hphase

/-- **All parties arrive exactly once before they return, and none is left waiting for
    one that has not, if and only if no chain of calls fails.** -/
theorem meeting_iff (calls : ι → List Bool) :
    (∀ s, Reachable (step (Fintype.card ι)) (start calls) s → s.ArrivedOnce ∧ ¬ s.Stranded) ↔
      ∀ i, ∀ call ∈ calls i, call = true := by
  constructor
  · intro hall i call hcall
    by_contra hfail
    rw [Bool.not_eq_true] at hfail
    subst hfail
    obtain ⟨s, hs, hi⟩ := exists_returned (Fintype.card ι) (calls i) (start calls) rfl hcall
    have honce := (hall s hs).1 i (by rw [hi])
    rw [hi] at honce
    cases honce
  · intro h s hs
    rcases gathering_or_dispersed h hs with hgather | hdisperse
    · exact ⟨fun i hi => absurd hi (hgather.not_returned i),
        fun ⟨i, _, hi, _⟩ => hgather.not_returned i hi⟩
    · have honce : ∀ i, (s.parties i).arrivals = 1 := by
        intro i
        rcases hdisperse i with hi | hi
        · rw [hi]
        · rw [hi]
      refine ⟨fun i _ => honce i, ?_⟩
      rintro ⟨i, _, _, hnever, _⟩
      rw [honce i] at hnever
      cases hnever

/-! ### A party that has not come yet -/

/-- `absent` has not begun.  Who has returned had a call that failed, and who waits has
    none. -/
structure Assembling (calls : ι → List Bool) (absent : ι) (s : Meeting ι) : Prop where
  absent_begins : s.parties absent = ⟨.settingUp (calls absent), 0⟩
  party : ∀ i,
    (∃ rest, s.parties i = ⟨.settingUp rest, 0⟩ ∧ (false ∈ rest ↔ false ∈ calls i)) ∨
      (s.parties i = ⟨.waiting, 1⟩ ∧ false ∉ calls i) ∨
      (s.parties i = ⟨.returned, 0⟩ ∧ false ∈ calls i)
  count_eq : s.count = (Finset.univ.filter fun i => (s.parties i).phase = .waiting).card

section Absent

variable {calls : ι → List Bool} {absent : ι} {s s' : Meeting ι} {i : ι}

omit [DecidableEq ι] in
theorem assembling_start (calls : ι → List Bool) (absent : ι) :
    Assembling calls absent (start calls) := by
  refine ⟨rfl, fun i => Or.inl ⟨calls i, rfl, Iff.rfl⟩, ?_⟩
  simp [start]

/-- The others wait for the one that is absent, whatever the barrier counts. -/
theorem Assembling.count_lt (h : Assembling calls absent s) (hne : i ≠ absent)
    (hi : (s.parties i).phase ≠ .waiting) : s.count + 1 < Fintype.card ι := by
  have hsubset : insert absent (insert i (Finset.univ.filter fun j =>
      (s.parties j).phase = .waiting)) ⊆ Finset.univ := Finset.subset_univ _
  have habsent : absent ∉ insert i (Finset.univ.filter fun j =>
      (s.parties j).phase = .waiting) := by
    simp [hne.symm, h.absent_begins]
  have hcard := Finset.card_le_card hsubset
  rw [Finset.card_insert_of_notMem habsent,
    Finset.card_insert_of_notMem (by simpa using hi), ← h.count_eq, Finset.card_univ] at hcard
  exact hcard

/-- A party other than the absent one goes on. -/
theorem Assembling.set (h : Assembling calls absent s) (hne : i ≠ absent) {p : Party}
    {count : ℕ}
    (hp : (∃ rest, p = ⟨.settingUp rest, 0⟩ ∧ (false ∈ rest ↔ false ∈ calls i)) ∨
      (p = ⟨.waiting, 1⟩ ∧ false ∉ calls i) ∨ (p = ⟨.returned, 0⟩ ∧ false ∈ calls i))
    (hcount : count =
      (Finset.univ.filter fun j => ((s.set i p).parties j).phase = .waiting).card) :
    Assembling calls absent { s.set i p with count := count } := by
  refine ⟨?_, ?_, hcount⟩
  · apply Eq.trans _ h.absent_begins
    exact parties_set_other s i p hne.symm
  · intro j
    by_cases hj : j = i
    · subst hj
      simpa only [parties_set_same] using hp
    · simpa only [parties_set_other _ _ _ hj] using h.party j

/-- The parties that wait are the same when one of the others does something else. -/
theorem filter_waiting_set_of_not {p : Party} (hi : (s.parties i).phase ≠ .waiting)
    (hp : p.phase ≠ .waiting) :
    (Finset.univ.filter fun j => ((s.set i p).parties j).phase = .waiting) =
      Finset.univ.filter fun j => (s.parties j).phase = .waiting := by
  refine Finset.filter_congr fun j _ => ?_
  by_cases hj : j = i
  · subst hj
    rw [parties_set_same]
    exact iff_of_false hp hi
  · rw [parties_set_other _ _ _ hj]

theorem assembling_step (h : Assembling calls absent s) (hne : i ≠ absent)
    (hs : step (Fintype.card ι) s i = some s') : Assembling calls absent s' := by
  rcases h.party i with ⟨rest, hi, hrest⟩ | ⟨hi, -⟩ | ⟨hi, -⟩
  · have hout : (s.parties i).phase ≠ .waiting := by
      rw [hi]
      exact fun hphase => nomatch hphase
    match rest, hrest with
    | [], hrest =>
      simp only [step, hi, Option.some.injEq] at hs
      subst hs
      have hlt := h.count_lt hne hout
      simp only [arrive, hi, count_set, if_neg (Nat.ne_of_lt hlt), Nat.zero_add]
      apply h.set hne (Or.inr (Or.inl ⟨rfl, fun hfalse => ?_⟩))
      · rw [filter_waiting_set, Finset.card_insert_of_notMem (by simpa using hout), h.count_eq]
      · exact List.not_mem_nil (hrest.mpr hfalse)
    | true :: rest, hrest =>
      simp only [step, hi, Option.some.injEq] at hs
      subst hs
      apply h.set hne (Or.inl ⟨rest, rfl, by simpa using hrest⟩)
      rw [filter_waiting_set_of_not hout]
      · exact h.count_eq
      · intro hphase
        cases hphase
    | false :: rest, hrest =>
      simp only [step, hi, Option.some.injEq] at hs
      subst hs
      apply h.set hne (Or.inr (Or.inr ⟨rfl, hrest.mp (List.mem_cons_self ..)⟩))
      rw [filter_waiting_set_of_not hout]
      · exact h.count_eq
      · intro hphase
        cases hphase
  · simp only [step, hi] at hs
    cases hs
  · simp only [step, hi] at hs
    cases hs

omit [DecidableEq ι] in
/-- **While a party is absent, one that returns has a call that fails.** -/
theorem Assembling.fails (h : Assembling calls absent s) (hi : (s.parties i).phase = .returned) :
    false ∈ calls i := by
  rcases h.party i with ⟨rest, hi', -⟩ | ⟨hi', -⟩ | ⟨-, hfalse⟩
  · rw [hi'] at hi
    cases hi
  · rw [hi'] at hi
    cases hi
  · exact hfalse

/-- One whose calls are not all good can always go on until it has returned. -/
theorem Assembling.exists_returned (h : Assembling calls absent s) (hfalse : false ∈ calls i) :
    ∃ n s', run (step (Fintype.card ι)) s (List.replicate n i) = some s' ∧
      (s'.parties i).phase = .returned := by
  rcases h.party i with ⟨rest, hi, hrest⟩ | ⟨-, hnone⟩ | ⟨hi, -⟩
  · replace hfalse := hrest.mpr hfalse
    clear hrest h
    induction rest generalizing s with
    | nil => exact absurd hfalse List.not_mem_nil
    | cons call rest ih =>
      cases call with
      | false =>
        refine ⟨1, s.set i ⟨.returned, 0⟩, ?_, by rw [parties_set_same]⟩
        simp only [List.replicate_one, run, step, hi]
      | true =>
        have hstep : step (Fintype.card ι) s i = some (s.set i ⟨.settingUp rest, 0⟩) := by
          simp only [step, hi]
        obtain ⟨n, s', hrun, hs'⟩ := ih (parties_set_same ..) (by simpa using hfalse)
        refine ⟨n + 1, s', ?_, hs'⟩
        rw [List.replicate_succ, run_cons_of_step hstep]
        exact hrun
  · exact absurd hfalse hnone
  · exact ⟨0, s, rfl, by rw [hi]⟩

end Absent

end Meeting

end Lmalloc.Library
