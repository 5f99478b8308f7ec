/-
  Lmalloc/Library/Run.lean
  ========================
  **Runs of a machine with a partial step function.**

  A machine is a function `step : σ → α → Option σ`: the label `a : α` carries
  every choice the environment makes, and `step s a = none` says that `a` cannot
  be taken in `s` (it blocks, or its behaviour is undefined).  A run is a list of
  labels.  Three things are said about runs here:

    * `run`        — the state a run ends in;
    * `Along`      — a relation between state and label holds at every step taken;
    * `Throughout` — a predicate holds in every state visited, first and last
                     included.

  An invariant is proved once for a single step and lifted to runs by
  `run_invariant`, or by `throughout_of_along` when the step needs a side
  condition that only some runs meet.

  The second half is about machines that answer each request with an output.
  `trace_eq_outputs` is the induction behind every "same answers" theorem: a
  machine that simulates a specification step by step answers every list of
  requests as the specification does.
-/
import Mathlib.Data.List.Basic

namespace Lmalloc.Library

/-! ### Runs of a labelled machine -/

section Runs

variable {σ α : Type*} (step : σ → α → Option σ)

def run : σ → List α → Option σ
  | s, [] => some s
  | s, a :: as =>
      match step s a with
      | some s' => run s' as
      | none => none

/-- Some run leads from `s₀` to `s`. -/
def Reachable (s₀ s : σ) : Prop := ∃ as, run step s₀ as = some s

/-- `P` relates state and label at every step the run takes. -/
def Along (P : σ → α → Prop) : σ → List α → Prop
  | _, [] => True
  | s, a :: as => P s a ∧ ∀ s', step s a = some s' → Along P s' as

instance decidableAlong {P : σ → α → Prop} [hP : ∀ s a, Decidable (P s a)] :
    ∀ s as, Decidable (Along step P s as)
  | _, [] => isTrue trivial
  | s, a :: as =>
      match hs : step s a with
      | none => decidable_of_iff (P s a) (by simp [Along, hs])
      | some s' =>
          match hP s a, decidableAlong s' as with
          | isTrue ha, isTrue has => isTrue ⟨ha, by simpa [hs] using has⟩
          | isFalse ha, _ => isFalse fun h => ha h.1
          | _, isFalse has => isFalse fun h => has (h.2 s' hs)

/-- `Q` holds in every state the run visits. -/
def Throughout (Q : σ → Prop) : σ → List α → Prop
  | s, [] => Q s
  | s, a :: as => Q s ∧ ∀ s', step s a = some s' → Throughout Q s' as

variable {step}

@[simp] theorem run_nil (s : σ) : run step s [] = some s := rfl

theorem run_cons_of_step {s s' : σ} {a : α} (h : step s a = some s') (as : List α) :
    run step s (a :: as) = run step s' as := by
  simp only [run, h]

theorem run_cons_eq_some {s t : σ} {a : α} {as : List α} :
    run step s (a :: as) = some t ↔ ∃ s', step s a = some s' ∧ run step s' as = some t := by
  simp only [run]
  rcases step s a with _ | s'
  · simp
  · simp

theorem run_append {s t : σ} {as : List α} (h : run step s as = some t) (bs : List α) :
    run step s (as ++ bs) = run step t bs := by
  induction as generalizing s with
  | nil =>
    simp only [run_nil, Option.some.injEq] at h
    rw [List.nil_append, h]
  | cons a as ih =>
    obtain ⟨s', hs', ht⟩ := run_cons_eq_some.mp h
    rw [List.cons_append, run_cons_of_step hs', ih ht]

theorem Reachable.refl (s : σ) : Reachable step s s := ⟨[], rfl⟩

theorem Reachable.trans {s t u : σ} (hst : Reachable step s t) (htu : Reachable step t u) :
    Reachable step s u := by
  obtain ⟨as, has⟩ := hst
  obtain ⟨bs, hbs⟩ := htu
  exact ⟨as ++ bs, by rw [run_append has, hbs]⟩

theorem Along.imp {P Q : σ → α → Prop} (h : ∀ s a, P s a → Q s a) {s : σ} {as : List α}
    (hP : Along step P s as) : Along step Q s as := by
  induction as generalizing s with
  | nil => exact trivial
  | cons a as ih => exact ⟨h s a hP.1, fun s' hs' => ih (hP.2 s' hs')⟩

theorem Along.and {P Q : σ → α → Prop} {s : σ} {as : List α} (hP : Along step P s as)
    (hQ : Along step Q s as) : Along step (fun s a => P s a ∧ Q s a) s as := by
  induction as generalizing s with
  | nil => exact trivial
  | cons a as ih =>
    exact ⟨⟨hP.1, hQ.1⟩, fun s' hs' => ih (hP.2 s' hs') (hQ.2 s' hs')⟩

theorem along_true (s : σ) (as : List α) : Along step (fun _ _ => True) s as := by
  induction as generalizing s with
  | nil => exact trivial
  | cons a as ih => exact ⟨trivial, fun s' _ => ih s'⟩

theorem along_of_forall_mem {P : α → Prop} {s : σ} {as : List α} (h : ∀ a ∈ as, P a) :
    Along step (fun _ a => P a) s as := by
  induction as generalizing s with
  | nil => exact trivial
  | cons a as ih =>
    rw [List.forall_mem_cons] at h
    exact ⟨h.1, fun s' _ => ih h.2⟩

/-- **Invariant rule.**  What every step preserves holds wherever a run ends. -/
theorem run_invariant {I : σ → Prop} (hstep : ∀ s a s', I s → step s a = some s' → I s')
    {s t : σ} {as : List α} (hs : I s) (h : run step s as = some t) : I t := by
  induction as generalizing s with
  | nil =>
    simp only [run_nil, Option.some.injEq] at h
    exact h ▸ hs
  | cons a as ih =>
    obtain ⟨s', hs', ht⟩ := run_cons_eq_some.mp h
    exact ih (hstep s a s' hs hs') ht

theorem Reachable.invariant {I : σ → Prop}
    (hstep : ∀ s a s', I s → step s a = some s' → I s') {s t : σ} (hs : I s)
    (h : Reachable step s t) : I t := by
  obtain ⟨as, has⟩ := h
  exact run_invariant hstep hs has

theorem Throughout.head {Q : σ → Prop} {s : σ} {as : List α} (h : Throughout step Q s as) :
    Q s := by
  cases as with
  | nil => exact h
  | cons a as => exact h.1

/-- **Conditional invariant rule.**  An invariant that is preserved by the steps
    meeting `P`, and that implies `Q`, makes `Q` hold throughout every run whose
    steps all meet `P`. -/
theorem throughout_of_along {P : σ → α → Prop} {I Q : σ → Prop}
    (hstep : ∀ s a s', I s → P s a → step s a = some s' → I s') (hQ : ∀ s, I s → Q s)
    {s : σ} {as : List α} (hs : I s) (hP : Along step P s as) : Throughout step Q s as := by
  induction as generalizing s with
  | nil => exact hQ s hs
  | cons a as ih =>
    refine ⟨hQ s hs, ?_⟩
    intro s' hs'
    exact ih (hstep s a s' hs hP.1 hs') (hP.2 s' hs')

/-- **Progress rule.**  If an invariant makes every step meeting `P` possible, and
    survives it, a run whose steps all meet `P` goes to its end. -/
theorem run_isSome_of_along {P : σ → α → Prop} {I : σ → Prop}
    (hstep : ∀ s a, I s → P s a → ∃ s', step s a = some s' ∧ I s') {s : σ} {as : List α}
    (hs : I s) (hP : Along step P s as) : (run step s as).isSome := by
  induction as generalizing s with
  | nil => rfl
  | cons a as ih =>
    obtain ⟨s', hs', hI⟩ := hstep s a hs hP.1
    rw [run_cons_of_step hs']
    exact ih hI (hP.2 s' hs')

/-- Under the invariant, the steps that meet `P` meet `Q`. -/
theorem along_of_along {P Q : σ → α → Prop} {I : σ → Prop}
    (hstep : ∀ s a s', I s → P s a → step s a = some s' → I s')
    (hPQ : ∀ s a, I s → P s a → Q s a) {s : σ} {as : List α} (hs : I s)
    (hP : Along step P s as) : Along step Q s as := by
  induction as generalizing s with
  | nil => exact trivial
  | cons a as ih =>
    exact ⟨hPQ s a hs hP.1, fun s' hs' => ih (hstep s a s' hs hP.1 hs') (hP.2 s' hs')⟩

/-- The converse rule: if every step that fails `P` leads out of `Q`, a run that
    stays in `Q` takes no such step, so the invariant need only survive the steps
    that meet `P`. -/
theorem along_of_stays_while {P : σ → α → Prop} {I Q : σ → Prop}
    (hstep : ∀ s a s', I s → P s a → step s a = some s' → I s')
    (hbad : ∀ s a, I s → Q s → ¬ P s a → ∃ s', step s a = some s' ∧ ¬ Q s')
    {s : σ} {as : List α} (hs : I s) (hQ : Throughout step Q s as) : Along step P s as := by
  induction as generalizing s with
  | nil => exact trivial
  | cons a as ih =>
    have hP : P s a := by
      by_contra hP
      obtain ⟨s', hs', hout⟩ := hbad s a hs hQ.1 hP
      exact hout (hQ.2 s' hs').head
    exact ⟨hP, fun s' hs' => ih (hstep s a s' hs hP hs') (hQ.2 s' hs')⟩

theorem along_of_stays {P : σ → α → Prop} {I Q : σ → Prop}
    (hstep : ∀ s a s', I s → step s a = some s' → I s')
    (hbad : ∀ s a, I s → Q s → ¬ P s a → ∃ s', step s a = some s' ∧ ¬ Q s')
    {s : σ} {as : List α} (hs : I s) (hQ : Throughout step Q s as) : Along step P s as :=
  along_of_stays_while (fun s a s' hI _ hs' => hstep s a s' hI hs') hbad hs hQ

theorem along_of_throughout {P : σ → α → Prop} {I Q : σ → Prop}
    (hstep : ∀ s a s', I s → step s a = some s' → I s')
    (hbad : ∀ s a, I s → ¬ P s a → ∃ s', step s a = some s' ∧ ¬ Q s')
    {s : σ} {as : List α} (hs : I s) (hQ : Throughout step Q s as) : Along step P s as :=
  along_of_stays hstep (fun s a hI _ hP => hbad s a hI hP) hs hQ

theorem Throughout.last {Q : σ → Prop} {s t : σ} {as : List α} (h : Throughout step Q s as)
    (ht : run step s as = some t) : Q t := by
  induction as generalizing s with
  | nil =>
    simp only [run_nil, Option.some.injEq] at ht
    exact ht ▸ h
  | cons a as ih =>
    obtain ⟨s', hs', ht'⟩ := run_cons_eq_some.mp ht
    exact ih (h.2 s' hs') ht'

/-- Two step relations that agree wherever an invariant holds agree along every
    run that starts inside the invariant, if the steps that meet them keep it. -/
theorem along_congr_while {P Q : σ → α → Prop} {I : σ → Prop}
    (hstep : ∀ s a s', I s → P s a → step s a = some s' → I s')
    (hPQ : ∀ s a, I s → (P s a ↔ Q s a)) {s : σ} {as : List α} (hs : I s) :
    Along step P s as ↔ Along step Q s as := by
  induction as generalizing s with
  | nil => exact Iff.rfl
  | cons a as ih =>
    simp only [Along]
    constructor
    · rintro ⟨hP, hrest⟩
      refine ⟨(hPQ s a hs).mp hP, ?_⟩
      intro s' hs'
      exact (ih (hstep s a s' hs hP hs')).mp (hrest s' hs')
    · rintro ⟨hQ, hrest⟩
      have hP := (hPQ s a hs).mpr hQ
      refine ⟨hP, ?_⟩
      intro s' hs'
      exact (ih (hstep s a s' hs hP hs')).mpr (hrest s' hs')

theorem along_congr {P Q : σ → α → Prop} {I : σ → Prop}
    (hstep : ∀ s a s', I s → step s a = some s' → I s')
    (hPQ : ∀ s a, I s → (P s a ↔ Q s a)) {s : σ} {as : List α} (hs : I s) :
    Along step P s as ↔ Along step Q s as :=
  along_congr_while (fun s a s' hI _ => hstep s a s' hI) hPQ hs

theorem along_append {P : σ → α → Prop} {s : σ} {as bs : List α} :
    Along step P s (as ++ bs) ↔
      Along step P s as ∧ ∀ t, run step s as = some t → Along step P t bs := by
  induction as generalizing s with
  | nil => simp [Along]
  | cons a as ih =>
    simp only [List.cons_append, Along, ih]
    constructor
    · rintro ⟨ha, hrest⟩
      refine ⟨⟨ha, fun s' hs' => (hrest s' hs').1⟩, ?_⟩
      intro t ht
      obtain ⟨s', hs', ht'⟩ := run_cons_eq_some.mp ht
      exact (hrest s' hs').2 t ht'
    · rintro ⟨⟨ha, hrest⟩, hlast⟩
      refine ⟨ha, fun s' hs' => ⟨hrest s' hs', ?_⟩⟩
      intro t ht
      exact hlast t ((run_cons_of_step hs' as).trans ht)

/-- A run that breaks a relation does so at a first step. -/
theorem exists_of_not_along {P : σ → α → Prop} {s : σ} {as : List α}
    (h : ¬ Along step P s as) :
    ∃ before a after t, as = before ++ a :: after ∧ Along step P s before ∧
      run step s before = some t ∧ ¬ P t a := by
  induction as generalizing s with
  | nil => exact absurd trivial h
  | cons a as ih =>
    by_cases ha : P s a
    · obtain ⟨s', hs', hrest⟩ : ∃ s', step s a = some s' ∧ ¬ Along step P s' as := by
        by_contra hall
        simp only [not_exists, not_and, not_not] at hall
        exact h ⟨ha, hall⟩
      obtain ⟨before, b, after, t, rfl, hbefore, ht, hb⟩ := ih hrest
      refine ⟨a :: before, b, after, t, rfl, ⟨ha, fun s'' hs'' => ?_⟩,
        (run_cons_of_step hs' before).trans ht, hb⟩
      obtain rfl := Option.some.inj (hs'.symm.trans hs'')
      exact hbefore
    · exact ⟨[], a, as, s, rfl, trivial, rfl, ha⟩

end Runs

/-! ### Machines with answers -/

section Answers

variable {σ τ ι ο : Type*}

/-- The answers a partial machine gives to a list of requests. -/
def trace (step : σ → ι → Option (ο × σ)) : σ → List ι → Option (List ο)
  | _, [] => some []
  | s, i :: is =>
      match step s i with
      | some (o, s') => (trace step s' is).map (o :: ·)
      | none => none

/-- The answers a total machine gives to a list of requests. -/
def outputs (spec : τ → ι → ο × τ) : τ → List ι → List ο
  | _, [] => []
  | t, i :: is => (spec t i).1 :: outputs spec (spec t i).2 is

/-- **Simulation.**  If `step` answers each admissible request as `spec` does and
    keeps the relation `R`, it answers every admissible list as `spec` does. -/
theorem trace_eq_outputs {step : σ → ι → Option (ο × σ)} {spec : τ → ι → ο × τ}
    {R : σ → τ → Prop} {Ok : ι → Prop}
    (hstep : ∀ s t i, R s t → Ok i →
      ∃ s', step s i = some ((spec t i).1, s') ∧ R s' (spec t i).2)
    {s : σ} {t : τ} (hR : R s t) {is : List ι} (hok : ∀ i ∈ is, Ok i) :
    trace step s is = some (outputs spec t is) := by
  induction is generalizing s t with
  | nil => rfl
  | cons i is ih =>
    obtain ⟨s', hs', hR'⟩ := hstep s t i hR (hok i List.mem_cons_self)
    have hrest := ih hR' (fun j hj => hok j (List.mem_cons_of_mem i hj))
    simp only [trace, hs', hrest, outputs, Option.map_some]

end Answers

end Lmalloc.Library
