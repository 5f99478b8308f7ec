/-
  Lmalloc/Postgres/Sizing.lean
  ============================
  **The sizes that `PgPrepareCtx` stores in the pipe.**

  `ItemMaxCount` is the capacity of a buffer divided by the row size of the table.
  The row size is what the fresh table info holds plus the lengths of the columns
  that are in the data, modulo `2^64`; nothing looks at it before the division.
  A table without such columns divides by what the memory held, usually zero, and
  a row larger than a buffer leaves a pipe that takes no packet.
-/
import Lmalloc.Postgres.SqlText

namespace Lmalloc.Postgres

open Lmalloc.Library
open Lmalloc.Strings (Growing)

/-- `*RowSize` when `GetTableMetadata` returns. -/
def Answers.rowSize (a : Answers) : UInt64 :=
  a.oldRowSize +
    ((a.rows.filter (! isTrue ·.isAutoIncrement)).map fun row =>
      (atoi row.typeLength).toInt64.toUInt64).sum

/-- Whole packets fit into the pipe's buffers. -/
structure PipeSizes.Sized (sizes : PipeSizes) (bufCap : UInt64) : Prop where
  pos : 0 < sizes.packetSize
  packet_le : sizes.packetSize ≤ sizes.bufferMaxFill
  fill_le : sizes.bufferMaxFill ≤ bufCap
  whole : sizes.packetSize.toNat ∣ sizes.bufferMaxFill.toNat

/-- Either the call fails, or nothing is divided by zero and the pipe is sized. -/
structure SizesSafe (w : PgWorld) (arena : Bump) (pipe : PipeSizes) : Prop where
  noDivision : pgPrepareCtx w arena pipe ≠ .error (.trapped .divisionByZero)
  sized : ∀ st, pgPrepareCtx w arena pipe = .ok st → st.pipe.Sized w.bufCap

/-- If a round gets to the sizes, the row size is not zero. -/
def RowSizeNonzero (st : PgPrep) (s : Sensor) : Prop :=
  ∀ table, (prepareTable st s).result = .ok table → s.answers.rowSize ≠ 0

/-- The row of the last table fits into a buffer; without tables the pipe is sized already. -/
def LastFits (bufCap : UInt64) (pipe : PipeSizes) (sensors : List Sensor) : Prop :=
  match sensors.getLast? with
  | none => pipe.Sized bufCap
  | some s => s.answers.rowSize ≤ bufCap

/-! ### The row size -/

theorem rowSize_foldl (s : Layout) (rows : List CatalogRow) :
    (rows.foldl Layout.addColumn s).rowSize = s.rowSize +
      ((rows.filter (! isTrue ·.isAutoIncrement)).map fun row =>
        (atoi row.typeLength).toInt64.toUInt64).sum := by
  induction rows generalizing s with
  | nil => simp
  | cons row rows ih =>
    rw [List.foldl_cons, ih, Layout.addColumn]
    cases hauto : isTrue row.isAutoIncrement with
    | true => simp [hauto]
    | false => simp [hauto, UInt64.add_assoc]

theorem describeTable_rowSize {scratch arena : Bump} {tableName : Option Text} {a : Answers}
    {table : Described} (h : describeTable scratch arena tableName a = .ok table) :
    table.rowSize = a.rowSize := by
  obtain ⟨md, command, hmd, -, rfl⟩ := describeTable_ok h
  obtain ⟨-, -, -, hlayout⟩ := getMetadata_ok hmd
  exact (congrArg Layout.rowSize hlayout).trans (rowSize_foldl _ _)

/-- A round ends with an error of its own, or with what `describeTable` gives. -/
theorem prepareTable_result (st : PgPrep) (s : Sensor) :
    (∃ e, (prepareTable st s).result = .error e ∧ e ≠ .trapped .divisionByZero) ∨
      ∃ scratch arena tableName,
        (prepareTable st s).result = describeTable scratch arena tableName s.answers := by
  unfold prepareTable
  cases s.name with
  | none => exact Or.inl ⟨_, rfl, by decide⟩
  | some name =>
    cases arenaPush st.arena tableInfoSize with
    | none => exact Or.inl ⟨_, rfl, by decide⟩
    | some arena =>
      simp only
      by_cases htables : st.tablesInfo = false
      · rw [if_pos htables]
        exact Or.inl ⟨_, rfl, by decide⟩
      · rw [if_neg htables, creationQuery_eq]
        cases Growing.make st.scratch createStart with
        | none => exact Or.inl ⟨_, rfl, by decide⟩
        | some query =>
          cases dataAttributes (getObjectItem s.schema "data".toList) with
          | none => exact Or.inl ⟨_, rfl, by decide⟩
          | some attributes => exact Or.inr ⟨_, _, _, rfl⟩

theorem prepareTable_rowSize {st : PgPrep} {s : Sensor} {table : Described}
    (h : (prepareTable st s).result = .ok table) : table.rowSize = s.answers.rowSize := by
  rcases prepareTable_result st s with ⟨e, he, -⟩ | ⟨_, _, _, hdescribe⟩
  · rw [he] at h
    cases h
  · rw [hdescribe] at h
    exact describeTable_rowSize h

theorem prepareTable_ne_division (st : PgPrep) (s : Sensor) :
    (prepareTable st s).result ≠ .error (.trapped .divisionByZero) := by
  intro h
  rcases prepareTable_result st s with ⟨e, he, hne⟩ | ⟨_, _, _, hdescribe⟩
  · rw [he] at h
    exact hne (Except.error.inj h)
  · rw [hdescribe] at h
    rcases describeTable_error h with h | h | h
    · cases h
    · cases h
    · cases h

/-! ### One round -/

section Round

variable {bufCap : UInt64} {st : PgPrep} {s : Sensor}

/-- **The ways a round ends**: before the sizes, at a division by zero, or with the
    sizes of its row. -/
theorem prepareSensor_cases (bufCap : UInt64) (st : PgPrep) (s : Sensor) :
    (∃ e, (prepareTable st s).result = .error e ∧ e ≠ .trapped .divisionByZero ∧
        prepareSensor bufCap st s = .error e) ∨
      ∃ table, (prepareTable st s).result = .ok table ∧
        ((s.answers.rowSize = 0 ∧
            prepareSensor bufCap st s = .error (.trapped .divisionByZero)) ∨
          ∃ pipe, sizePipe bufCap s.answers.rowSize = some pipe ∧
            prepareSensor bufCap st s =
              .ok { st with scratch := table.scratch, arena := table.arena, pipe := pipe }) := by
  unfold prepareSensor
  cases hresult : (prepareTable st s).result with
  | error e =>
    have hne := prepareTable_ne_division st s
    rw [hresult] at hne
    exact Or.inl ⟨e, rfl, fun h => hne (congrArg _ h), rfl⟩
  | ok table =>
    refine Or.inr ⟨table, rfl, ?_⟩
    simp only [prepareTable_rowSize hresult]
    by_cases hzero : s.answers.rowSize = 0
    · rw [sizePipe, if_pos hzero]
      exact Or.inl ⟨hzero, rfl⟩
    · rw [sizePipe, if_neg hzero]
      exact Or.inr ⟨_, rfl, rfl⟩

/-- Dividing does what the claimed sizes need exactly if a row fits. -/
theorem sized_iff_of_sizePipe {rowSize : UInt64} {sizes : PipeSizes}
    (h : sizePipe bufCap rowSize = some sizes) : sizes.Sized bufCap ↔ rowSize ≤ bufCap := by
  rw [sizePipe] at h
  by_cases hzero : rowSize = 0
  · rw [if_pos hzero] at h
    cases h
  rw [if_neg hzero] at h
  cases h
  have hpos : 0 < rowSize.toNat := Nat.pos_of_ne_zero fun h => hzero (UInt64.toNat_inj.mp h)
  have hmul : rowSize.toNat * (bufCap.toNat / rowSize.toNat) ≤ bufCap.toNat :=
    Nat.mul_div_le _ _
  have hfill : (rowSize * (bufCap / rowSize)).toNat =
      rowSize.toNat * (bufCap.toNat / rowSize.toNat) := by
    rw [UInt64.toNat_mul, UInt64.toNat_div]
    exact Nat.mod_eq_of_lt (Nat.lt_of_le_of_lt hmul bufCap.toNat_lt)
  constructor
  · intro hsized
    exact UInt64.le_trans hsized.packet_le hsized.fill_le
  · intro hle
    have hdiv := Nat.div_pos (UInt64.le_iff_toNat_le.mp hle) hpos
    refine ⟨UInt64.lt_iff_toNat_lt.mpr hpos, ?_, ?_, ?_⟩
    · rw [UInt64.le_iff_toNat_le, hfill]
      exact Nat.le_mul_of_pos_right _ hdiv
    · rw [UInt64.le_iff_toNat_le, hfill]
      exact hmul
    · rw [hfill]
      exact Nat.dvd_mul_right _ _

end Round

/-! ### All rounds -/

section Rounds

variable {bufCap : UInt64}

theorem prepareStep_eq_some {st st' : PgPrep} {s : Sensor} :
    prepareStep bufCap st s = some st' ↔ prepareSensor bufCap st s = .ok st' := by
  rw [prepareStep]
  cases prepareSensor bufCap st s with
  | error e => exact iff_of_false (fun h => by cases h) fun h => by cases h
  | ok st₁ =>
    constructor
    · intro h
      exact congrArg _ (Option.some.inj h)
    · intro h
      exact congrArg _ (Except.ok.inj h)

/-- Nothing is divided by zero exactly if no round gets to the sizes with a row size of 0. -/
theorem prepareSensors_ne_division_iff (st : PgPrep) (sensors : List Sensor) :
    prepareSensors bufCap st sensors ≠ .error (.trapped .divisionByZero) ↔
      Along (prepareStep bufCap) RowSizeNonzero st sensors := by
  induction sensors generalizing st with
  | nil => exact iff_of_true (fun h => by cases h) trivial
  | cons s rest ih =>
    rw [prepareSensors, Along]
    rcases prepareSensor_cases bufCap st s with ⟨e, hresult, hne, hround⟩ | ⟨table, hresult, hround⟩
    · rw [hround]
      refine iff_of_true (fun h => hne (Except.error.inj h)) ⟨?_, ?_⟩
      · intro table htable
        rw [hresult] at htable
        cases htable
      · intro st' hst'
        rw [prepareStep_eq_some, hround] at hst'
        cases hst'
    · rcases hround with ⟨hzero, hround⟩ | ⟨pipe, hpipe, hround⟩
      · rw [hround]
        exact iff_of_false (fun h => h rfl) fun h => h.1 table hresult hzero
      · have hnonzero : RowSizeNonzero st s := by
          intro _ _ hzero
          rw [sizePipe, if_pos hzero] at hpipe
          cases hpipe
        rw [hround, and_iff_right hnonzero]
        simp only [ih]
        constructor
        · intro h st' hst'
          rw [prepareStep_eq_some, hround] at hst'
          cases hst'
          exact h
        · intro h
          exact h _ (prepareStep_eq_some.mpr hround)

/-- The pipe keeps the sizes of the last table. -/
theorem sized_iff_lastFits {st st' : PgPrep} {sensors : List Sensor}
    (h : prepareSensors bufCap st sensors = .ok st') :
    st'.pipe.Sized bufCap ↔ LastFits bufCap st.pipe sensors := by
  induction sensors generalizing st with
  | nil =>
    cases h
    exact Iff.rfl
  | cons s rest ih =>
    rw [prepareSensors] at h
    rcases prepareSensor_cases bufCap st s with ⟨e, -, -, hround⟩ | ⟨table, -, hround⟩
    · rw [hround] at h
      cases h
    · rcases hround with ⟨-, hround⟩ | ⟨pipe, hpipe, hround⟩
      · rw [hround] at h
        cases h
      · rw [hround] at h
        rw [ih h]
        cases rest with
        | nil => exact sized_iff_of_sizePipe hpipe
        | cons next rest =>
          rw [LastFits, LastFits, List.getLast?_cons_cons,
            List.getLast?_eq_some_getLast (List.cons_ne_nil _ _)]

/-- What comes before the loop divides nothing and leaves the pipe alone. -/
theorem loopStart_ne_division {w : PgWorld} {arena : Bump} {pipe : PipeSizes} {e : Exit}
    (h : loopStart w arena pipe = .error e) : e ≠ .trapped .divisionByZero := by
  rintro rfl
  unfold loopStart at h
  split at h
  · split at h
    · split at h
      · cases h
      · simp only at h
        split at h
        · cases h
        · cases h
    · cases h
  · cases h

theorem loopStart_pipe {w : PgWorld} {arena : Bump} {pipe : PipeSizes} {st : PgPrep}
    {sensors : List Sensor} (h : loopStart w arena pipe = .ok (st, sensors)) : st.pipe = pipe := by
  unfold loopStart at h
  split at h
  · split at h
    · split at h
      · cases h
      · simp only at h
        split at h
        · cases h
        · cases h
          rfl
    · cases h
  · cases h

/-- **The sizes are safe if and only if no round gets to them with a row size of 0,
    and the row of the last table fits into a buffer.** -/
theorem sizesSafe_iff (w : PgWorld) (arena : Bump) (pipe : PipeSizes) :
    SizesSafe w arena pipe ↔
      InEveryRound RowSizeNonzero w arena pipe ∧
        ∀ st sensors st', loopStart w arena pipe = .ok (st, sensors) →
          pgPrepareCtx w arena pipe = .ok st' → LastFits w.bufCap pipe sensors := by
  cases hstart : loopStart w arena pipe with
  | error e =>
    have hcall : pgPrepareCtx w arena pipe = .error e := by
      rw [pgPrepareCtx, hstart]
    refine iff_of_true ⟨?_, ?_⟩ ⟨?_, ?_⟩
    · rw [hcall]
      intro h
      exact loopStart_ne_division hstart (Except.error.inj h)
    · intro st hst
      rw [hcall] at hst
      cases hst
    · intro st sensors hok
      rw [hstart] at hok
      cases hok
    · intro st sensors st' hok
      cases hok
  | ok start =>
    obtain ⟨st, sensors⟩ := start
    have hcall : pgPrepareCtx w arena pipe = prepareSensors w.bufCap st sensors := by
      rw [pgPrepareCtx, hstart]
    have hpipe : st.pipe = pipe := loopStart_pipe hstart
    have hrounds := @prepareSensors_ne_division_iff w.bufCap st sensors
    constructor
    · rintro ⟨hdivision, hsized⟩
      rw [hcall] at hdivision
      refine ⟨?_, ?_⟩
      · intro st₁ sensors₁ hok
        rw [hstart] at hok
        cases hok
        exact hrounds.mp hdivision
      · rintro _ _ st' ⟨⟩ hst'
        have hlast := hsized st' hst'
        rw [hcall] at hst'
        rw [← hpipe]
        exact (sized_iff_lastFits hst').mp hlast
    · rintro ⟨hnonzero, hlast⟩
      refine ⟨?_, ?_⟩
      · rw [hcall]
        exact hrounds.mpr (hnonzero st sensors hstart)
      · intro st' hst'
        have hfits := hlast st sensors st' rfl hst'
        rw [hcall] at hst'
        rw [← hpipe] at hfits
        exact (sized_iff_lastFits hst').mpr hfits

end Rounds

/-! ### An empty data object, and a row of eight bytes -/

/-- How a call ends that does not return a context. -/
def exitOf : Except Exit PgPrep → Option Exit
  | .error e => some e
  | .ok _ => none

/-- The configuration with one sensor `t`, two large arenas and these columns. -/
def oneSensor (data : List (Text × Json)) (rows : List CatalogRow) (h : rows.length ≤ 1600)
    (bufCap : UInt64) : PgWorld where
  scratch := some ⟨4096, 0, Nat.zero_le _⟩
  schemaConf := some (.object [("sensors".toList, .array
    [.object [("name".toList, .string ['t']), ("data".toList, .object data)]])])
  connected := true
  answers := fun _ => ⟨.commandOk, .tuplesOk, rows, 0, h⟩
  bufCap := bufCap

/-- The serial key, which is auto-incrementing. -/
def idRow : CatalogRow := ⟨['i', 'd'], ['2', '3'], ['4'], ['-', '1'], ['t'], ['t']⟩

def int8Row : CatalogRow := ⟨['a'], ['2', '0'], ['8'], ['-', '1'], ['f'], ['f']⟩

def noAttributes : PgWorld := oneSensor [] [idRow] (by decide) 4096

def smallBuffers : PgWorld :=
  oneSensor [(['a'], .string "bigint".toList)] [idRow, int8Row] (by decide) 4

/-- A sensor without attributes divides by zero; a row larger than a buffer gives
    buffers for no packet. -/
theorem sizes_unsafe :
    ¬ SizesSafe noAttributes ⟨4096, 0, by decide⟩ ⟨0, 0, 0⟩ ∧
      ¬ SizesSafe smallBuffers ⟨4096, 0, by decide⟩ ⟨0, 0, 0⟩ := by
  constructor
  · intro h
    have hexit : exitOf (pgPrepareCtx noAttributes ⟨4096, 0, by decide⟩ ⟨0, 0, 0⟩) =
        some (.trapped .divisionByZero) := by
      decide +kernel
    cases hcall : pgPrepareCtx noAttributes ⟨4096, 0, by decide⟩ ⟨0, 0, 0⟩ with
    | ok st =>
      rw [hcall] at hexit
      cases hexit
    | error e =>
      rw [hcall] at hexit
      have he : e = .trapped .divisionByZero := Option.some.inj hexit
      rw [he] at hcall
      exact h.noDivision hcall
  · intro h
    have hsizes : (pgPrepareCtx smallBuffers ⟨4096, 0, by decide⟩ ⟨0, 0, 0⟩).toOption.map
        (·.pipe) = some ⟨8, 0, 0⟩ := by
      decide +kernel
    cases hcall : pgPrepareCtx smallBuffers ⟨4096, 0, by decide⟩ ⟨0, 0, 0⟩ with
    | error e =>
      rw [hcall] at hsizes
      cases hsizes
    | ok st =>
      have hfits := (h.sized st hcall).packet_le
      rw [hcall] at hsizes
      have hpipe : st.pipe = ⟨8, 0, 0⟩ := Option.some.inj hsizes
      rw [hpipe] at hfits
      exact absurd hfits (by decide)

end Lmalloc.Postgres
