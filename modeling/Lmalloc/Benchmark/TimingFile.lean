/-
  Lmalloc/Benchmark/TimingFile.lean
  =================================
  **The timing files, as the benchmark writes them and the analysis reads them.**

  `write_alloc_timing_data_to_file` writes three objects, each with one `fwrite`:
  the two words of `tstats`, the word `tcoll.cur`, and as many words of `tcoll.arr`.
  They are words of the host, which is little-endian.  `parse_timing_data` reads the
  file back with `struct.unpack`; both analysis scripts have a copy of it, and of
  `load_aggregate_timing_data`, which adds up the files of a directory.

  Whether the file can be opened and what each `fwrite` does are arguments.  The
  integers of the scripts are unbounded.
-/
import Lmalloc.Benchmark.EachSize
import Lmalloc.Library.Bytes

namespace Lmalloc.Benchmark

open Lmalloc.Library.Bytes

/-! ### Writing a file -/

/-- How many bytes the stream takes, and `errno` after the call. -/
structure Fwrite where
  taken : ℕ
  errno : Int

structure FileIo where
  opened : Bool
  fwrite : ℕ → Fwrite     -- the calls in their order

/-- 64-bit words in the memory of the host. -/
def wordBytes (words : List UInt64) : List UInt8 := words.flatMap fun w => toLE 8 w.toNat

/-- `fwrite(buf, size, 1, file)`: how many objects were written, and the file.  An object
    without bytes does not count. -/
def fwriteOne (buf file : List UInt8) (w : Fwrite) : ℕ × List UInt8 :=
  (if buf ≠ [] ∧ buf.length ≤ w.taken then 1 else 0, file ++ buf.take w.taken)

def lmWriteBytesToFile (buf file : List UInt8) (w : Fwrite) : Int × List UInt8 :=
  let r := fwriteOne buf file w
  (if r.1 = 1 then 0 else -w.errno, r.2)

/-- The third object is `tcoll.cur * sizeof(uint64_t)` bytes at `tcoll.arr`. -/
def arrSize (s : Process σ) : UInt64 := s.tcoll.cur * 8

/-- `write_alloc_timing_data_to_file`: the return value and the file.  A stream that could not
    be opened and a read past the array are undefined. -/
def writeAllocTimingDataToFile (s : Process σ) (io : FileIo) : Option (Int × List UInt8) :=
  if io.opened = false then none
  else
    let r := lmWriteBytesToFile (wordBytes [s.tstats.totalTsc, s.tstats.iter]) [] (io.fwrite 0)
    if r.1 ≠ 0 then some r
    else
      let r := lmWriteBytesToFile (wordBytes [s.tcoll.cur]) r.2 (io.fwrite 1)
      if r.1 ≠ 0 then some r
      else if (arrSize s).toNat ≤ (wordBytes s.timingArr).length then
        some (lmWriteBytesToFile ((wordBytes s.timingArr).take (arrSize s).toNat) r.2 (io.fwrite 2))
      else none

/-! ### Reading it back -/

structure AllocTimingStats where
  totalTsc : ℕ
  iter : ℕ
deriving DecidableEq, Repr

structure AllocTimingCollection where
  count : ℕ
  arr : List ℕ
deriving DecidableEq, Repr

/-- `struct.unpack('Q' * count, bytes)`, which raises unless it is given that many words. -/
def unpack : ℕ → List UInt8 → Option (List ℕ)
  | 0, bytes => if bytes = [] then some [] else none
  | count + 1, bytes =>
      if 8 ≤ bytes.length then (unpack count (bytes.drop 8)).map (ofLE (bytes.take 8) :: ·)
      else none

/-- `parse_timing_data`: what it returns and what is left of the file; `none` is an
    exception.  `read` returns what there is, up to the number of bytes asked for. -/
def parseTimingData (file : List UInt8) :
    Option ((AllocTimingStats × AllocTimingCollection) × List UInt8) := do
  let fields ← unpack 2 (file.take 16)
  let totalTsc ← fields[0]?
  let iter ← fields[1]?
  let file := file.drop 16
  let counts ← unpack 1 (file.take 8)
  let count ← counts[0]?
  let file := file.drop 8
  let arr ← unpack count (file.take (count * 8))
  some ((⟨totalTsc, iter⟩, ⟨count, arr⟩), file.drop (count * 8))

def loadTimingData (file : List UInt8) : Option (AllocTimingStats × AllocTimingCollection) :=
  (parseTimingData file).map Prod.fst

/-- The body of the loop; a file that raises an exception is passed over. -/
def addRunFile (acc : AllocTimingStats × List ℕ) (file : List UInt8) :
    AllocTimingStats × List ℕ :=
  match loadTimingData file with
  | some (stats, collection) =>
      (⟨acc.1.totalTsc + stats.totalTsc, acc.1.iter + stats.iter⟩, acc.2 ++ collection.arr)
  | none => acc

/-- `load_aggregate_timing_data` of the files that `glob` finds, each with its number. -/
def loadAggregateTimingData (runFiles : List (ℕ × List UInt8)) : AllocTimingStats × List ℕ × ℕ :=
  let sorted := runFiles.insertionSort fun a b => a.1 ≤ b.1
  let r := (sorted.map Prod.snd).foldl addRunFile (⟨0, 0⟩, [])
  (r.1, r.2, runFiles.length)

/-! ### What is written -/

section Write

variable {s : Process σ} {io : FileIo}

@[simp] theorem length_wordBytes (words : List UInt64) :
    (wordBytes words).length = 8 * words.length := by
  induction words with
  | nil => rfl
  | cons w words ih =>
    rw [wordBytes, List.flatMap_cons, List.length_append, length_toLE, List.length_cons]
    rw [wordBytes] at ih
    omega

theorem wordBytes_cons (w : UInt64) (words : List UInt64) :
    wordBytes (w :: words) = toLE 8 w.toNat ++ wordBytes words := rfl

theorem wordBytes_append (words words' : List UInt64) :
    wordBytes (words ++ words') = wordBytes words ++ wordBytes words' :=
  List.flatMap_append

/-- The first words are the first bytes. -/
theorem take_wordBytes (words : List UInt64) {n : ℕ} (hn : n ≤ words.length) :
    (wordBytes words).take (8 * n) = wordBytes (words.take n) := by
  have hlength : (wordBytes (words.take n)).length = 8 * n := by
    rw [length_wordBytes, List.length_take, Nat.min_eq_left hn]
  calc (wordBytes words).take (8 * n)
      = (wordBytes (words.take n) ++ wordBytes (words.drop n)).take (8 * n) := by
        rw [← wordBytes_append, List.take_append_drop]
    _ = wordBytes (words.take n) := List.take_left' hlength

/-- The stream takes all of the object. -/
theorem lmWriteBytesToFile_of_taken {buf file : List UInt8} {w : Fwrite} (hbuf : buf ≠ [])
    (hw : buf.length ≤ w.taken) : lmWriteBytesToFile buf file w = (0, file ++ buf) := by
  simp only [lmWriteBytesToFile, fwriteOne, hbuf, hw, ne_eq, not_false_eq_true, and_self, if_true,
    List.take_of_length_le]

theorem wordBytes_ne_nil {words : List UInt64} (h : words ≠ []) : wordBytes words ≠ [] := by
  intro hnil
  have hlength := length_wordBytes words
  rw [hnil, List.length_nil] at hlength
  have hpos := List.length_pos_of_ne_nil h
  omega

end Write

/-- The process when it writes its file: the collection has at least one time and lies in an
    array, an object of less than `2^64` bytes; the file opens, and every `fwrite` succeeds. -/
structure TimingRun (σ : Type*) where
  process : Process σ
  io : FileIo
  cur_pos : 0 < process.tcoll.cur.toNat
  cur_le : process.tcoll.cur.toNat ≤ process.timingArr.length
  arr_lt : 8 * process.timingArr.length < 2 ^ 64
  opened : io.opened = true
  tstats_taken : 16 ≤ (io.fwrite 0).taken
  cur_taken : 8 ≤ (io.fwrite 1).taken
  arr_taken : 8 * process.tcoll.cur.toNat ≤ (io.fwrite 2).taken

namespace TimingRun

/-- The collection. -/
def timings (r : TimingRun σ) : List UInt64 := r.process.timingArr.take r.process.tcoll.cur.toNat

/-- The words of the file. -/
def words (r : TimingRun σ) : List UInt64 :=
  [r.process.tstats.totalTsc, r.process.tstats.iter, r.process.tcoll.cur] ++ r.timings

/-- The file after the call. -/
def file (r : TimingRun σ) : List UInt8 :=
  ((writeAllocTimingDataToFile r.process r.io).getD (0, [])).2

variable (r : TimingRun σ)

@[simp] theorem length_timings : r.timings.length = r.process.tcoll.cur.toNat := by
  rw [timings, List.length_take, Nat.min_eq_left r.cur_le]

theorem toNat_arrSize : (arrSize r.process).toNat = 8 * r.process.tcoll.cur.toNat := by
  have hle := r.cur_le
  have hlt := r.arr_lt
  rw [arrSize, UInt64.toNat_mul, Nat.mul_comm]
  exact Nat.mod_eq_of_lt (by simp only [UInt64.reduceToNat]; omega)

/-- **The call succeeds, and the file holds the words of the header and of the collection.** -/
theorem write_eq : writeAllocTimingDataToFile r.process r.io = some (0, wordBytes r.words) := by
  have hcur := r.cur_le
  have hne : r.timings ≠ [] := by
    apply List.ne_nil_of_length_pos
    rw [length_timings]
    exact r.cur_pos
  have harr : (wordBytes r.process.timingArr).take (arrSize r.process).toNat =
      wordBytes r.timings := by
    rw [toNat_arrSize, take_wordBytes _ hcur, timings]
  have hin : (arrSize r.process).toNat ≤ (wordBytes r.process.timingArr).length := by
    rw [toNat_arrSize, length_wordBytes]
    exact Nat.mul_le_mul_left 8 hcur
  have htstats : lmWriteBytesToFile (wordBytes [r.process.tstats.totalTsc, r.process.tstats.iter])
      [] (r.io.fwrite 0) = (0, [] ++ wordBytes [r.process.tstats.totalTsc, r.process.tstats.iter]) :=
    lmWriteBytesToFile_of_taken (wordBytes_ne_nil (by simp)) (by simpa using r.tstats_taken)
  have hcount : ∀ file, lmWriteBytesToFile (wordBytes [r.process.tcoll.cur]) file (r.io.fwrite 1) =
      (0, file ++ wordBytes [r.process.tcoll.cur]) := fun file =>
    lmWriteBytesToFile_of_taken (wordBytes_ne_nil (by simp)) (by simpa using r.cur_taken)
  have htimes : ∀ file, lmWriteBytesToFile (wordBytes r.timings) file (r.io.fwrite 2) =
      (0, file ++ wordBytes r.timings) := fun file =>
    lmWriteBytesToFile_of_taken (wordBytes_ne_nil hne) (by simpa using r.arr_taken)
  simp only [writeAllocTimingDataToFile, r.opened, Bool.true_eq_false, if_false, htstats, hcount,
    ne_eq, not_true_eq_false, hin, if_true, harr, htimes]
  rw [List.nil_append, ← wordBytes_append, ← wordBytes_append]
  rfl

theorem file_eq : r.file = wordBytes r.words := by
  rw [file, write_eq, Option.getD_some]

/-- The record of a size holds what the file holds. -/
theorem arr_writeDataToFile (allocFn : AllocFn) (allocSize : UInt64) :
    (writeDataToFile allocFn allocSize r.process).arr = r.timings := by
  have hwords : (arrSize r.process / 8).toNat = r.process.tcoll.cur.toNat := by
    rw [UInt64.toNat_div, toNat_arrSize]
    exact Nat.mul_div_cancel_left _ (by decide)
  exact congrArg (fun n => r.process.timingArr.take n) hwords

end TimingRun

/-! ### Reading what was written -/

/-- **`unpack` inverts `wordBytes`.** -/
theorem unpack_wordBytes (words : List UInt64) :
    unpack words.length (wordBytes words) = some (words.map UInt64.toNat) := by
  induction words with
  | nil => rfl
  | cons w words ih =>
    have hlength : (toLE 8 w.toNat).length = 8 := length_toLE 8 w.toNat
    have hword : ofLE (toLE 8 w.toNat) = w.toNat := by
      rw [ofLE_toLE]
      exact Nat.mod_eq_of_lt w.toNat_lt
    have hroom : 8 ≤ (wordBytes (w :: words)).length := by
      rw [length_wordBytes, List.length_cons]
      omega
    rw [List.length_cons, unpack, if_pos hroom, wordBytes_cons, List.take_left' hlength,
      List.drop_left' hlength, ih, hword]
    rfl

/-- The words of the file before the place `n` and from there on. -/
theorem split_wordBytes (front back : List UInt64) {n : ℕ} (hn : n = 8 * front.length) :
    (wordBytes (front ++ back)).take n = wordBytes front ∧
      (wordBytes (front ++ back)).drop n = wordBytes back := by
  have hlength : (wordBytes front).length = n := by rw [length_wordBytes, hn]
  rw [wordBytes_append]
  exact ⟨List.take_left' hlength, List.drop_left' hlength⟩

namespace TimingRun

def stats (r : TimingRun σ) : AllocTimingStats :=
  ⟨r.process.tstats.totalTsc.toNat, r.process.tstats.iter.toNat⟩

def collection (r : TimingRun σ) : AllocTimingCollection :=
  ⟨r.process.tcoll.cur.toNat, r.timings.map UInt64.toNat⟩

variable (r : TimingRun σ)

/-- **A file parses to what was written, with nothing left.** -/
theorem parse_file : parseTimingData r.file = some ((r.stats, r.collection), []) := by
  obtain ⟨htstats, hrest⟩ := split_wordBytes
    [r.process.tstats.totalTsc, r.process.tstats.iter] (r.process.tcoll.cur :: r.timings)
    (n := 16) rfl
  obtain ⟨hcur, htimes⟩ := split_wordBytes [r.process.tcoll.cur] r.timings (n := 8) rfl
  have hlength : (wordBytes r.timings).length = r.process.tcoll.cur.toNat * 8 := by
    rw [length_wordBytes, length_timings, Nat.mul_comm]
  have hall := unpack_wordBytes r.timings
  rw [length_timings] at hall
  rw [List.singleton_append] at hcur htimes
  have hfile : r.file = wordBytes ([r.process.tstats.totalTsc, r.process.tstats.iter] ++
      r.process.tcoll.cur :: r.timings) := r.file_eq
  have hstats := unpack_wordBytes [r.process.tstats.totalTsc, r.process.tstats.iter]
  have hcount := unpack_wordBytes [r.process.tcoll.cur]
  simp only [List.length_cons, List.length_nil, Nat.zero_add, Nat.reduceAdd] at hstats hcount
  simp only [parseTimingData, hfile, htstats, hrest, hcur, htimes, hstats, hcount,
    Option.bind_eq_bind, Option.bind_some, List.map_cons, List.map_nil, List.getElem?_cons_zero,
    List.getElem?_cons_succ, List.take_of_length_le (Nat.le_of_eq hlength),
    List.drop_of_length_le (Nat.le_of_eq hlength), hall]
  rfl

/-- The sums of a list of runs, as unbounded integers. -/
def sums (rs : List (TimingRun σ)) : AllocTimingStats :=
  ⟨(rs.map fun r => r.stats.totalTsc).sum, (rs.map fun r => r.stats.iter).sum⟩

/-- The loop from any sums and timings on. -/
theorem foldl_addRunFile (rs : List (TimingRun σ)) (acc : AllocTimingStats × List ℕ) :
    (rs.map file).foldl addRunFile acc =
      (⟨acc.1.totalTsc + (sums rs).totalTsc, acc.1.iter + (sums rs).iter⟩,
        acc.2 ++ rs.flatMap fun r => r.collection.arr) := by
  induction rs generalizing acc with
  | nil => simp [sums]
  | cons r rs ih =>
    have hload : loadTimingData r.file = some (r.stats, r.collection) := by
      rw [loadTimingData, parse_file, Option.map_some]
    rw [List.map_cons, List.foldl_cons, ih, addRunFile, hload]
    simp only [sums, List.map_cons, List.sum_cons, List.flatMap_cons, List.append_assoc,
      Nat.add_assoc]

end TimingRun

/-- The runs of a directory in the order of their numbers. -/
def inOrder (dir : List (ℕ × TimingRun σ)) : List (TimingRun σ) :=
  (dir.insertionSort fun a b => a.1 ≤ b.1).map Prod.snd

/-- **The files of the benchmark come back as they were written**, each by itself and all of
    a directory together. -/
theorem timing_files_round_trip (r : TimingRun σ) (dir : List (ℕ × TimingRun σ)) :
    (∃ file, writeAllocTimingDataToFile r.process r.io = some (0, file) ∧
        parseTimingData file = some ((r.stats, r.collection), [])) ∧
      loadAggregateTimingData (dir.map fun run => (run.1, run.2.file)) =
        (TimingRun.sums (inOrder dir), (inOrder dir).flatMap fun r => r.collection.arr,
          dir.length) := by
  constructor
  · exact ⟨_, r.write_eq, r.file_eq ▸ r.parse_file⟩
  · have hsort : ((dir.map fun run => (run.1, run.2.file)).insertionSort
        fun a b => a.1 ≤ b.1).map Prod.snd = (inOrder dir).map TimingRun.file := by
      rw [← List.map_insertionSort (fun a b => a.1 ≤ b.1) _ _ _ fun _ _ _ _ => Iff.rfl,
        List.map_map, inOrder, List.map_map]
      rfl
    simp only [loadAggregateTimingData, hsort, TimingRun.foldl_addRunFile, List.length_map,
      Nat.zero_add, List.nil_append]

/-- Two files of a run with two times in an array of three, and one that is too short. -/
example : ∃ r : TimingRun Unit,
    loadAggregateTimingData [(2, r.file), (10, [1, 2]), (1, r.file)] =
      (⟨0x1fffffffffffffffe, 4⟩, [90, 300, 90, 300], 3) :=
  ⟨{ process :=
      { tstats := ⟨0xffffffffffffffff, 2⟩, tcoll := ⟨3, 2⟩, timingArr := [90, 300, 7], world := () }
     io := { opened := true, fwrite := fun _ => ⟨4096, 0⟩ }
     cur_pos := by decide
     cur_le := by decide
     arr_lt := by decide
     opened := rfl
     tstats_taken := by decide
     cur_taken := by decide
     arr_taken := by decide }, by decide⟩

end Lmalloc.Benchmark
