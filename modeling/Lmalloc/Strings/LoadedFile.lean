/-
  Lmalloc/Strings/LoadedFile.lean
  ===============================
  **A file in memory, read as a C string.**

  `SdbLoadFileIntoMemory` takes one byte more than the file needs, and its callers
  hand the data to `cJSON_Parse`, `strtok` and `PQconnectdb`, which read up to a
  `NUL`.  Nothing writes that `NUL`.  `calloc` has left one; an arena gives out
  whatever its memory held before.
-/
import Lmalloc.Strings.Operations

namespace Lmalloc.Strings.LoadedFile

open Lmalloc.Library Lmalloc.Library.Word Lmalloc.Arena

/-! ### The function -/

/-- What the file system answers: to `fopen` and `fseek`, to `ftell` cast to `u64`, and the
    bytes that `fread` stores, no more than it is asked for. -/
structure File where
  opens : Bool
  seeks : Bool
  fileSize : UInt64
  bytes : List UInt8
  length_le : bytes.length ≤ fileSize.toNat

/-- `sizeof(sdb_file_data) + FileSize + 1`. -/
def File.fileDataSize (f : File) : UInt64 := 8 + f.fileSize + 1

/-- `FileData->Data`. -/
def data (fileData : Addr) : Addr := fileData + 8

/-- What a call leaves: its result, the arena it was given, memory. -/
structure Loaded where
  fileData : Option Addr
  arena : Option UArena
  memory : Memory

/-- The bytes for the file, from the arena or from `calloc`, which may return `NULL`. -/
def allocate (arena : Option UArena) (calloc : Option Addr) (size : UInt64) (m : Memory) : Loaded :=
  match arena with
  | some a => ⟨(uaAlloc a size).1, some (uaAlloc a size).2, m⟩
  | none =>
      match calloc with
      | some p => ⟨some p, none, m.fill ⟨p, size.toNat⟩ 0⟩
      | none => ⟨none, none, m⟩

def sdbLoadFileIntoMemory (arena : Option UArena) (calloc : Option Addr) (f : File) (m : Memory) :
    Loaded :=
  if f.opens = false ∨ f.seeks = false then ⟨none, arena, m⟩
  else
    let l := allocate arena calloc f.fileDataSize m
    match l.fileData with
    | none => l
    | some fileData =>
        let m := (l.memory.storeWord fileData f.fileSize).write (data fileData) f.bytes
        if f.bytes.length ≠ f.fileSize.toNat then
          ⟨none, l.arena.map fun a => uaPop a f.fileDataSize, m⟩
        else ⟨some fileData, l.arena, m⟩

/-! ### What is claimed -/

/-- A file that is read whole, without a `NUL` in it. -/
structure Holds (f : File) (content : List UInt8) : Prop where
  opens : f.opens = true
  seeks : f.seeks = true
  size_eq : f.fileSize.toNat = content.length
  bytes_eq : f.bytes = content
  nul_free : ∀ b ∈ content, b ≠ 0
  length_lt : content.length < 2 ^ 57

/-- The result is a C string of `Size` bytes with the content of the file. -/
def IsCString (content : List UInt8) (l : Loaded) : Prop :=
  ∃ p, l.fileData = some p ∧ (l.memory.loadWord p).toNat = content.length ∧
    l.memory.strlen (data p) = some content.length ∧ cBytes l.memory (data p) = content

/-- The arena gives out a byte behind the content that is zero. -/
def EndsInZero (ua : UArena) (m : Memory) (content : List UInt8) : Prop :=
  m (data ua.top + content.length) = 0

/-! ### The two paths -/

section Paths

variable {f : File} {content : List UInt8} {m : Memory} {ua : UArena}

theorem Holds.fileDataSize_toNat (h : Holds f content) :
    f.fileDataSize.toNat = content.length + 9 := by
  have hsize := h.size_eq
  have hlt := h.length_lt
  have height : (8 + f.fileSize).toNat = 8 + content.length := by
    rw [toNat_add_of_lt, hsize]
    · rfl
    · rw [hsize]
      exact Nat.lt_of_lt_of_le (Nat.add_lt_add_left hlt 8) (by decide)
  rw [File.fileDataSize, toNat_add_of_lt, height]
  · simp only [UInt64.toNat_one]
    omega
  · simp only [height, UInt64.toNat_one]
    omega

/-- Memory after a call that succeeds. -/
theorem load_of_allocated (h : Holds f content) {arena : Option UArena} {calloc : Option Addr}
    {p : Addr} (halloc : (allocate arena calloc f.fileDataSize m).fileData = some p) :
    sdbLoadFileIntoMemory arena calloc f m =
      ⟨some p, (allocate arena calloc f.fileDataSize m).arena,
        ((allocate arena calloc f.fileDataSize m).memory.storeWord p f.fileSize).write (data p)
          content⟩ := by
  have hlength : ¬ content.length ≠ f.fileSize.toNat := by
    rw [h.size_eq]
    exact not_not.mpr rfl
  simp only [sdbLoadFileIntoMemory, h.opens, h.seeks, Bool.true_eq_false, or_self, if_false, halloc,
    h.bytes_eq, if_neg hlength]

/-- The data is a C string of the content exactly if the byte behind it is zero. -/
theorem isCString_iff (h : Holds f content) {p : Addr} (arena : Option UArena) (m : Memory) :
    IsCString content ⟨some p, arena, (m.storeWord p f.fileSize).write (data p) content⟩ ↔
      m (data p + content.length) = 0 := by
  have hword : ((m.storeWord p f.fileSize).write (data p) content).loadWord p = f.fileSize := by
    have hapart : p + 8 ≤ data p ∨ data p + content.length ≤ p := .inl (Nat.le_refl _)
    rw [Memory.loadWord_write_of_disjoint hapart, Memory.loadWord_storeWord]
  have hread := Memory.read_write_same (m.storeWord p f.fileSize) (data p) content
  have hend : ((m.storeWord p f.fileSize).write (data p) content) (data p + content.length) =
      m (data p + content.length) := by
    rw [Memory.write_of_outside (.inr (Nat.le_refl _))]
    exact Memory.storeWord_of_outside (.inr (Nat.le_add_right _ _))
  constructor
  · rintro ⟨_, ⟨⟩, -, hstrlen, -⟩
    rw [← hend]
    exact (Memory.strlenIn_eq_some_iff.mp hstrlen).2.1
  · intro hzero
    have hstrlen := Memory.strlen_of_read hread (hend.trans hzero) h.nul_free h.length_lt
    refine ⟨p, rfl, ?_, hstrlen, ?_⟩
    · rw [hword]
      exact h.size_eq
    · rw [cBytes, hstrlen]
      exact hread

/-- With `calloc` the byte is there. -/
theorem isCString_calloc (h : Holds f content) (m : Memory) (p : Addr) :
    IsCString content (sdbLoadFileIntoMemory none (some p) f m) := by
  rw [load_of_allocated h (p := p) rfl, isCString_iff h]
  apply Memory.fill_of_mem
  simp only [Span.mem_cells, Span.stop, h.fileDataSize_toNat, data]
  omega

/-- With an arena it is what the arena held before. -/
theorem isCString_arena_iff (h : Holds f content)
    (hroom : ua.cur.toNat + (content.length + 9) ≤ ua.cap.toNat) (calloc : Option Addr) :
    IsCString content (sdbLoadFileIntoMemory (some ua) calloc f m) ↔ EndsInZero ua m content := by
  have halloc : uaAlloc ua f.fileDataSize =
      (some ua.top, { ua with cur := ua.cur + f.fileDataSize }) :=
    uaAlloc_of_fits (by rwa [h.fileDataSize_toNat])
  have hdata : (allocate (some ua) calloc f.fileDataSize m).fileData = some ua.top := by
    simp only [allocate, halloc]
  rw [load_of_allocated h hdata]
  exact isCString_iff h _ m

end Paths

/-- The string that a caller finds in the result. -/
def found (l : Loaded) : Option (List UInt8) := l.fileData.map fun p => cBytes l.memory (data p)

/-- Both paths load the file as a C string, and as the same, exactly if the arena has a
    zero behind the place of the content. -/
theorem loaded_iff_endsInZero {f : File} {content : List UInt8} (hfile : Holds f content)
    {ua : UArena} (hroom : ua.cur.toNat + (content.length + 9) ≤ ua.cap.toNat) (m : Memory)
    (p : Addr) :
    (IsCString content (sdbLoadFileIntoMemory (some ua) none f m) ∧
        IsCString content (sdbLoadFileIntoMemory none (some p) f m) ∧
        found (sdbLoadFileIntoMemory (some ua) none f m) =
          found (sdbLoadFileIntoMemory none (some p) f m)) ↔
      EndsInZero ua m content := by
  have hfound : ∀ l, IsCString content l → found l = some content := by
    rintro l ⟨q, hq, -, -, hbytes⟩
    rw [found, hq, Option.map_some, hbytes]
  have hcalloc := isCString_calloc hfile m p
  rw [isCString_arena_iff hfile hroom]
  constructor
  · exact fun h => h.1
  · intro h
    have harena := (isCString_arena_iff hfile hroom none).mpr h
    exact ⟨h, hcalloc, (hfound _ harena).trans (hfound _ hcalloc).symm⟩

/-- The file `ab`. -/
def fileAb : File := ⟨true, true, 2, [97, 98], by decide⟩

theorem holds_fileAb : Holds fileAb [97, 98] :=
  ⟨rfl, rfl, rfl, rfl, by decide +kernel, by decide +kernel⟩

/-- An arena of 64 bytes at 1000. -/
def arenaAt1000 : UArena := uaInit false false false 64 1000

theorem loaded_iff_endsInZero_ab :
    (IsCString [97, 98] (sdbLoadFileIntoMemory (some arenaAt1000) none fileAb fun _ => 0) ∧
        IsCString [97, 98] (sdbLoadFileIntoMemory none (some 5000) fileAb fun _ => 0) ∧
        found (sdbLoadFileIntoMemory (some arenaAt1000) none fileAb fun _ => 0) =
          found (sdbLoadFileIntoMemory none (some 5000) fileAb fun _ => 0)) ↔
      EndsInZero arenaAt1000 (fun _ => 0) [97, 98] :=
  loaded_iff_endsInZero holds_fileAb (by decide) (fun _ => 0) 5000

/-- In an arena that held other bytes before, the string does not end with the file. -/
theorem usedArena_not_isCString :
    ¬ ∀ (f : File) (content : List UInt8) (ua : UArena) (m : Memory), Holds f content →
      ua.cur.toNat + (content.length + 9) ≤ ua.cap.toNat →
      IsCString content (sdbLoadFileIntoMemory (some ua) none f m) := by
  intro h
  have hstring := h fileAb [97, 98] arenaAt1000 (fun _ => 120) holds_fileAb (by decide)
  have hend := (isCString_arena_iff holds_fileAb (by decide) none).mp hstring
  exact absurd hend (by unfold EndsInZero; decide)

end Lmalloc.Strings.LoadedFile
