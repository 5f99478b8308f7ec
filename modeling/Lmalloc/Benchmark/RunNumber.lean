/-
  Lmalloc/Benchmark/RunNumber.lean
  ================================
  **The next run number, from the names of the files of the runs so far.**

  Three files have a `get_next_run_nr`.  Two read the number at the start of each
  name; the one of `tests.c` first copies the name into a temporary string and takes
  four bytes off its end, the extension as it expects.  The cut may take digits with
  it, and nothing checks that the name has four bytes.

  The temporary string is the one of `lm.h`, in the arena `main_ua`, and its bytes
  are read back from memory.
-/
import Lmalloc.Postgres.Table
import Lmalloc.Strings.Reference

namespace Lmalloc.Benchmark.RunNumber

open Lmalloc.Library Lmalloc.Library.Word Lmalloc.Arena Lmalloc.Strings
open Lmalloc.Postgres (isSpace digits atoi)

/-! ### The three functions -/

/-- The bytes of a C string as characters. -/
def text (bytes : List UInt8) : Postgres.Text := bytes.map fun b => Char.ofNat b.toNat

/-- What `readdir` answers: whether `d_type` is `DT_DIR`, and the name at `dName`. -/
structure DirEntry where
  isDir : Bool
  dName : Addr
  name : List UInt8
  nul_free : ∀ b ∈ name, b ≠ 0
  length_lt : name.length < 2 ^ 57

def keepLargest (largestNum currentNum : Int32) : Int32 :=
  if 0 < currentNum then (if largestNum < currentNum then currentNum else largestNum)
  else largestNum

def nextNumber (largestNum : Int32) : Int32 := if largestNum = 0 then 1 else largestNum + 1

/-- Two of the copies; an `opendir` that fails gives its `errno`. -/
def scanNames : Except Int32 (List DirEntry) → Int32
  | .error errno => -errno
  | .ok entries =>
      nextNumber (entries.foldl
        (fun largest e => if e.isDir then largest else keepLargest largest (atoi (text e.name))) 0)

/-- `get_next_run_nr` of `tight_loop_test.c`. -/
def tightLoopGetNextRunNr := scanNames

/-- `get_next_run_nr` of `Sdhs.c`. -/
def sdhsGetNextRunNr := scanNames

/-- The loop of `tests.c`; `inside` records that the temporary strings were only accessed
    at their own bytes. -/
structure Scan where
  store : Store
  largestNum : Int32
  inside : Bool

/-- `string[new_len]` of `lm_string_backspace` is a byte of the string, and so are the
    characters of it that are read. -/
def cutInside (len n : UInt64) (characters : ℕ) : Bool :=
  decide (len - n ≤ len) && decide (characters ≤ len.toNat)

/-- The name that `readdir` has stored. -/
def listed (s : Scan) (e : DirEntry) : Store :=
  { s.store with memory := s.store.memory.write e.dName (e.name ++ [0]) }

/-- The body of the loop: no result where `NULL` is followed. -/
def visit (mainUa : Addr) (s : Scan) (e : DirEntry) : Option Scan :=
  if e.isDir then some s
  else
    let uas := uaScratchBegin (some (mainUa, (listed s e).arenas mainUa))
    match lmStringMake (listed s e) (some e.dName) mainUa with
    | some (some filename, st) =>
        let len := lmStringLen st.memory filename
        let st := lmStringBackspace st filename 4
        (st.memory.strlen filename).map fun characters =>
          let currentNum := atoi (text (st.memory.read filename characters))
          { store := st.setArena mainUa (uaScratchRelease uas (st.arenas mainUa))
            largestNum := keepLargest s.largestNum currentNum
            inside := s.inside && cutInside len 4 characters }
    | _ => none

/-- `get_next_run_nr` of `tests.c`, with what its loop leaves behind. -/
def testsGetNextRunNr (st : Store) (mainUa : Addr) :
    Except Int32 (List DirEntry) → Option (Int32 × Scan)
  | .error errno => some (-errno, ⟨st, 0, true⟩)
  | .ok entries =>
      (entries.foldlM (visit mainUa) ⟨st, 0, true⟩).map fun s => (nextNumber s.largestNum, s)

/-! ### What is claimed -/

/-- The number behind an optional sign. -/
def signed : Postgres.Text → ℤ
  | '-' :: rest => -(digits rest : ℤ)
  | '+' :: rest => digits rest
  | rest => digits rest

/-- The decimal number at the start of a text. -/
def leadingNumber (s : Postgres.Text) : ℤ := signed (s.dropWhile isSpace)

/-- What is left of a name without its last four bytes. -/
def DirEntry.cut (e : DirEntry) : List UInt8 := e.name.take (e.name.length - 4)

/-- The three copies agree on a number that is new, and no byte next to a temporary
    string is accessed. -/
def NewRunNumber (st : Store) (mainUa : Addr) (entries : List DirEntry) : Prop :=
  ∃ s : Scan,
    testsGetNextRunNr st mainUa (.ok entries) = some (tightLoopGetNextRunNr (.ok entries), s) ∧
      sdhsGetNextRunNr (.ok entries) = tightLoopGetNextRunNr (.ok entries) ∧
      0 < (tightLoopGetNextRunNr (.ok entries)).toInt ∧
      (∀ e ∈ entries, e.isDir = false →
        leadingNumber (text e.name) < (tightLoopGetNextRunNr (.ok entries)).toInt) ∧
      s.inside = true

/-- Every name has four bytes and fits into the arena, and every number is reached by a
    number that the cut leaves whole. -/
structure CutHarmless (ua : UArena) (entries : List DirEntry) : Prop where
  four_le : ∀ e ∈ entries, e.isDir = false → 4 ≤ e.name.length
  room : ∀ e ∈ entries, e.isDir = false →
    ua.cur.toNat + (headerSize + e.name.length + 1) ≤ ua.cap.toNat
  reached : ∀ e ∈ entries, e.isDir = false → 0 < leadingNumber (text e.name) →
    ∃ e' ∈ entries, e'.isDir = false ∧
      leadingNumber (text e.name) ≤ leadingNumber (text e'.cut)

/-! ### Numbers at the start of a text -/

theorem atoi_eq (s : Postgres.Text) :
    atoi s = Int32.ofInt (max (-2 ^ 63) (min (2 ^ 63 - 1) (leadingNumber s))) := rfl

theorem toInt_atoi {s : Postgres.Text} (h : |leadingNumber s| < 2 ^ 31 - 1) :
    (atoi s).toInt = leadingNumber s := by
  obtain ⟨hlow, hhigh⟩ := abs_lt.mp h
  have hmin : min (2 ^ 63 - 1) (leadingNumber s) = leadingNumber s := by
    apply min_eq_right
    omega
  have hmax : max (-2 ^ 63) (leadingNumber s) = leadingNumber s := by
    apply max_eq_right
    omega
  rw [atoi_eq, hmin, hmax]
  apply Int32.toInt_ofInt_of_le
  · omega
  · omega

theorem le_foldl_digits (s : Postgres.Text) (v : ℕ) :
    v ≤ s.foldl (fun v c => 10 * v + (c.toNat - 48)) v := by
  induction s generalizing v with
  | nil => exact le_rfl
  | cons c s ih =>
    apply le_trans _ (ih _)
    dsimp only
    omega

theorem digits_le_append (s t : Postgres.Text) : digits s ≤ digits (s ++ t) := by
  unfold digits
  rw [List.takeWhile_append]
  split
  · rename_i hall
    have htake : s.takeWhile Char.isDigit = s :=
      (List.takeWhile_sublist Char.isDigit).eq_of_length hall
    rw [htake, List.foldl_append]
    exact le_foldl_digits _ _
  · exact le_rfl

theorem signed_of_digit {c : Char} (hminus : c ≠ '-') (hplus : c ≠ '+') (rest : Postgres.Text) :
    signed (c :: rest) = digits (c :: rest) := by
  unfold signed
  split
  · rename_i heq
    exact absurd (List.cons.inj heq).1 hminus
  · rename_i heq
    exact absurd (List.cons.inj heq).1 hplus
  · rfl

/-- More text behind a number keeps its sign and may only add digits. -/
theorem leadingNumber_append (s t : Postgres.Text) :
    leadingNumber s = 0 ∨ ∃ (σ : ℤ) (a b : ℕ), (σ = 1 ∨ σ = -1) ∧ a ≤ b ∧
      leadingNumber s = σ * a ∧ leadingNumber (s ++ t) = σ * b := by
  rw [leadingNumber, leadingNumber, List.dropWhile_append]
  cases s.dropWhile isSpace with
  | nil => exact .inl rfl
  | cons c rest =>
    right
    simp only [List.isEmpty_cons, Bool.false_eq_true, if_false, List.cons_append]
    by_cases hminus : c = '-'
    · subst hminus
      exact ⟨-1, _, _, .inr rfl, digits_le_append rest t, (neg_one_mul _).symm, (neg_one_mul _).symm⟩
    · by_cases hplus : c = '+'
      · subst hplus
        exact ⟨1, _, _, .inl rfl, digits_le_append rest t, (one_mul _).symm, (one_mul _).symm⟩
      · refine ⟨1, _, _, .inl rfl, digits_le_append (c :: rest) t, ?_, ?_⟩
        · rw [signed_of_digit hminus hplus, one_mul]
        · rw [signed_of_digit hminus hplus, one_mul]
          rfl

theorem leadingNumber_cut (e : DirEntry) :
    |leadingNumber (text e.cut)| ≤ |leadingNumber (text e.name)| ∧
      (0 < leadingNumber (text e.cut) →
        leadingNumber (text e.cut) ≤ leadingNumber (text e.name)) := by
  have hsplit : text e.name = text e.cut ++ text (e.name.drop (e.name.length - 4)) := by
    rw [text, text, text, DirEntry.cut, ← List.map_append, List.take_append_drop]
  rw [hsplit]
  rcases leadingNumber_append (text e.cut) (text (e.name.drop (e.name.length - 4))) with
    hzero | ⟨σ, a, b, hσ, hab, hcut, hname⟩
  · rw [hzero]
    exact ⟨by rw [abs_zero]; exact abs_nonneg _, fun h => absurd h (lt_irrefl 0)⟩
  · have hcast : (a : ℤ) ≤ b := by exact_mod_cast hab
    rw [hcut, hname]
    rcases hσ with rfl | rfl
    · simp only [one_mul, Nat.abs_cast]
      exact ⟨hcast, fun _ => hcast⟩
    · simp only [neg_one_mul, abs_neg, Nat.abs_cast]
      refine ⟨hcast, fun hpos => ?_⟩
      omega

/-! ### The running maximum -/

/-- `L` is the largest of the numbers, and 0 where none is positive. -/
structure IsLargest (L : ℤ) (numbers : List ℤ) : Prop where
  nonneg : 0 ≤ L
  le : ∀ x ∈ numbers, x ≤ L
  mem : L = 0 ∨ L ∈ numbers

theorem isLargest_nil : IsLargest 0 [] := ⟨le_rfl, by simp, .inl rfl⟩

theorem IsLargest.unique {L L' : ℤ} {numbers : List ℤ} (h : IsLargest L numbers)
    (h' : IsLargest L' numbers) : L = L' := by
  apply le_antisymm
  · rcases h.mem with hzero | hmem
    · exact hzero ▸ h'.nonneg
    · exact h'.le L hmem
  · rcases h'.mem with hzero | hmem
    · exact hzero ▸ h.nonneg
    · exact h.le L' hmem

/-- Taking in one more number. -/
theorem IsLargest.keep {largest : Int32} {numbers : List ℤ}
    (h : IsLargest largest.toInt numbers) (current : Int32) :
    IsLargest (keepLargest largest current).toInt (numbers ++ [current.toInt]) := by
  have hzero : (0 : Int32).toInt = 0 := rfl
  have hcase : (keepLargest largest current).toInt = max largest.toInt current.toInt := by
    unfold keepLargest
    split
    · split
      · rename_i hlt
        rw [max_eq_right (Int32.lt_iff_toInt_lt.mp hlt).le]
      · rename_i hle
        rw [max_eq_left (not_lt.mp fun hlt => hle (Int32.lt_iff_toInt_lt.mpr hlt))]
    · rename_i hle
      have hcurrent : current.toInt ≤ 0 :=
        not_lt.mp fun hlt => hle (Int32.lt_iff_toInt_lt.mpr (by rwa [hzero]))
      rw [max_eq_left (hcurrent.trans h.nonneg)]
  rw [hcase]
  refine ⟨h.nonneg.trans (le_max_left _ _), ?_, ?_⟩
  · intro x hx
    rcases List.mem_append.mp hx with hold | hnew
    · exact (h.le x hold).trans (le_max_left _ _)
    · rw [List.mem_singleton.mp hnew]
      exact le_max_right _ _
  · rcases le_total largest.toInt current.toInt with hle | hle
    · rw [max_eq_right hle]
      exact .inr (by simp)
    · rw [max_eq_left hle]
      exact h.mem.imp id fun hmem => List.mem_append_left _ hmem

/-- The numbers at the start of the names, or of what is left of them. -/
def numbers (part : DirEntry → List UInt8) (entries : List DirEntry) : List ℤ :=
  (entries.filter fun e => !e.isDir).map fun e => leadingNumber (text (part e))

theorem mem_numbers {part : DirEntry → List UInt8} {entries : List DirEntry} {x : ℤ} :
    x ∈ numbers part entries ↔
      ∃ e ∈ entries, e.isDir = false ∧ leadingNumber (text (part e)) = x := by
  simp [numbers, and_assoc]

theorem numbers_cons_dir {part : DirEntry → List UInt8} {e : DirEntry} {entries : List DirEntry}
    (h : e.isDir = true) : numbers part (e :: entries) = numbers part entries := by
  simp [numbers, h]

theorem numbers_cons_file {part : DirEntry → List UInt8} {e : DirEntry} {entries : List DirEntry}
    (h : e.isDir = false) : numbers part (e :: entries) =
      leadingNumber (text (part e)) :: numbers part entries := by
  simp [numbers, h]

/-- The number at the start of each name is in range. -/
def InRange (entries : List DirEntry) : Prop :=
  ∀ e ∈ entries, e.isDir = false → |leadingNumber (text e.name)| < 2 ^ 31 - 1

theorem scanNames_isLargest {entries : List DirEntry} (hrange : InRange entries) {largest : Int32}
    {seen : List ℤ} (h : IsLargest largest.toInt seen) :
    IsLargest (entries.foldl
      (fun largest e => if e.isDir then largest else keepLargest largest (atoi (text e.name)))
      largest).toInt (seen ++ numbers DirEntry.name entries) := by
  induction entries generalizing largest seen with
  | nil => simpa [numbers] using h
  | cons e entries ih =>
    have hrest : InRange entries := fun e' he' => hrange e' (List.mem_cons_of_mem e he')
    rw [List.foldl_cons]
    cases hdir : e.isDir with
    | true =>
      rw [numbers_cons_dir hdir]
      exact ih hrest h
    | false =>
      have hnumber := toInt_atoi (hrange e List.mem_cons_self hdir)
      have hkeep := h.keep (atoi (text e.name))
      rw [hnumber] at hkeep
      rw [numbers_cons_file hdir, List.append_cons]
      exact ih hrest hkeep

theorem toInt_nextNumber {largest : Int32} (hlow : 0 ≤ largest.toInt)
    (hhigh : largest.toInt < 2 ^ 31 - 1) : (nextNumber largest).toInt = largest.toInt + 1 := by
  unfold nextNumber
  split
  · rename_i hzero
    rw [hzero]
    rfl
  · rw [Int32.toInt_add]
    have hone : (1 : Int32).toInt = 1 := rfl
    rw [hone, Int.bmod_eq_of_le]
    · omega
    · omega

/-! ### One name -/

/-- The arena is the one the loop began with, and no name lies in its memory. -/
structure Listing (ua : UArena) (entries : List DirEntry) : Prop where
  cur_le : ua.cur ≤ ua.cap
  cap_lt : ua.cap.toNat < 2 ^ 63
  apart : ∀ e ∈ entries, e.dName + (e.name.length + 1) ≤ ua.mem ∨ ua.mem + ua.cap.toNat ≤ e.dName

def HasRoomFor (ua : UArena) (e : DirEntry) : Prop :=
  ua.cur.toNat + (headerSize + e.name.length + 1) ≤ ua.cap.toNat

section Visit

variable {mainUa : Addr} {ua : UArena} {s : Scan} {e : DirEntry}

theorem strlen_listed (s : Scan) (e : DirEntry) :
    (listed s e).memory.read e.dName e.name.length = e.name ∧
      (listed s e).memory.strlen e.dName = some e.name.length := by
  have hwhole := Memory.read_write_same s.store.memory e.dName (e.name ++ [0])
  rw [List.length_append, List.length_singleton, Memory.read_add, Memory.read_one] at hwhole
  obtain ⟨hname, hnul⟩ := List.append_inj' hwhole rfl
  exact ⟨hname, Memory.strlen_of_read hname (List.cons.inj hnul).1 e.nul_free e.length_lt⟩

/-- `lm_string_make` of a name: a copy behind the cursor, or `NULL`. -/
theorem make_listed (hua : mainUa < 2 ^ 64) (harena : s.store.arenas mainUa = ua)
    (hcur : ua.cur ≤ ua.cap) (hcap : ua.cap.toNat < 2 ^ 63)
    (hapart : e.dName + (e.name.length + 1) ≤ ua.mem ∨ ua.mem + ua.cap.toNat ≤ e.dName) :
    (¬ HasRoomFor ua e ∧ lmStringMake (listed s e) (some e.dName) mainUa = some (none, listed s e)) ∨
      HasRoomFor ua e ∧ ∃ (f : ℕ) (st : Store),
        lmStringMake (listed s e) (some e.dName) mainUa = some (some f, st) ∧
          MadeAt (listed s e) mainUa f e.name st := by
  obtain ⟨hread, hstrlen⟩ := strlen_listed s e
  have hlength := e.length_lt
  have hcurNat := UInt64.le_iff_toNat_le.mp hcur
  have hword : (UInt64.ofNat e.name.length).toNat = e.name.length := toNat_ofNat_of_lt (by omega)
  have harena' : (listed s e).arenas mainUa = ua := harena
  have hmake : lmStringMake (listed s e) (some e.dName) mainUa =
      lmStringMakeOf (listed s e) (some e.dName) (UInt64.ofNat e.name.length) mainUa := by
    rw [lmStringMake, hstrlen, Option.bind_some]
  have hwrap : ua.cur.toNat + (headerSize + e.name.length + 1) < 2 ^ 64 := by
    simp only [headerSize]
    omega
  rw [hmake]
  by_cases hroom : HasRoomFor ua e
  · refine .inr ⟨hroom, ?_⟩
    have hbelow : ua.mem + ua.cur.toNat + (headerSize + e.name.length + 1) ≤
        ua.mem + ua.cap.toNat := by
      rw [Nat.add_assoc]
      exact Nat.add_le_add_left hroom _
    have hsource : ∀ q : ℕ, some e.dName = some q → (UInt64.ofNat e.name.length).toNat = 0 ∨
        q + (UInt64.ofNat e.name.length).toNat ≤ ((listed s e).arenas mainUa).top ∨
        ((listed s e).arenas mainUa).top + (headerSize + (UInt64.ofNat e.name.length).toNat + 1) ≤
          q := by
      rintro _ ⟨⟩
      rw [harena', hword, UArena.top]
      right
      rcases hapart with hbefore | hbehind
      · left
        have hname : e.dName + e.name.length ≤ ua.mem :=
          (Nat.add_le_add_left (Nat.le_succ _) _).trans hbefore
        exact hname.trans (Nat.le_add_right _ _)
      · right
        exact hbelow.trans hbehind
    rcases lmStringMakeOf_cases hua (by rw [harena', hword]; exact hwrap) hsource with
      ⟨hfull, -⟩ | ⟨f, st, hsome, hmade⟩
    · rw [harena', hword] at hfull
      exact absurd hroom (Nat.not_le_of_lt hfull)
    · rw [hword, initBytes, hread] at hmade
      exact ⟨f, st, hsome, hmade⟩
  · refine .inl ⟨hroom, ?_⟩
    apply lmStringMakeOf_of_full
    · rw [harena', hword]
      exact hwrap
    · rw [harena', hword]
      exact Nat.not_le.mp hroom

/-- The release puts the cursor back. -/
theorem release_eq (hcur : ua.cur ≤ ua.cap) {ua' : UArena} (hsame : ua' = { ua with cur := ua'.cur }) :
    uaScratchRelease (uaScratchBegin (some (mainUa, ua))) ua' = ua := by
  rw [hsame]
  simp [uaScratchRelease, uaScratchBegin, uaSeek, hcur]

theorem visit_dir (hdir : e.isDir = true) : visit mainUa s e = some s := by
  simp only [visit, hdir, if_true]

/-- A name of four bytes or more leaves its cut behind, and the arena as it was. -/
theorem visit_long (hua : mainUa < 2 ^ 64) (harena : s.store.arenas mainUa = ua)
    (hcur : ua.cur ≤ ua.cap) (hcap : ua.cap.toNat < 2 ^ 63)
    (hapart : e.dName + (e.name.length + 1) ≤ ua.mem ∨ ua.mem + ua.cap.toNat ≤ e.dName)
    (hfile : e.isDir = false) (hroom : HasRoomFor ua e) (hfour : 4 ≤ e.name.length) :
    ∃ st, visit mainUa s e =
        some ⟨st, keepLargest s.largestNum (atoi (text e.cut)), s.inside⟩ ∧
      st.arenas mainUa = ua := by
  have hfourNat : (4 : UInt64).toNat = 4 := rfl
  have harena' : (listed s e).arenas mainUa = ua := harena
  obtain ⟨f, st, hmake, hmade⟩ :=
    ((make_listed hua harena hcur hcap hapart).resolve_left fun h => h.1 hroom).2
  have hback := lmStringBackspace_eq hmade.isString (n := 4) (by rw [hfourNat]; exact hfour)
  have hcut := hmade.isString.cut (Nat.sub_le e.name.length 4)
  have hcutLength : e.cut.length = e.name.length - 4 := by simp [DirEntry.cut]
  have hread : (put st.memory f (e.name.length - 4) []).read f e.cut.length = e.cut := hcut.bytes_eq
  have hstrlen : (put st.memory f (e.name.length - 4) []).strlen f = some e.cut.length := by
    apply Memory.strlen_of_read hread hcut.nul
    · intro b hb
      exact e.nul_free b (List.mem_of_mem_take hb)
    · rw [hcutLength]
      exact (Nat.sub_le _ _).trans_lt e.length_lt
  have hinside : cutInside (lmStringLen st.memory f) 4 e.cut.length = true := by
    have hlen := hmade.isString.len_eq
    have hle : lmStringLen st.memory f - 4 ≤ lmStringLen st.memory f := by
      rw [UInt64.le_iff_toNat_le, toNat_sub_of_le (by rw [hlen, hfourNat]; exact hfour)]
      exact Nat.sub_le _ _
    have hchars : e.cut.length ≤ (lmStringLen st.memory f).toNat := by
      rw [hlen, hcutLength]
      exact Nat.sub_le _ _
    rw [cutInside, decide_eq_true hle, decide_eq_true hchars]
    rfl
  have hsame : st.arenas mainUa = { ua with cur := (st.arenas mainUa).cur } := by
    have hupdate := congrFun hmade.arenas mainUa
    rw [Function.update_self] at hupdate
    exact hupdate.trans (by rw [harena'])
  refine ⟨{ st with memory := put st.memory f (e.name.length - 4) [] }.setArena mainUa
    (uaScratchRelease (uaScratchBegin (some (mainUa, ua))) (st.arenas mainUa)), ?_, ?_⟩
  · simp only [visit, hfile, Bool.false_eq_true, if_false]
    rw [hmake]
    simp only [hback, hfourNat]
    rw [hstrlen]
    simp only [Option.map_some, hread, hinside, Bool.and_true, harena']
  · simp only [Store.setArena, Function.update_self]
    exact release_eq hcur hsame

/-- Without room `NULL` is followed; a short name is cut outside its bytes. -/
theorem visit_short (hua : mainUa < 2 ^ 64) (harena : s.store.arenas mainUa = ua)
    (hcur : ua.cur ≤ ua.cap) (hcap : ua.cap.toNat < 2 ^ 63)
    (hapart : e.dName + (e.name.length + 1) ≤ ua.mem ∨ ua.mem + ua.cap.toNat ≤ e.dName)
    (hfile : e.isDir = false) (hbad : ¬ (HasRoomFor ua e ∧ 4 ≤ e.name.length)) {s' : Scan}
    (hvisit : visit mainUa s e = some s') : s'.inside = false := by
  simp only [visit, hfile, Bool.false_eq_true, if_false] at hvisit
  rcases make_listed hua harena hcur hcap hapart with ⟨-, hnull⟩ | ⟨hroom, f, st, hmake, hmade⟩
  · rw [hnull] at hvisit
    cases hvisit
  · rw [hmake] at hvisit
    obtain ⟨characters, -, rfl⟩ := Option.map_eq_some_iff.mp hvisit
    have hlen := hmade.isString.len_eq
    have hshort : e.name.length < 4 := Nat.not_le.mp fun hfour => hbad ⟨hroom, hfour⟩
    have hover : ¬ lmStringLen st.memory f - 4 ≤ lmStringLen st.memory f := by
      have hfourNat : (4 : UInt64).toNat = 4 := rfl
      rw [UInt64.le_iff_toNat_le, UInt64.toNat_sub, hlen, hfourNat]
      omega
    simp only [cutInside, decide_eq_false hover, Bool.false_and, Bool.and_false]

/-- What was outside stays so. -/
theorem visit_inside {s' : Scan} (hvisit : visit mainUa s e = some s') (h : s'.inside = true) :
    s.inside = true := by
  simp only [visit] at hvisit
  split at hvisit
  · exact (Option.some.inj hvisit) ▸ h
  · split at hvisit
    · obtain ⟨characters, -, rfl⟩ := Option.map_eq_some_iff.mp hvisit
      exact (Bool.and_eq_true_iff.mp h).1
    · cases hvisit

end Visit

/-! ### All names -/

section Scan

variable {mainUa : Addr} {ua : UArena} {entries : List DirEntry}

theorem Listing.tail {e : DirEntry} (h : Listing ua (e :: entries)) : Listing ua entries :=
  ⟨h.cur_le, h.cap_lt, fun e' he' => h.apart e' (List.mem_cons_of_mem e he')⟩

/-- What the loop needs of a name. -/
def FileFits (ua : UArena) (e : DirEntry) : Prop :=
  e.isDir = false → HasRoomFor ua e ∧ 4 ≤ e.name.length

theorem toInt_atoi_cut {e : DirEntry} (h : |leadingNumber (text e.name)| < 2 ^ 31 - 1) :
    (atoi (text e.cut)).toInt = leadingNumber (text e.cut) :=
  toInt_atoi ((leadingNumber_cut e).1.trans_lt h)

/-- A loop over names that fit finds the largest of the cut numbers. -/
theorem scan_of_fits (hua : mainUa < 2 ^ 64) (hlisting : Listing ua entries)
    (hrange : InRange entries) (hfits : ∀ e ∈ entries, FileFits ua e) {s : Scan}
    (harena : s.store.arenas mainUa = ua) {seen : List ℤ} (h : IsLargest s.largestNum.toInt seen) :
    ∃ s', entries.foldlM (visit mainUa) s = some s' ∧ s'.inside = s.inside ∧
      IsLargest s'.largestNum.toInt (seen ++ numbers DirEntry.cut entries) := by
  induction entries generalizing s seen with
  | nil => exact ⟨s, rfl, rfl, by simpa [numbers] using h⟩
  | cons e entries ih =>
    have hrest : InRange entries := fun e' he' => hrange e' (List.mem_cons_of_mem e he')
    have hfitsRest : ∀ e' ∈ entries, FileFits ua e' :=
      fun e' he' => hfits e' (List.mem_cons_of_mem e he')
    cases hdir : e.isDir with
    | true =>
      rw [List.foldlM_cons, visit_dir hdir, numbers_cons_dir hdir]
      exact ih hlisting.tail hrest hfitsRest harena h
    | false =>
      obtain ⟨hroom, hfour⟩ := hfits e List.mem_cons_self hdir
      obtain ⟨st, hvisit, hst⟩ := visit_long hua harena hlisting.cur_le hlisting.cap_lt
        (hlisting.apart e List.mem_cons_self) hdir hroom hfour
      have hkeep := h.keep (atoi (text e.cut))
      rw [toInt_atoi_cut (hrange e List.mem_cons_self hdir)] at hkeep
      rw [List.foldlM_cons, hvisit, numbers_cons_file hdir, List.append_cons]
      exact ih hlisting.tail hrest hfitsRest hst hkeep

theorem scan_inside {s s' : Scan} (hscan : entries.foldlM (visit mainUa) s = some s')
    (h : s'.inside = true) : s.inside = true := by
  induction entries generalizing s with
  | nil => exact (Option.some.inj hscan) ▸ h
  | cons e entries ih =>
    rw [List.foldlM_cons] at hscan
    obtain ⟨s₁, hvisit, hscan⟩ := Option.bind_eq_some_iff.mp hscan
    exact visit_inside hvisit (ih hscan)

/-- Only names that fit are scanned without an access next to their string. -/
theorem fits_of_scan (hua : mainUa < 2 ^ 64) (hlisting : Listing ua entries) {s s' : Scan}
    (harena : s.store.arenas mainUa = ua) (hscan : entries.foldlM (visit mainUa) s = some s')
    (h : s'.inside = true) : ∀ e ∈ entries, FileFits ua e := by
  induction entries generalizing s with
  | nil =>
    intro e he
    cases he
  | cons e entries ih =>
    rw [List.foldlM_cons] at hscan
    obtain ⟨s₁, hvisit, hscan⟩ := Option.bind_eq_some_iff.mp hscan
    have hapart := hlisting.apart e List.mem_cons_self
    have hfit : FileFits ua e := by
      intro hdir
      by_contra hbad
      have hout := visit_short hua harena hlisting.cur_le hlisting.cap_lt hapart hdir hbad hvisit
      rw [scan_inside hscan h] at hout
      cases hout
    have harena₁ : s₁.store.arenas mainUa = ua := by
      cases hdir : e.isDir with
      | true =>
        rw [visit_dir hdir] at hvisit
        exact (Option.some.inj hvisit) ▸ harena
      | false =>
        obtain ⟨st, hlong, hst⟩ := visit_long hua harena hlisting.cur_le hlisting.cap_lt hapart hdir
          (hfit hdir).1 (hfit hdir).2
        rw [hlong] at hvisit
        exact (Option.some.inj hvisit) ▸ hst
    intro e' he'
    rcases List.mem_cons.mp he' with rfl | htail
    · exact hfit
    · exact ih hlisting.tail harena₁ hscan e' htail

theorem IsLargest.lt_of_inRange (hrange : InRange entries) {L : ℤ} {part : DirEntry → List UInt8}
    (hpart : ∀ e, |leadingNumber (text (part e))| ≤ |leadingNumber (text e.name)|)
    (h : IsLargest L (numbers part entries)) : L < 2 ^ 31 - 1 := by
  rcases h.mem with hzero | hmem
  · rw [hzero]
    decide
  · obtain ⟨e, he, hdir, rfl⟩ := mem_numbers.mp hmem
    exact (le_abs_self _).trans_lt ((hpart e).trans_lt (hrange e he hdir))

/-- Cutting the names leaves the largest number alone exactly if every number is
    reached by one that is left whole. -/
theorem isLargest_cut_iff {L L' : ℤ} (h : IsLargest L (numbers DirEntry.name entries))
    (h' : IsLargest L' (numbers DirEntry.cut entries)) :
    L' = L ↔ ∀ e ∈ entries, e.isDir = false → 0 < leadingNumber (text e.name) →
      ∃ e' ∈ entries, e'.isDir = false ∧
        leadingNumber (text e.name) ≤ leadingNumber (text e'.cut) := by
  constructor
  · rintro rfl e he hdir hpos
    have hle := h.le _ (mem_numbers.mpr ⟨e, he, hdir, rfl⟩)
    rcases h'.mem with hzero | hmem
    · exact absurd (hpos.trans_le hle) (by rw [hzero]; exact lt_irrefl 0)
    · obtain ⟨e', he', hdir', heq⟩ := mem_numbers.mp hmem
      exact ⟨e', he', hdir', hle.trans heq.ge⟩
  · intro hreached
    apply le_antisymm
    · rcases h'.mem with hzero | hmem
      · exact hzero ▸ h.nonneg
      · obtain ⟨e, he, hdir, rfl⟩ := mem_numbers.mp hmem
        rcases h'.nonneg.eq_or_lt with hzero | hpos
        · exact hzero ▸ h.nonneg
        · exact ((leadingNumber_cut e).2 hpos).trans (h.le _ (mem_numbers.mpr ⟨e, he, hdir, rfl⟩))
    · rcases h.mem with hzero | hmem
      · exact hzero ▸ h'.nonneg
      · obtain ⟨e, he, hdir, rfl⟩ := mem_numbers.mp hmem
        rcases h.nonneg.eq_or_lt with hzero | hpos
        · exact hzero ▸ h'.nonneg
        · obtain ⟨e', he', hdir', hle⟩ := hreached e he hdir hpos
          exact hle.trans (h'.le _ (mem_numbers.mpr ⟨e', he', hdir', rfl⟩))

end Scan

/-- An arena of 64 bytes at 1000, with nothing in it. -/
def emptyArena : Store :=
  { arenas := fun _ => uaInit false false false 64 1000
    memory := fun _ => 0 }

/-- `12.bin`. -/
def twelveBin : DirEntry :=
  ⟨false, 10, [49, 50, 46, 98, 105, 110], by decide +kernel, by decide +kernel⟩

/-- `123456`, a number without an extension. -/
def bareNumber : DirEntry :=
  ⟨false, 10, [49, 50, 51, 52, 53, 54], by decide +kernel, by decide +kernel⟩

end Lmalloc.Benchmark.RunNumber
