/-
  Lmalloc/Strings/MemSize.lean
  ============================
  **The size of an arena, read from a text such as `16 kB`.**

  `lm_mem_sz_from_string` and `SdbMemSizeFromString` are one function written twice:
  `strtoull` reads the number, and a unit of one or two letters follows it.  They
  are meant to answer 0 to everything that is not a size; but `strtoull` takes a
  sign, and stops at the largest word, and the product with the unit wraps.

  A C string is the list of its characters, without the `NUL`.
-/
import Lmalloc.Postgres.Table

namespace Lmalloc.Strings.MemSize

open Lmalloc.Postgres (Text isSpace digits)

/-! ### `strtoull` -/

/-- The value of a number as `strtoull` returns it. -/
def readValue (negative : Bool) (n : ℕ) : UInt64 :=
  if 2 ^ 64 ≤ n then UInt64.ofNat (2 ^ 64 - 1)   -- `ULLONG_MAX`, with `ERANGE`
  else if negative then -UInt64.ofNat n
  else UInt64.ofNat n

/-- The sign, and the text behind it. -/
def splitSign : Text → Bool × Text
  | '-' :: rest => (true, rest)
  | '+' :: rest => (false, rest)
  | rest => (false, rest)

/-- `strtoull(string, &end_ptr, 10)` with the text at `end_ptr`; there is no result where
    `end_ptr == string`. -/
def strtoull (string : Text) : Option (UInt64 × Text) :=
  let (negative, number) := splitSign (string.dropWhile isSpace)
  if number.takeWhile Char.isDigit = [] then none
  else some (readValue negative (digits number), number.dropWhile Char.isDigit)

/-! ### The function -/

/-- The `switch` over the first letter of the unit. -/
def unitMultiplier : Char → Option UInt64
  | 'T' => some (1000 * 1000 * 1000 * 1000)
  | 't' => some (1024 * 1024 * 1024 * 1024)
  | 'G' => some (1000 * 1000 * 1000)
  | 'g' => some (1024 * 1024 * 1024)
  | 'M' => some (1000 * 1000)
  | 'm' => some (1024 * 1024)
  | 'K' => some 1000
  | 'k' => some 1024
  | 'B' => some 1
  | _ => none

/-- From the end of the number on: `unit` is the text there, behind white space. -/
def scale (value : UInt64) (unit : Text) : UInt64 :=
  match unit with
  | [] => value
  | letter :: rest =>
      match unitMultiplier letter with
      | none => 0
      | some multiplier =>
          if letter = 'B' ∧ rest ≠ [] then 0
          else if letter ≠ 'B' ∧ rest ≠ ['B'] then 0
          else value * multiplier

def memSize : Option Text → UInt64
  | none => 0
  | some string =>
      if string = [] then 0
      else
        match strtoull string with
        | none => 0
        | some (value, endPtr) => scale value (endPtr.dropWhile isSpace)

/-- `lm_mem_sz_from_string`; the argument is `none` for `NULL`. -/
def lmMemSzFromString := memSize

/-- `SdbMemSizeFromString`. -/
def sdbMemSizeFromString := memSize

/-! ### What is claimed -/

def units : List (Text × ℕ) :=
  [([], 1), (['B'], 1),
    (['k', 'B'], 1024), (['K', 'B'], 1000),
    (['m', 'B'], 1024 ^ 2), (['M', 'B'], 1000 ^ 2),
    (['g', 'B'], 1024 ^ 3), (['G', 'B'], 1000 ^ 3),
    (['t', 'B'], 1024 ^ 4), (['T', 'B'], 1000 ^ 4)]

/-- What may stand in front of a number. -/
def IsSign (sign : Text) : Prop := sign = [] ∨ sign = ['+'] ∨ sign = ['-']

/-- White space, the sign, a number, white space, a unit. -/
def Reads (string sign : Text) (n multiplier : ℕ) : Prop :=
  ∃ ws ds ws' unit, string = ws ++ (sign ++ (ds ++ (ws' ++ unit))) ∧
    (∀ c ∈ ws, isSpace c = true) ∧ ds ≠ [] ∧ (∀ c ∈ ds, c.isDigit = true) ∧ digits ds = n ∧
    (∀ c ∈ ws', isSpace c = true) ∧ (unit, multiplier) ∈ units

/-- The size where the text is one without a sign and the product fits, and 0 otherwise. -/
def IsSizeOf (string : Text) (size : UInt64) : Prop :=
  (∀ n multiplier, Reads string [] n multiplier → n * multiplier < 2 ^ 64 →
    size.toNat = n * multiplier) ∧
  ((¬ ∃ n multiplier, Reads string [] n multiplier ∧ n * multiplier < 2 ^ 64) → size = 0)

/-- No sign and no overflow; or an overflow that leaves nothing. -/
def Harmless (string : Text) : Prop :=
  ∀ sign n multiplier, IsSign sign → Reads string sign n multiplier →
    n < 2 ^ 64 ∧ ((sign = [] ∧ n * multiplier < 2 ^ 64) ∨ 2 ^ 64 ∣ n * multiplier)

/-! ### Units -/

theorem scale_of_mem {value : UInt64} {unit : Text} {multiplier : ℕ}
    (h : (unit, multiplier) ∈ units) : scale value unit = value * UInt64.ofNat multiplier := by
  simp only [units, List.mem_cons, Prod.mk.injEq, List.not_mem_nil, or_false] at h
  rcases h with ⟨rfl, rfl⟩ | ⟨rfl, rfl⟩ | ⟨rfl, rfl⟩ | ⟨rfl, rfl⟩ | ⟨rfl, rfl⟩ | ⟨rfl, rfl⟩ |
    ⟨rfl, rfl⟩ | ⟨rfl, rfl⟩ | ⟨rfl, rfl⟩ | ⟨rfl, rfl⟩ <;> simp [scale, unitMultiplier]

theorem unitMultiplier_mem {letter : Char} {multiplier : UInt64}
    (h : unitMultiplier letter = some multiplier) (hB : letter ≠ 'B') :
    ([letter, 'B'], multiplier.toNat) ∈ units := by
  unfold unitMultiplier at h
  split at h <;> first | cases h; decide | exact absurd rfl hB | cases h

theorem scale_of_notMem {value : UInt64} {unit : Text}
    (h : ∀ multiplier, (unit, multiplier) ∉ units) : scale value unit = 0 := by
  cases unit with
  | nil => exact absurd List.mem_cons_self (h 1)
  | cons letter rest =>
    simp only [scale]
    split
    · rfl
    · rename_i multiplier hmultiplier
      by_cases hB : letter = 'B'
      · subst hB
        by_cases hrest : rest = []
        · subst hrest
          exact absurd (by decide) (h 1)
        · rw [if_pos ⟨rfl, hrest⟩]
      · rw [if_neg fun hand => hB hand.1, if_pos]
        refine ⟨hB, ?_⟩
        rintro rfl
        exact h _ (unitMultiplier_mem hmultiplier hB)

theorem units_pos {unit : Text} {multiplier : ℕ} (h : (unit, multiplier) ∈ units) :
    0 < multiplier ∧ multiplier < 2 ^ 64 := by
  have hall : ∀ u ∈ units, 0 < u.2 ∧ u.2 < 2 ^ 64 := by decide
  exact hall _ h

theorem units_unique {unit : Text} {m m' : ℕ} (h : (unit, m) ∈ units) (h' : (unit, m') ∈ units) :
    m = m' := by
  have hall : ∀ u ∈ units, ∀ u' ∈ units, u.1 = u'.1 → u.2 = u'.2 := by decide
  exact hall _ h _ h' rfl

/-! ### Where the parts of a text end -/

/-- The first character, if there is one, fails `p`. -/
def Stops (p : Char → Bool) (s : Text) : Prop := ∀ c rest, s = c :: rest → p c = false

theorem takeWhile_append_of_stops {p : Char → Bool} {s t : Text} (hs : ∀ c ∈ s, p c = true)
    (ht : Stops p t) : (s ++ t).takeWhile p = s := by
  rw [List.takeWhile_append_of_pos hs]
  cases t with
  | nil => simp
  | cons c rest => simp [ht c rest rfl]

theorem dropWhile_append_of_stops {p : Char → Bool} {s t : Text} (hs : ∀ c ∈ s, p c = true)
    (ht : Stops p t) : (s ++ t).dropWhile p = t := by
  rw [List.dropWhile_append_of_pos hs]
  cases t with
  | nil => rfl
  | cons c rest => simp [ht c rest rfl]

theorem isDigit_of_isSpace {c : Char} (h : isSpace c = true) : c.isDigit = false := by
  simp only [isSpace, Bool.or_eq_true, decide_eq_true_eq] at h
  rcases h with ((((rfl | rfl) | rfl) | rfl) | rfl) | rfl <;> rfl

theorem isSpace_of_isDigit {c : Char} (h : c.isDigit = true) : isSpace c = false := by
  cases hspace : isSpace c with
  | false => rfl
  | true => rw [isDigit_of_isSpace hspace] at h; cases h

theorem units_stop {unit : Text} {multiplier : ℕ} (h : (unit, multiplier) ∈ units) :
    Stops isSpace unit ∧ Stops Char.isDigit unit := by
  have hall : ∀ u ∈ units, ∀ c, u.1.head? = some c → isSpace c = false ∧ c.isDigit = false := by
    simp only [units, List.forall_mem_cons]
    refine ⟨?_, ?_, ?_, ?_, ?_, ?_, ?_, ?_, ?_, ?_, by simp⟩ <;> rintro c ⟨⟩ <;> exact ⟨rfl, rfl⟩
  constructor
  · rintro c rest rfl
    exact (hall _ h c rfl).1
  · rintro c rest rfl
    exact (hall _ h c rfl).2

/-- White space in front of what does not start with `p`. -/
theorem stops_append {p : Char → Bool} {s t : Text} (hs : ∀ c ∈ s, p c = false) (ht : Stops p t) :
    Stops p (s ++ t) := by
  cases s with
  | nil => exact ht
  | cons d s =>
    rintro c rest ⟨⟩
    exact hs d List.mem_cons_self

theorem stops_isSpace_sign {sign number : Text} (hsign : IsSign sign)
    (hnumber : Stops isSpace number) : Stops isSpace (sign ++ number) := by
  rcases hsign with rfl | rfl | rfl
  · exact hnumber
  · rintro c rest ⟨⟩
    rfl
  · rintro c rest ⟨⟩
    rfl

/-- What the function finds in a text, step by step. -/
theorem reads_iff {s sign : Text} {n multiplier : ℕ} (hsign : IsSign sign) :
    Reads s sign n multiplier ↔
      ∃ number, s.dropWhile isSpace = sign ++ number ∧ number.takeWhile Char.isDigit ≠ [] ∧
        digits number = n ∧
        ((number.dropWhile Char.isDigit).dropWhile isSpace, multiplier) ∈ units := by
  constructor
  · rintro ⟨ws, ds, ws', unit, rfl, hws, hne, hds, rfl, hws', hunit⟩
    obtain ⟨hspace, hdigit⟩ := units_stop hunit
    have hstop : Stops Char.isDigit (ws' ++ unit) :=
      stops_append (fun c hc => isDigit_of_isSpace (hws' c hc)) hdigit
    have hnumber : Stops isSpace (ds ++ (ws' ++ unit)) := by
      obtain ⟨d, ds, rfl⟩ := List.exists_cons_of_ne_nil hne
      rintro c rest ⟨⟩
      exact isSpace_of_isDigit (hds d List.mem_cons_self)
    have htake := takeWhile_append_of_stops hds hstop
    refine ⟨ds ++ (ws' ++ unit), ?_, ?_, ?_, ?_⟩
    · exact dropWhile_append_of_stops hws (stops_isSpace_sign hsign hnumber)
    · rwa [htake]
    · rw [digits, digits, htake, List.takeWhile_eq_self_iff.mpr hds]
    · rw [dropWhile_append_of_stops hds hstop, dropWhile_append_of_stops hws' hspace]
      exact hunit
  · rintro ⟨number, hs, hne, rfl, hunit⟩
    refine ⟨s.takeWhile isSpace, number.takeWhile Char.isDigit,
      (number.dropWhile Char.isDigit).takeWhile isSpace, _, ?_, ?_, hne, ?_, ?_, ?_, hunit⟩
    · rw [List.takeWhile_append_dropWhile, List.takeWhile_append_dropWhile, ← hs,
        List.takeWhile_append_dropWhile]
    · exact fun c hc => List.mem_takeWhile_imp hc
    · exact fun c hc => List.mem_takeWhile_imp hc
    · rw [digits, digits, List.takeWhile_eq_self_iff.mpr fun c hc => List.mem_takeWhile_imp hc]
    · exact fun c hc => List.mem_takeWhile_imp hc

theorem splitSign_append {sign number : Text} (hsign : IsSign sign)
    (hne : number.takeWhile Char.isDigit ≠ []) :
    splitSign (sign ++ number) = (decide (sign = ['-']), number) := by
  rcases hsign with rfl | rfl | rfl
  · cases number with
    | nil => exact absurd rfl hne
    | cons c rest =>
      simp only [List.nil_append]
      unfold splitSign
      split
      · rename_i heq
        obtain ⟨rfl, -⟩ := List.cons.inj heq
        exact absurd rfl hne
      · rename_i heq
        obtain ⟨rfl, -⟩ := List.cons.inj heq
        exact absurd rfl hne
      · rfl
  · rfl
  · rfl

theorem sign_of_splitSign (t : Text) :
    ∃ sign, IsSign sign ∧ t = sign ++ (splitSign t).2 := by
  unfold splitSign
  split
  · exact ⟨['-'], .inr (.inr rfl), rfl⟩
  · exact ⟨['+'], .inr (.inl rfl), rfl⟩
  · exact ⟨[], .inl rfl, rfl⟩

/-! ### The value read -/

theorem memSize_of_reads {s sign : Text} {n multiplier : ℕ} (hsign : IsSign sign)
    (h : Reads s sign n multiplier) :
    memSize (some s) = readValue (decide (sign = ['-'])) n * UInt64.ofNat multiplier := by
  obtain ⟨number, hs, hne, rfl, hunit⟩ := (reads_iff hsign).mp h
  have hsome : s ≠ [] := by
    rintro rfl
    have hnil : number = [] := (List.append_eq_nil_iff.mp hs.symm).2
    exact hne (by rw [hnil]; rfl)
  simp only [memSize, if_neg hsome, strtoull, hs, splitSign_append hsign hne, if_neg hne]
  exact scale_of_mem hunit

theorem memSize_of_not_reads {s : Text}
    (h : ∀ sign n multiplier, IsSign sign → ¬ Reads s sign n multiplier) : memSize (some s) = 0 := by
  obtain ⟨sign, hsign, hsplit⟩ := sign_of_splitSign (s.dropWhile isSpace)
  simp only [memSize]
  split
  · rfl
  · unfold strtoull
    dsimp only
    by_cases hne : (splitSign (s.dropWhile isSpace)).2.takeWhile Char.isDigit = []
    · rw [if_pos hne]
    · rw [if_neg hne]
      apply scale_of_notMem
      intro multiplier hunit
      exact h sign _ multiplier hsign ((reads_iff hsign).mpr ⟨_, hsplit, hne, rfl, hunit⟩)

theorem reads_unique {s : Text} {n n' m m' : ℕ} (h : Reads s [] n m) {sign : Text}
    (hsign : IsSign sign) (h' : Reads s sign n' m') : sign = [] ∧ n = n' ∧ m = m' := by
  obtain ⟨number, hs, hne, rfl, hunit⟩ := (reads_iff (.inl rfl)).mp h
  obtain ⟨number', hs', hne', rfl, hunit'⟩ := (reads_iff hsign).mp h'
  rw [hs, List.nil_append] at hs'
  rcases hsign with rfl | rfl | rfl
  · obtain rfl : number = number' := hs'
    exact ⟨rfl, rfl, units_unique hunit hunit'⟩
  · rw [hs'] at hne
    exact absurd rfl hne
  · rw [hs'] at hne
    exact absurd rfl hne

theorem readValue_of_lt {n : ℕ} (hn : n < 2 ^ 64) (negative : Bool) :
    readValue negative n = if negative then -UInt64.ofNat n else UInt64.ofNat n := by
  rw [readValue, if_neg (Nat.not_le_of_lt hn)]

theorem toNat_value_mul {n m : ℕ} (hn : n < 2 ^ 64) :
    (readValue false n * UInt64.ofNat m).toNat = n * m % 2 ^ 64 := by
  rw [readValue_of_lt hn]
  simp only [Bool.false_eq_true, if_false]
  rw [← UInt64.ofNat_mul, UInt64.toNat_ofNat']

theorem value_mul_eq_zero_iff {n m : ℕ} {negative : Bool} (hpos : 0 < m) (hm : m < 2 ^ 64) :
    readValue negative n * UInt64.ofNat m = 0 ↔ n < 2 ^ 64 ∧ 2 ^ 64 ∣ n * m := by
  by_cases hn : n < 2 ^ 64
  · have hword : UInt64.ofNat n * UInt64.ofNat m = 0 ↔ 2 ^ 64 ∣ n * m := by
      rw [← UInt64.ofNat_mul, ← UInt64.toNat_inj, UInt64.toNat_ofNat', UInt64.toNat_zero]
      exact Nat.dvd_iff_mod_eq_zero.symm
    rw [readValue_of_lt hn, ← hword]
    cases negative with
    | false => exact (and_iff_right hn).symm
    | true =>
      rw [if_pos rfl, neg_mul, neg_eq_zero]
      exact (and_iff_right hn).symm
  · -- the largest word times the unit is the unit's negative
    have hmax : UInt64.ofNat (2 ^ 64 - 1) = -1 := by decide
    rw [readValue, if_pos (Nat.not_lt.mp hn), hmax, neg_one_mul, neg_eq_zero]
    refine iff_of_false ?_ fun h => hn h.1
    intro hzero
    have hnat := congrArg UInt64.toNat hzero
    rw [UInt64.toNat_ofNat_of_lt' hm] at hnat
    exact absurd hnat (Nat.ne_of_gt hpos)

theorem lt_of_mul_lt {n m : ℕ} (hpos : 0 < m) (h : n * m < 2 ^ 64) : n < 2 ^ 64 :=
  (Nat.le_mul_of_pos_right n hpos).trans_lt h

theorem reads_pos {s sign : Text} {n m : ℕ} (h : Reads s sign n m) : 0 < m ∧ m < 2 ^ 64 := by
  obtain ⟨_, _, _, _, _, _, _, _, _, _, hunit⟩ := h
  exact units_pos hunit

theorem isSizeOf_of_harmless {s : Text} (h : Harmless s) : IsSizeOf s (memSize (some s)) := by
  constructor
  · intro n m hreads hfits
    have hn := lt_of_mul_lt (reads_pos hreads).1 hfits
    rw [memSize_of_reads (.inl rfl) hreads]
    exact (toNat_value_mul hn).trans (Nat.mod_eq_of_lt hfits)
  · intro hnone
    by_cases hreads : ∃ sign n m, IsSign sign ∧ Reads s sign n m
    · obtain ⟨sign, n, m, hsign, hreads⟩ := hreads
      obtain ⟨hpos, hm⟩ := reads_pos hreads
      obtain ⟨hn, ⟨rfl, hfits⟩ | hdvd⟩ := h sign n m hsign hreads
      · exact absurd ⟨n, m, hreads, hfits⟩ hnone
      · rw [memSize_of_reads hsign hreads]
        exact (value_mul_eq_zero_iff hpos hm).mpr ⟨hn, hdvd⟩
    · apply memSize_of_not_reads
      intro sign n m hsign hreads'
      exact hreads ⟨sign, n, m, hsign, hreads'⟩

theorem harmless_of_isSizeOf {s : Text} (h : IsSizeOf s (memSize (some s))) : Harmless s := by
  intro sign n m hsign hreads
  obtain ⟨hpos, hm⟩ := reads_pos hreads
  by_cases hfits : ∃ n' m', Reads s [] n' m' ∧ n' * m' < 2 ^ 64
  · obtain ⟨n', m', hreads', hfits⟩ := hfits
    obtain ⟨rfl, rfl, rfl⟩ := reads_unique hreads' hsign hreads
    exact ⟨lt_of_mul_lt hpos hfits, .inl ⟨rfl, hfits⟩⟩
  · have hzero := h.2 hfits
    rw [memSize_of_reads hsign hreads] at hzero
    obtain ⟨hn, hdvd⟩ := (value_mul_eq_zero_iff hpos hm).mp hzero
    exact ⟨hn, .inr hdvd⟩

/-- The functions read a size right, and answer 0 to all else, exactly where a sign
    or an overflow leaves nothing behind. -/
theorem isSizeOf_iff_harmless (string : Text) :
    (IsSizeOf string (lmMemSzFromString (some string)) ∧
        IsSizeOf string (sdbMemSizeFromString (some string))) ↔ Harmless string := by
  have hone : IsSizeOf string (memSize (some string)) ↔ Harmless string :=
    ⟨harmless_of_isSizeOf, isSizeOf_of_harmless⟩
  exact (and_self_iff).trans hone

/-- `-1` is the size of the whole address space. -/
theorem minusOne_not_isSizeOf :
    ¬ ∀ string : Text, IsSizeOf string (lmMemSzFromString (some string)) ∧
      IsSizeOf string (sdbMemSizeFromString (some string)) := by
  intro h
  have hzero := (h ['-', '1']).1.2 ?_
  · exact absurd hzero (by decide)
  · rintro ⟨n, m, hreads, -⟩
    obtain ⟨number, hs, hne, -⟩ := (reads_iff (.inl rfl)).mp hreads
    obtain rfl : ['-', '1'] = number := hs
    exact hne rfl

end Lmalloc.Strings.MemSize
