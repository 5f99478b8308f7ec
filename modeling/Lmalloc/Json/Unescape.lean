/-
  Lmalloc/Json/Unescape.lean
  ==========================
  **The output of `parse_string` fits its allocation.**

  The first pass counts the pairs of a backslash and the character behind it, and
  the allocation leaves one byte out for each.  The second pass does not walk over
  the same pairs: a literal `\uXXXX` whose digits are not digits may end between
  the two characters of a pair, and the pass may even step over the closing quote.

  `pairsBefore` counts the pairs of the first pass that start before a position;
  whatever the second pass has written up to there is at least so much shorter
  than what it has read.
-/
import Lmalloc.Json.Parse

namespace Lmalloc.Json

/-! ### The pairs of the first pass -/

/-- One where a pair starts, zero elsewhere. -/
def pairStarts : List UInt8 → List ℕ
  | [] => []
  | [c] => [if c = backslash then 1 else 0]
  | c :: d :: rest =>
      if c = backslash then 1 :: 0 :: pairStarts rest else 0 :: pairStarts (d :: rest)

def pairsBefore (text : List UInt8) (i : ℕ) : ℕ := ((pairStarts text).take i).sum

/-- No two ones stand side by side. -/
def Sparse (marks : List ℕ) : Prop := marks.IsChain fun a b => a + b ≤ 1

theorem Sparse.tail {a : ℕ} {marks : List ℕ} (h : Sparse (a :: marks)) : Sparse marks :=
  List.IsChain.tail h

theorem Sparse.two_mul_sum_le {marks : List ℕ} (hone : ∀ a ∈ marks, a ≤ 1) (h : Sparse marks) :
    2 * marks.sum ≤ marks.length + 1 := by
  induction marks using List.twoStepInduction with
  | nil => simp
  | singleton a =>
    have ha := hone a (by simp)
    simp only [List.sum_cons, List.sum_nil, List.length_singleton]
    omega
  | cons_cons a b rest ih _ =>
    have hab : a + b ≤ 1 := (List.isChain_cons_cons.mp h).1
    have hrest := ih (fun x hx => hone x (by simp [hx])) h.tail.tail
    simp only [List.sum_cons, List.length_cons]
    omega

theorem pairStarts_le_one (text : List UInt8) : ∀ a ∈ pairStarts text, a ≤ 1 := by
  fun_induction pairStarts text with
  | case1 => simp
  | case2 c => split <;> simp
  | case3 d rest ih =>
    intro a ha
    rcases List.mem_cons.mp ha with rfl | ha
    · exact Nat.le_refl 1
    rcases List.mem_cons.mp ha with rfl | ha
    · exact Nat.zero_le 1
    · exact ih a ha
  | case4 c d rest hc ih =>
    intro a ha
    rcases List.mem_cons.mp ha with rfl | ha
    · exact Nat.zero_le 1
    · exact ih a ha

theorem sparse_cons_zero {marks : List ℕ} (hone : ∀ a ∈ marks, a ≤ 1) (h : Sparse marks) :
    Sparse (0 :: marks) := by
  cases marks with
  | nil => exact List.isChain_singleton 0
  | cons a rest =>
    refine List.isChain_cons_cons.mpr ⟨?_, h⟩
    have ha := hone a (by simp)
    omega

theorem sparse_pairStarts (text : List UInt8) : Sparse (pairStarts text) := by
  fun_induction pairStarts text with
  | case1 => exact List.isChain_nil
  | case2 c => exact List.isChain_singleton _
  | case3 d rest ih =>
    exact List.isChain_cons_cons.mpr ⟨Nat.le_refl 1, sparse_cons_zero (pairStarts_le_one _) ih⟩
  | case4 c d rest hc ih => exact sparse_cons_zero (pairStarts_le_one _) ih

/-- Of `k` characters at most every second one starts a pair. -/
theorem two_mul_pairsBefore_add_le (text : List UInt8) (i k : ℕ) :
    2 * pairsBefore text (i + k) ≤ 2 * pairsBefore text i + k + 1 := by
  have hsplit : pairsBefore text (i + k) =
      pairsBefore text i + (((pairStarts text).drop i).take k).sum := by
    simp only [pairsBefore, List.take_add, List.sum_append]
  have hsparse : Sparse (((pairStarts text).drop i).take k) :=
    ((sparse_pairStarts text).drop i).take k
  have hbound := hsparse.two_mul_sum_le fun a ha =>
    pairStarts_le_one text a (List.mem_of_mem_drop (List.mem_of_mem_take ha))
  have hlen : (((pairStarts text).drop i).take k).length ≤ k := List.length_take_le _ _
  omega

theorem pairsBefore_mono (text : List UInt8) (i k : ℕ) :
    pairsBefore text i ≤ pairsBefore text (i + k) := by
  simp only [pairsBefore, List.take_add, List.sum_append]
  exact Nat.le_add_right _ _

theorem pairsBefore_add_le (text : List UInt8) (i k : ℕ) :
    pairsBefore text (i + k) ≤ pairsBefore text i + k := by
  have h := two_mul_pairsBefore_add_le text i k
  induction k with
  | zero => exact Nat.le_refl _
  | succ k ih =>
    have hk := ih (two_mul_pairsBefore_add_le text i k)
    have hone := two_mul_pairsBefore_add_le text (i + k) 1
    rw [← Nat.add_assoc]
    omega

/-- A pair starts with a backslash. -/
theorem pairsBefore_succ {text : List UInt8} {i : ℕ} {c : UInt8} (hc : text[i]? = some c)
    (hne : c ≠ backslash) : pairsBefore text (i + 1) = pairsBefore text i := by
  unfold pairsBefore
  induction i using Nat.strong_induction_on generalizing text with
  | _ i ih =>
    match text, i with
    | [], _ => cases hc
    | [d], 0 =>
      cases hc
      simp [pairStarts, hne]
    | [d], i + 1 => simp [pairStarts]
    | d :: e :: rest, 0 =>
      cases hc
      simp [pairStarts, hne]
    | d :: e :: rest, 1 =>
      cases hc
      by_cases hd : d = backslash
      · simp [pairStarts, hd]
      · have hrest := ih 0 (by omega) (show (c :: rest)[0]? = some c from rfl)
        simpa [pairStarts, hd] using hrest
    | d :: e :: rest, i + 2 =>
      by_cases hd : d = backslash
      · have hrest := ih i (by omega) (show rest[i]? = some c by simpa using hc)
        simpa [pairStarts, hd] using hrest
      · have hrest := ih (i + 1) (by omega) (show (e :: rest)[i + 1]? = some c by simpa using hc)
        simpa [pairStarts, hd] using hrest

/-- What the first pass finds: the closing quote, and the pairs before it. -/
theorem scanString_eq_some {text : List UInt8} {n skipped : ℕ}
    (h : scanString text = some (n, skipped)) :
    text[n]? = some quote ∧ pairsBefore text n = skipped := by
  induction hlen : text.length using Nat.strong_induction_on generalizing text n skipped with
  | _ len ih =>
    subst hlen
    match text with
    | [] => cases h
    | [c] =>
      simp only [scanString] at h
      split at h
      · next hc =>
        cases h
        exact ⟨by rw [hc]; rfl, rfl⟩
      · split at h <;> cases h
    | c :: d :: rest =>
      rw [scanString] at h
      split at h
      · next hc =>
        cases h
        exact ⟨by rw [hc]; rfl, rfl⟩
      · split at h
        · next hc =>
          obtain ⟨⟨m, s⟩, hm, heq⟩ := Option.map_eq_some_iff.mp h
          cases heq
          obtain ⟨hquote, hpairs⟩ := ih _ (by simp) hm rfl
          refine ⟨by simpa using hquote, ?_⟩
          simp only [pairsBefore, pairStarts, if_pos hc, List.take_succ_cons, List.sum_cons]
          rw [← hpairs, pairsBefore]
          omega
        · next hc =>
          obtain ⟨⟨m, s⟩, hm, heq⟩ := Option.map_eq_some_iff.mp h
          cases heq
          obtain ⟨hquote, hpairs⟩ := ih _ (by simp) hm rfl
          refine ⟨by simpa using hquote, ?_⟩
          simp only [pairsBefore, pairStarts, if_neg hc, List.take_succ_cons, List.sum_cons,
            Nat.zero_add]
          rw [← hpairs, pairsBefore]

/-! ### The second pass -/

theorem utf16LiteralToUtf8_isSome {content : List UInt8} {inputPointer inputEnd : ℕ}
    (hend : inputEnd ≤ content.length) :
    (utf16LiteralToUtf8 content inputPointer inputEnd).isSome := by
  have hhex : ∀ i, i + 4 ≤ inputEnd → ∃ v, parseHex4 content i = some v := fun i hi =>
    Option.isSome_iff_exists.mp (parseHexLoop_isSome 0 (Nat.le_trans hi hend))
  have hread : ∀ i, i < inputEnd → ∃ c, content[i]? = some c := fun i hi =>
    ⟨_, List.getElem?_eq_getElem (Nat.lt_of_lt_of_le hi hend)⟩
  rw [utf16LiteralToUtf8, Option.isSome_map, literalCodepoint]
  split
  · rfl
  obtain ⟨first, hfirst⟩ := hhex (inputPointer + 2) (by omega)
  rw [hfirst, Option.bind_some]
  split
  · rfl
  split
  · dsimp only
    split
    · rfl
    obtain ⟨c0, h0⟩ := hread (inputPointer + 6) (by omega)
    obtain ⟨c1, h1⟩ := hread (inputPointer + 6 + 1) (by omega)
    obtain ⟨second, hsecond⟩ := hhex (inputPointer + 6 + 2) (by omega)
    simp only [h0, h1, Option.bind_some]
    split
    · rfl
    simp only [hsecond, Option.bind_some]
    split <;> rfl
  · rfl

/-- A literal gives at most three bytes, or four when it is two of them. -/
theorem utf16LiteralToUtf8_eq_some {content bytes : List UInt8} {inputPointer inputEnd len : ℕ}
    (h : utf16LiteralToUtf8 content inputPointer inputEnd = some (some (bytes, len))) :
    inputPointer + len ≤ inputEnd ∧
      (len = 6 ∧ bytes.length ≤ 3 ∨ len = 12 ∧ bytes.length ≤ 4) := by
  obtain ⟨literal, hliteral, h⟩ := Option.map_eq_some_iff.mp h
  obtain ⟨⟨codepoint, len'⟩, rfl, h⟩ := Option.bind_eq_some_iff.mp h
  obtain ⟨bytes', hbytes, heq⟩ := Option.map_eq_some_iff.mp h
  cases heq
  obtain ⟨-, hle, hlen⟩ := literalCodepoint_eq_some hliteral
  obtain ⟨-, hfour, hthree⟩ := length_encodeUtf8 hbytes
  exact ⟨hle, hlen.imp (fun hlen => ⟨hlen.1, hthree hlen.2⟩) fun hlen => ⟨hlen, hfour⟩⟩

section Room

variable {content : List UInt8} {start n skipped : ℕ}

/-- The size `parse_string` allocates for `n` characters between the quotes. -/
def outputSize (n skipped : ℕ) : ℕ := n + 1 - skipped + 1

/-- There is room for bytes that keep the output as short as the pairs ask for, and
    for the `NUL` behind them. -/
theorem putBytes_eq_some {text output bytes : List UInt8} (hscan : pairsBefore text n = skipped)
    {i : ℕ} (hi : i ≤ n + 1) (hroom : output.length + bytes.length + pairsBefore text i ≤ i) :
    putBytes (outputSize n skipped) output bytes = some (output ++ bytes) ∧
      (output ++ bytes).length + 1 ≤ outputSize n skipped := by
  have hskipped : pairsBefore text n ≤ n := by
    have h := pairsBefore_add_le text 0 n
    simpa [pairsBefore] using h
  have hfit : output.length + bytes.length ≤ n + 1 - skipped := by
    rcases Nat.lt_or_ge n i with hlt | hge
    · obtain rfl : i = n + 1 := by omega
      have hmono := pairsBefore_mono text n 1
      omega
    · have hstep := pairsBefore_add_le text i (n - i)
      rw [Nat.add_sub_cancel' hge] at hstep
      omega
  rw [putBytes, outputSize, List.length_append, if_pos (by omega)]
  exact ⟨rfl, by omega⟩

/-- **The second pass reads the content and writes its allocation, nothing else.** -/
theorem unescapeLoop_safe (hscan : scanString (content.drop start) = some (n, skipped))
    (fuel i : ℕ) (output : List UInt8) (hfuel : n + 1 < fuel + i) (hi : i ≤ n + 1)
    (hroom : output.length + pairsBefore (content.drop start) i ≤ i) :
    ∃ result pointer,
      unescapeLoop content (start + n) (outputSize n skipped) fuel (start + i) output =
        some (result, pointer) ∧
      pointer ≤ content.length ∧ ∀ o ∈ result, o.length ≤ outputSize n skipped := by
  obtain ⟨hquote, hpairs⟩ := scanString_eq_some hscan
  have hn : start + n < content.length := by
    have h := (List.getElem?_eq_some_iff.mp hquote).1
    rw [List.length_drop] at h
    omega
  induction fuel generalizing i output with
  | zero => omega
  | succ fuel ih =>
    -- one round writes `bytes` and goes on `k` characters
    have hround : ∀ bytes k, 0 < k → i + k ≤ n + 1 →
        output.length + bytes.length + pairsBefore (content.drop start) (i + k) ≤ i + k →
        ∃ result pointer,
          (putBytes (outputSize n skipped) output bytes).bind
              (unescapeLoop content (start + n) (outputSize n skipped) fuel (start + i + k)) =
            some (result, pointer) ∧
          pointer ≤ content.length ∧ ∀ o ∈ result, o.length ≤ outputSize n skipped := by
      intro bytes k hk hle hbytes
      obtain ⟨hput, -⟩ := putBytes_eq_some hpairs hle hbytes
      rw [hput, Option.bind_some, Nat.add_assoc]
      exact ih (i + k) (output ++ bytes) (by omega) hle (by rw [List.length_append]; omega)
    rw [unescapeLoop]
    by_cases hlt : start + i < start + n
    · rw [if_pos hlt]
      have hi' : start + i < content.length := by omega
      have hi'' : start + i + 1 < content.length := by omega
      have hc : content[start + i]? = some content[start + i] := List.getElem?_eq_getElem hi'
      have hd : content[start + i + 1]? = some content[start + i + 1] :=
        List.getElem?_eq_getElem hi''
      have htwo := two_mul_pairsBefore_add_le (content.drop start) i 2
      rw [hc, Option.bind_some]
      split
      · next hne =>
        have hsame : pairsBefore (content.drop start) (i + 1) =
            pairsBefore (content.drop start) i :=
          pairsBefore_succ (by rw [List.getElem?_drop]; exact hc) hne
        exact hround [_] 1 (by omega) (by omega)
          (by rw [hsame]; simp only [List.length_singleton]; omega)
      · rw [hd, Option.bind_some]
        split
        · exact hround [_] 2 (by omega) (by omega) (by simp only [List.length_singleton]; omega)
        · split
          · obtain ⟨literal, hliteral⟩ : ∃ literal,
                utf16LiteralToUtf8 content (start + i) (start + n) = some literal :=
              Option.isSome_iff_exists.mp (utf16LiteralToUtf8_isSome (Nat.le_of_lt hn))
            rw [hliteral, Option.bind_some]
            rcases literal with - | ⟨bytes, len⟩
            · exact ⟨none, start + i, rfl, by omega, by simp⟩
            · obtain ⟨hle, hlen⟩ := utf16LiteralToUtf8_eq_some hliteral
              have hstep := two_mul_pairsBefore_add_le (content.drop start) i len
              rcases hlen with ⟨rfl, hbytes⟩ | ⟨rfl, hbytes⟩
              · exact hround bytes 6 (by omega) (by omega) (by omega)
              · exact hround bytes 12 (by omega) (by omega) (by omega)
          · exact ⟨none, start + i, rfl, by omega, by simp⟩
    · rw [if_neg hlt]
      obtain ⟨-, hfit⟩ := putBytes_eq_some hpairs hi
        (show output.length + ([] : List UInt8).length + _ ≤ i by simpa using hroom)
      rw [List.append_nil] at hfit
      rw [putBytes, List.length_singleton, if_pos hfit, Option.map_some]
      refine ⟨_, _, rfl, by omega, ?_⟩
      intro o ho
      obtain rfl := Option.mem_some_iff.mp ho
      simpa using hfit

end Room

end Lmalloc.Json
