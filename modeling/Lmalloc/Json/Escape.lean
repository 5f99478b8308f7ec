/-
  Lmalloc/Json/Escape.lean
  ========================
  **The `\u` escapes of `cJSON.c`.**

  A literal is `\uXXXX`, or two of them for a code point above 16 bits.  The text
  of a document is the list `content`, and a read past its end has no result.

  `parse_hex4` answers 0 to four characters that are not all hexadecimal digits,
  so such a literal is not refused: it stands for the code point 0.
-/
import Mathlib

namespace Lmalloc.Json

def quote : UInt8 := 34
def backslash : UInt8 := 92
def letterU : UInt8 := 117

/-! ### Four hexadecimal digits -/

def hexDigit (c : UInt8) : Option ℕ :=
  if 48 ≤ c ∧ c ≤ 57 then some (c.toNat - 48)
  else if 65 ≤ c ∧ c ≤ 70 then some (10 + c.toNat - 65)
  else if 97 ≤ c ∧ c ≤ 102 then some (10 + c.toNat - 97)
  else none

/-- The loop of `parse_hex4`, with `n` digits to go and `h` as it is. -/
def parseHexLoop (content : List UInt8) (input : ℕ) : ℕ → ℕ → Option ℕ
  | 0, h => some h
  | n + 1, h =>
      (content[input]?).bind fun c =>
        match hexDigit c with
        | none => some 0
        | some d =>
            -- no shift after the last digit
            let h := if n = 0 then h + d else (h + d) <<< 4
            parseHexLoop content (input + 1) n h

def parseHex4 (content : List UInt8) (input : ℕ) : Option ℕ := parseHexLoop content input 4 0

/-! ### From UTF-16 to UTF-8 -/

/-- The loop that encodes the continuation bytes, last one first. -/
def encodeContinuation : ℕ → ℕ → List UInt8 → ℕ × List UInt8
  | 0, codepoint, bytes => (codepoint, bytes)
  | n + 1, codepoint, bytes =>
      encodeContinuation n (codepoint >>> 6)
        (UInt8.ofNat ((codepoint ||| 0x80) &&& 0xBF) :: bytes)

/-- `utf8_length` and `first_byte_mark`. -/
def utf8Shape (codepoint : ℕ) : Option (ℕ × ℕ) :=
  if codepoint < 0x80 then some (1, 0)
  else if codepoint < 0x800 then some (2, 0xC0)
  else if codepoint < 0x10000 then some (3, 0xE0)
  else if codepoint ≤ 0x10FFFF then some (4, 0xF0)
  else none

def encodeUtf8 (codepoint : ℕ) : Option (List UInt8) :=
  (utf8Shape codepoint).map fun (utf8Length, firstByteMark) =>
    let (rest, bytes) := encodeContinuation (utf8Length - 1) codepoint []
    if 1 < utf8Length then UInt8.ofNat ((rest ||| firstByteMark) &&& 0xFF) :: bytes
    else [UInt8.ofNat (rest &&& 0x7F)]

/-- The code point of the literal at `inputPointer`, and the length of the literal;
    the inner `none` is `goto fail`. -/
def literalCodepoint (content : List UInt8) (inputPointer inputEnd : ℕ) :
    Option (Option (ℕ × ℕ)) :=
  if inputEnd - inputPointer < 6 then some none
  else
    (parseHex4 content (inputPointer + 2)).bind fun firstCode =>
      if 0xDC00 ≤ firstCode ∧ firstCode ≤ 0xDFFF then some none
      else if 0xD800 ≤ firstCode ∧ firstCode ≤ 0xDBFF then
        let secondSequence := inputPointer + 6
        if inputEnd - secondSequence < 6 then some none
        else
          (content[secondSequence]?).bind fun c0 =>
            (content[secondSequence + 1]?).bind fun c1 =>
              if c0 ≠ backslash ∨ c1 ≠ letterU then some none
              else
                (parseHex4 content (secondSequence + 2)).bind fun secondCode =>
                  if secondCode < 0xDC00 ∨ 0xDFFF < secondCode then some none
                  else
                    some (some (0x10000 +
                      (((firstCode &&& 0x3FF) <<< 10) ||| (secondCode &&& 0x3FF)), 12))
      else some (some (firstCode, 6))

/-- `utf16_literal_to_utf8`: the bytes written, and the length of the literal. -/
def utf16LiteralToUtf8 (content : List UInt8) (inputPointer inputEnd : ℕ) :
    Option (Option (List UInt8 × ℕ)) :=
  (literalCodepoint content inputPointer inputEnd).map fun literal =>
    literal.bind fun (codepoint, sequenceLength) =>
      (encodeUtf8 codepoint).map fun bytes => (bytes, sequenceLength)

/-! ### What the encoder writes -/

theorem and_or_continuation (n : ℕ) : (n ||| 0x80) &&& 0xBF = n % 64 + 128 := by
  have hlow : ∀ m < 256, (m ||| 0x80) &&& 0xBF = m % 64 + 128 := by decide +kernel
  have hand : (n ||| 0x80) &&& 0xBF = ((n ||| 0x80) &&& 0xBF) % 2 ^ 8 :=
    (Nat.mod_eq_of_lt (Nat.lt_of_le_of_lt Nat.and_le_right (by decide))).symm
  rw [hand, Nat.and_mod_two_pow, Nat.or_mod_two_pow]
  have hmod := hlow (n % 2 ^ 8) (Nat.mod_lt n (by decide))
  have hred : n % 2 ^ 8 % 64 = n % 64 := by omega
  rw [hred] at hmod
  exact hmod

theorem and_or_mark {n k m : ℕ} (hn : n < 2 ^ k) (hm : m = 2 ^ k * (m / 2 ^ k)) (hle : m < 256)
    (hk : k ≤ 8) : (n ||| m) &&& 0xFF = n + m := by
  have hor : n ||| m = n + m := by
    rw [Nat.or_comm, hm, ← Nat.two_pow_add_eq_or_of_lt hn, Nat.add_comm]
  have hlt : n ||| m < 2 ^ 8 :=
    Nat.or_lt_two_pow (Nat.lt_of_lt_of_le hn (Nat.pow_le_pow_right (by decide) hk)) hle
  rw [show 0xFF = 2 ^ 8 - 1 from rfl, Nat.and_two_pow_sub_one_of_lt_two_pow hlt, hor]

/-- The bytes of a code point, by its size. -/
theorem encodeUtf8_eq (n : ℕ) : encodeUtf8 n =
    if n < 0x80 then some [UInt8.ofNat n]
    else if n < 0x800 then some [UInt8.ofNat (n / 64 + 0xC0), UInt8.ofNat (n % 64 + 0x80)]
    else if n < 0x10000 then
      some [UInt8.ofNat (n / 4096 + 0xE0), UInt8.ofNat (n / 64 % 64 + 0x80),
        UInt8.ofNat (n % 64 + 0x80)]
    else if n ≤ 0x10FFFF then
      some [UInt8.ofNat (n / 262144 + 0xF0), UInt8.ofNat (n / 4096 % 64 + 0x80),
        UInt8.ofNat (n / 64 % 64 + 0x80), UInt8.ofNat (n % 64 + 0x80)]
    else none := by
  unfold encodeUtf8 utf8Shape
  by_cases h1 : n < 0x80
  · have hand : n &&& 0x7F = n := Nat.and_two_pow_sub_one_of_lt_two_pow (n := 7) h1
    simp only [if_pos h1, Option.map_some]
    change some [UInt8.ofNat (n &&& 0x7F)] = some [UInt8.ofNat n]
    rw [hand]
  rw [if_neg h1, if_neg h1]
  by_cases h2 : n < 0x800
  · have hmark := and_or_mark (n := n / 64) (k := 5) (m := 0xC0) (by omega) (by decide) (by decide)
      (by decide)
    simp only [if_pos h2, Option.map_some, encodeContinuation, and_or_continuation,
      Nat.shiftRight_eq_div_pow, Nat.reducePow, hmark]
    rfl
  rw [if_neg h2, if_neg h2]
  by_cases h3 : n < 0x10000
  · have hmark := and_or_mark (n := n / 4096) (k := 4) (m := 0xE0) (by omega) (by decide)
      (by decide) (by decide)
    simp only [if_pos h3, Option.map_some, encodeContinuation, and_or_continuation,
      Nat.shiftRight_eq_div_pow, Nat.reducePow, Nat.div_div_eq_div_mul, Nat.reduceMul, hmark]
    rfl
  rw [if_neg h3, if_neg h3]
  by_cases h4 : n ≤ 0x10FFFF
  · have hmark := and_or_mark (n := n / 262144) (k := 3) (m := 0xF0) (by omega) (by decide)
      (by decide) (by decide)
    simp only [if_pos h4, Option.map_some, encodeContinuation, and_or_continuation,
      Nat.shiftRight_eq_div_pow, Nat.reducePow, Nat.div_div_eq_div_mul, Nat.reduceMul, hmark]
    rfl
  · rw [if_neg h4, if_neg h4, Option.map_none]

theorem not_surrogate (c : Char) : c.toNat < 0xD800 ∨ 0xDFFF < c.toNat ∧ c.toNat < 0x110000 :=
  c.valid

/-- **The encoder is UTF-8.** -/
theorem encodeUtf8_char (c : Char) : encodeUtf8 c.toNat = some (String.utf8EncodeChar c) := by
  have hvalid := not_surrogate c
  have hv : c.val.toNat = c.toNat := rfl
  rw [encodeUtf8_eq]
  simp only [String.utf8EncodeChar, hv]
  generalize c.toNat = n at hvalid
  by_cases h1 : n < 0x80
  · rw [if_pos h1, if_pos (by omega)]
  by_cases h2 : n < 0x800
  · have hfirst : n / 64 % 0x20 = n / 64 := by omega
    rw [if_neg h1, if_pos h2, if_neg (by omega), if_pos (by omega), hfirst]
  by_cases h3 : n < 0x10000
  · have hfirst : n / 4096 % 0x10 = n / 4096 := by omega
    rw [if_neg h1, if_neg h2, if_pos h3, if_neg (by omega), if_neg (by omega), if_pos (by omega),
      hfirst]
  · have hfirst : n / 262144 % 0x08 = n / 262144 := by omega
    rw [if_neg h1, if_neg h2, if_neg h3, if_pos (by omega), if_neg (by omega), if_neg (by omega),
      if_neg (by omega), hfirst]

theorem length_encodeUtf8 {n : ℕ} {bytes : List UInt8} (h : encodeUtf8 n = some bytes) :
    1 ≤ bytes.length ∧ bytes.length ≤ 4 ∧ (n < 0x10000 → bytes.length ≤ 3) := by
  rw [encodeUtf8_eq] at h
  split_ifs at h <;> cases h <;> simp; omega

/-! ### Reading literals -/

def hexValue : List UInt8 → Option ℕ
  | [] => some 0
  | c :: cs => (hexDigit c).bind fun d => (hexValue cs).map fun v => d * 16 ^ cs.length + v

theorem hexDigit_lt {c : UInt8} {d : ℕ} (h : hexDigit c = some d) : d < 16 := by
  unfold hexDigit at h
  simp only [UInt8.le_iff_toNat_le] at h
  split_ifs at h with h1 h2 h3
  · cases h
    have h9 : c.toNat ≤ 57 := h1.2
    omega
  · cases h
    have hF : c.toNat ≤ 70 := h2.2
    omega
  · cases h
    have hf : c.toNat ≤ 102 := h3.2
    omega

theorem parseHexLoop_digits {content rest : List UInt8} {input : ℕ} {ds : List UInt8} {v : ℕ}
    (hcontent : content.drop input = ds ++ rest) (hv : hexValue ds = some v) {n : ℕ}
    (hlen : ds.length = n + 1) (h : ℕ) :
    parseHexLoop content input (n + 1) h = some (h * 16 ^ n + v) := by
  induction n generalizing input ds v h with
  | zero =>
    obtain ⟨c, rfl⟩ := List.length_eq_one_iff.mp hlen
    have hc : content[input]? = some c := by
      rw [← Nat.add_zero input, ← List.getElem?_drop, hcontent]
      rfl
    obtain ⟨d, hd, hv⟩ := Option.bind_eq_some_iff.mp hv
    simp only [hexValue, Option.map_some, List.length_nil, pow_zero, mul_one, add_zero,
      Option.some.injEq] at hv
    simp [parseHexLoop, hc, hd, hv]
  | succ n ih =>
    obtain ⟨c, cs, rfl⟩ := List.exists_cons_of_length_eq_add_one hlen
    have hc : content[input]? = some c := by
      rw [← Nat.add_zero input, ← List.getElem?_drop, hcontent]
      rfl
    have hcs : content.drop (input + 1) = cs ++ rest := by
      rw [← List.drop_drop, hcontent]
      rfl
    obtain ⟨d, hd, hv⟩ := Option.bind_eq_some_iff.mp hv
    obtain ⟨w, hw, rfl⟩ := Option.map_eq_some_iff.mp hv
    have hlen' : cs.length = n + 1 := by simpa using hlen
    have hrest := ih hcs hw hlen' ((h + d) <<< 4)
    rw [parseHexLoop, hc]
    simp only [Option.bind_some, hd, Nat.succ_ne_zero, if_false, hrest, Option.some.injEq]
    rw [Nat.shiftLeft_eq, hlen']
    ring

theorem parseHexLoop_lt {content : List UInt8} {input n h v : ℕ}
    (hv : parseHexLoop content input (n + 1) h = some v) : v < (h + 16) * 16 ^ n := by
  induction n generalizing input h with
  | zero =>
    rw [parseHexLoop] at hv
    obtain ⟨c, -, hv⟩ := Option.bind_eq_some_iff.mp hv
    split at hv
    · cases hv
      positivity
    · next d hd =>
      have hlt := hexDigit_lt hd
      simp only [if_true, parseHexLoop, Option.some.injEq] at hv
      omega
  | succ n ih =>
    rw [parseHexLoop] at hv
    obtain ⟨c, -, hv⟩ := Option.bind_eq_some_iff.mp hv
    split at hv
    · cases hv
      positivity
    · next d hd =>
      have hlt := hexDigit_lt hd
      simp only [Nat.succ_ne_zero, if_false] at hv
      have hbound := ih hv
      rw [Nat.shiftLeft_eq] at hbound
      calc v < ((h + d) * 2 ^ 4 + 16) * 16 ^ n := hbound
        _ ≤ ((h + 16) * 16) * 16 ^ n := Nat.mul_le_mul_right _ (by omega)
        _ = (h + 16) * 16 ^ (n + 1) := by ring

theorem parseHex4_lt {content : List UInt8} {input v : ℕ} (h : parseHex4 content input = some v) :
    v < 0x10000 :=
  parseHexLoop_lt h

/-- Four digits are a code unit. -/
theorem parseHex4_digits {content rest ds : List UInt8} {input v : ℕ}
    (hcontent : content.drop input = ds ++ rest) (hlen : ds.length = 4)
    (hv : hexValue ds = some v) : parseHex4 content input = some v := by
  rw [parseHex4, parseHexLoop_digits hcontent hv hlen]
  simp

/-- Enough characters for the digits, and they are read. -/
theorem parseHexLoop_isSome {content : List UInt8} {input n : ℕ} (h : ℕ)
    (hle : input + n ≤ content.length) : (parseHexLoop content input n h).isSome := by
  induction n generalizing input h with
  | zero => rfl
  | succ n ih =>
    rw [parseHexLoop, List.getElem?_eq_getElem (by omega), Option.bind_some]
    split
    · rfl
    · exact ih _ (by omega)

/-! ### Escapes of characters -/

/-- The text is an escape of the character: its one UTF-16 unit, or its two. -/
inductive Escapes : Char → List UInt8 → Prop where
  | unit {c : Char} {ds : List UInt8} (hlen : ds.length = 4) (hv : hexValue ds = some c.toNat)
      (hc : c.toNat < 0x10000) : Escapes c (backslash :: letterU :: ds)
  | pair {c : Char} {hi lo : List UInt8} (hhi : hi.length = 4) (hlo : lo.length = 4)
      (hc : 0x10000 ≤ c.toNat)
      (hvhi : hexValue hi = some (0xD800 + (c.toNat - 0x10000) / 0x400))
      (hvlo : hexValue lo = some (0xDC00 + (c.toNat - 0x10000) % 0x400)) :
      Escapes c (backslash :: letterU :: hi ++ backslash :: letterU :: lo)

/-- The two halves of a code point above 16 bits, put together again. -/
theorem join_surrogates {n : ℕ} (hlow : 0x10000 ≤ n) (hhigh : n < 0x110000) :
    0x10000 + ((((0xD800 + (n - 0x10000) / 0x400) &&& 0x3FF) <<< 10) |||
      ((0xDC00 + (n - 0x10000) % 0x400) &&& 0x3FF)) = n := by
  have hfirst : (0xD800 + (n - 0x10000) / 0x400) &&& 0x3FF = (n - 0x10000) / 0x400 := by
    rw [show 0x3FF = 2 ^ 10 - 1 from rfl, Nat.and_two_pow_sub_one_eq_mod]
    omega
  have hsecond : (0xDC00 + (n - 0x10000) % 0x400) &&& 0x3FF = (n - 0x10000) % 0x400 := by
    rw [show 0x3FF = 2 ^ 10 - 1 from rfl, Nat.and_two_pow_sub_one_eq_mod]
    omega
  rw [hfirst, hsecond, ← Nat.shiftLeft_add_eq_or_of_lt (by omega), Nat.shiftLeft_eq]
  omega

theorem literalCodepoint_pair {content : List UInt8} {inputPointer inputEnd first second : ℕ}
    (hend : inputPointer + 12 ≤ inputEnd)
    (hfirst : parseHex4 content (inputPointer + 2) = some first)
    (hhigh : 0xD800 ≤ first ∧ first ≤ 0xDBFF) (h0 : content[inputPointer + 6]? = some backslash)
    (h1 : content[inputPointer + 6 + 1]? = some letterU)
    (hsecond : parseHex4 content (inputPointer + 6 + 2) = some second)
    (hlow : 0xDC00 ≤ second ∧ second ≤ 0xDFFF) :
    literalCodepoint content inputPointer inputEnd =
      some (some (0x10000 + (((first &&& 0x3FF) <<< 10) ||| (second &&& 0x3FF)), 12)) := by
  have hnot : ¬ (0xDC00 ≤ first ∧ first ≤ 0xDFFF) := by omega
  have hleft : ¬ inputEnd - (inputPointer + 6) < 6 := by omega
  have hok : ¬ (second < 0xDC00 ∨ 0xDFFF < second) := by omega
  rw [literalCodepoint, if_neg (by omega), hfirst, Option.bind_some, if_neg hnot, if_pos hhigh]
  simp only [if_neg hleft, h0, h1, Option.bind_some, ne_eq, not_true_eq_false, or_self,
    ite_false, hsecond, if_neg hok]

theorem literalCodepoint_escapes {c : Char} {text : List UInt8} (h : Escapes c text)
    {content rest : List UInt8} {inputPointer inputEnd : ℕ}
    (hcontent : content.drop inputPointer = text ++ rest)
    (hend : inputPointer + text.length ≤ inputEnd) :
    literalCodepoint content inputPointer inputEnd = some (some (c.toNat, text.length)) := by
  have hvalid := not_surrogate c
  cases h with
  | unit hlen hv hc =>
    rename_i ds
    have hdrop : content.drop (inputPointer + 2) = ds ++ rest := by
      rw [← List.drop_drop, hcontent]
      rfl
    simp only [List.length_cons, hlen] at hend ⊢
    rw [literalCodepoint, if_neg (by omega), parseHex4_digits hdrop hlen hv, Option.bind_some,
      if_neg (by omega), if_neg (by omega)]
  | pair hhi hlo hc hvhi hvlo =>
    rename_i hi lo
    have hdrop : content.drop (inputPointer + 2) =
        hi ++ (backslash :: letterU :: lo ++ rest) := by
      rw [← List.drop_drop, hcontent]
      simp
    have hsecond : content.drop (inputPointer + 6) = backslash :: letterU :: lo ++ rest := by
      rw [show inputPointer + 6 = inputPointer + 2 + hi.length by omega, ← List.drop_drop, hdrop,
        List.drop_left]
    have hdrop' : content.drop (inputPointer + 6 + 2) = lo ++ rest := by
      rw [← List.drop_drop, hsecond]
      rfl
    have h0 : content[inputPointer + 6]? = some backslash := by
      rw [← Nat.add_zero (inputPointer + 6), ← List.getElem?_drop, hsecond]
      rfl
    have h1 : content[inputPointer + 6 + 1]? = some letterU := by
      rw [← List.getElem?_drop, hsecond]
      rfl
    simp only [List.length_append, List.length_cons, hhi, hlo] at hend
    rw [literalCodepoint_pair (by omega) (parseHex4_digits hdrop hhi hvhi) (by omega) h0 h1
      (parseHex4_digits hdrop' hlo hvlo) (by omega), join_surrogates hc (by omega)]
    simp [hhi, hlo]

theorem exists_char {n : ℕ} (hsurrogate : n < 0xD800 ∨ 0xDFFF < n) (hlt : n < 0x110000) :
    ∃ c : Char, c.toNat = n := by
  have hvalid : n.isValidChar := hsurrogate.imp_right fun h => ⟨h, hlt⟩
  exact ⟨Char.ofNat n, by rw [Char.toNat_ofNat, if_pos hvalid]⟩

/-- What a literal that is not refused stands for. -/
theorem literalCodepoint_eq_some {content : List UInt8} {inputPointer inputEnd n len : ℕ}
    (h : literalCodepoint content inputPointer inputEnd = some (some (n, len))) :
    (∃ c : Char, c.toNat = n) ∧ inputPointer + len ≤ inputEnd ∧
      (len = 6 ∧ n < 0x10000 ∨ len = 12) := by
  unfold literalCodepoint at h
  split at h
  · cases h
  obtain ⟨first, hfirst, h⟩ := Option.bind_eq_some_iff.mp h
  have hlt := parseHex4_lt hfirst
  split at h
  · cases h
  split at h
  · next hhigh =>
    dsimp only at h
    split at h
    · cases h
    obtain ⟨c0, -, h⟩ := Option.bind_eq_some_iff.mp h
    obtain ⟨c1, -, h⟩ := Option.bind_eq_some_iff.mp h
    split at h
    · cases h
    obtain ⟨second, hsecond, h⟩ := Option.bind_eq_some_iff.mp h
    split at h
    · cases h
    · next hlow =>
      cases h
      have hbits : ∀ m, m &&& 0x3FF = m % 1024 := fun m => by
        rw [show 0x3FF = 2 ^ 10 - 1 from rfl, Nat.and_two_pow_sub_one_eq_mod]
      rw [hbits, hbits, ← Nat.shiftLeft_add_eq_or_of_lt (by omega), Nat.shiftLeft_eq]
      exact ⟨exists_char (by omega) (by omega), by omega, Or.inr rfl⟩
  · cases h
    exact ⟨exists_char (by omega) (by omega), by omega, Or.inl ⟨rfl, hlt⟩⟩

end Lmalloc.Json
