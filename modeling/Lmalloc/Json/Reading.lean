/-
  Lmalloc/Json/Reading.lean
  =========================
  **The parser reads every text that stands for a value.**

  No allocation is refused here.  `parseValue (n + 1)` reads the texts with at most
  `n` containers in each other, so the induction is on `n` and follows the nesting
  of the text.  A container is read child by child; what a child reads as is a
  parameter, for arrays and objects alike.
-/
import Lmalloc.Json.Grammar

namespace Lmalloc.Json

variable {Num : Type} (doubles : Doubles Num)

/-- From one buffer to the next, `n` characters on, and no allocation refused. -/
structure Went (buffer : ParseBuffer) (n : ℕ) (b : ParseBuffer) : Prop where
  content : b.content = buffer.content
  offset : b.offset = buffer.offset + n
  depth : b.depth = buffer.depth
  granted : b.heap.NeverRefuses

theorem Went.trans {buffer b c : ParseBuffer} {m n : ℕ} (h₁ : Went buffer m b) (h₂ : Went b n c) :
    Went buffer (m + n) c :=
  ⟨h₂.content.trans h₁.content, by rw [h₂.offset, h₁.offset, Nat.add_assoc],
    h₂.depth.trans h₁.depth, h₂.granted⟩

theorem Went.drop {buffer b : ParseBuffer} {text rest : List UInt8} (h : Went buffer text.length b)
    (hdrop : buffer.content.drop buffer.offset = text ++ rest) :
    b.content.drop b.offset = rest := by
  rw [h.content, h.offset, ← List.drop_drop, hdrop, List.drop_left]

theorem char?_of_drop {buffer : ParseBuffer} {c : UInt8} {rest : List UInt8}
    (hdrop : buffer.content.drop buffer.offset = c :: rest) : buffer.char? = some c := by
  rw [ParseBuffer.char?, ← Nat.add_zero buffer.offset, ← List.getElem?_drop, hdrop]
  rfl

theorem drop_advance {buffer : ParseBuffer} {text rest : List UInt8}
    (hdrop : buffer.content.drop buffer.offset = text ++ rest) :
    (buffer.advance text.length).content.drop (buffer.advance text.length).offset = rest := by
  rw [advance_content, advance_offset, ← List.drop_drop, hdrop, List.drop_left]

/-! ### Blanks -/

theorem blanks_append {w s : List UInt8} {c : UInt8} (hw : Blanks w) (hc : 32 < c) :
    blanks (w ++ c :: s) = w.length := by
  have hstop : (c :: s).takeWhile (· ≤ 32) = [] := by
    rw [List.takeWhile_cons_of_neg]
    simpa using hc
  rw [blanks, List.takeWhile_append_of_pos (by simpa [Blanks] using hw), hstop, List.append_nil]

theorem bufferSkipWhitespace_eq {buffer : ParseBuffer} {w s : List UInt8} {c : UInt8}
    (hw : Blanks w) (hc : 32 < c) (hdrop : buffer.content.drop buffer.offset = w ++ c :: s) :
    bufferSkipWhitespace buffer = buffer.advance w.length := by
  have hlen := congrArg List.length hdrop
  rw [List.length_drop, List.length_append, List.length_cons] at hlen
  rw [bufferSkipWhitespace, if_neg (by omega), hdrop, blanks_append hw hc]
  dsimp only
  rw [if_neg (by omega)]
  rfl

/-! ### Numbers -/

/-- What may follow a number. -/
def Stops (rest : List UInt8) : Prop := ∀ c ∈ rest.head?, isNumberChar c = false

theorem numberCString_append {text rest : List UInt8} (hchars : ∀ c ∈ text, isNumberChar c)
    (hshort : text.length ≤ 63) (hrest : Stops rest) : numberCString (text ++ rest) = text := by
  have hstop : (rest.take (63 - text.length)).takeWhile isNumberChar = [] := by
    rcases rest with - | ⟨c, rest⟩
    · rw [List.take_nil, List.takeWhile_nil]
    · have hc : isNumberChar c = false := hrest c rfl
      cases 63 - text.length with
      | zero => rw [List.take_zero, List.takeWhile_nil]
      | succ n => rw [List.take_succ_cons, List.takeWhile_cons_of_neg (by simp [hc])]
  rw [numberCString, List.take_append, List.take_of_length_le hshort,
    List.takeWhile_append_of_pos hchars, hstop, List.append_nil]

theorem parseNumber_reads {n : Num} {text rest : List UInt8} (htext : NumberText doubles n text)
    (hrest : Stops rest) (item : Item Num) {buffer : ParseBuffer}
    (hdrop : buffer.content.drop buffer.offset = text ++ rest) :
    parseNumber doubles item buffer =
      some (some { item with
        kind := Kind.number, valuedouble := n, valueint := saturate doubles n },
        buffer.advance text.length) := by
  have hne : text.length ≠ 0 := by
    obtain ⟨c, hc, -⟩ := htext.first
    rintro hzero
    rw [List.eq_nil_of_length_eq_zero hzero] at hc
    cases hc
  simp only [parseNumber, hdrop, numberCString_append htext.chars htext.short hrest, htext.read,
    if_neg hne]

/-! ### Strings -/

theorem hexDigit_ne {c : UInt8} {d : ℕ} (h : hexDigit c = some d) :
    c ≠ quote ∧ c ≠ backslash := by
  have hquote : hexDigit quote = none := by decide
  have hbackslash : hexDigit backslash = none := by decide
  constructor
  · rintro rfl
    rw [hquote] at h
    cases h
  · rintro rfl
    rw [hbackslash] at h
    cases h

theorem hexValue_chars {ds : List UInt8} {v : ℕ} (h : hexValue ds = some v) :
    ∀ c ∈ ds, c ≠ quote ∧ c ≠ backslash := by
  induction ds generalizing v with
  | nil => simp
  | cons c cs ih =>
    obtain ⟨d, hd, h⟩ := Option.bind_eq_some_iff.mp h
    obtain ⟨w, hw, -⟩ := Option.map_eq_some_iff.mp h
    intro e he
    rcases List.mem_cons.mp he with rfl | he
    · exact hexDigit_ne hd
    · exact ih hw e he

/-- The first pass goes over a text: it reads on behind it. -/
def ScansOver (text : List UInt8) : Prop :=
  ∃ k, ∀ rest, scanString (text ++ rest) =
    (scanString rest).map fun (n, skipped) => (text.length + n, k + skipped)

theorem scanString_quote (rest : List UInt8) : scanString (quote :: rest) = some (0, 0) := by
  rw [scanString.eq_def]
  simp

theorem scanString_plain {c : UInt8} (hquote : c ≠ quote) (hbackslash : c ≠ backslash)
    (rest : List UInt8) : scanString (c :: rest) =
      (scanString rest).map fun (n, skipped) => (n + 1, skipped) := by
  rw [scanString.eq_def]
  simp [hquote, hbackslash]

theorem scanString_pair (e : UInt8) (rest : List UInt8) : scanString (backslash :: e :: rest) =
    (scanString rest).map fun (n, skipped) => (n + 2, skipped + 1) := by
  rw [scanString.eq_def]
  simp [show backslash ≠ quote by decide]

theorem scansOver_nil : ScansOver [] := ⟨0, fun rest => by
  rw [List.nil_append]
  cases scanString rest <;> simp⟩

theorem ScansOver.append {text next : List UInt8} (h₁ : ScansOver text) (h₂ : ScansOver next) :
    ScansOver (text ++ next) := by
  obtain ⟨k₁, hk₁⟩ := h₁
  obtain ⟨k₂, hk₂⟩ := h₂
  refine ⟨k₁ + k₂, fun rest => ?_⟩
  rw [List.append_assoc, hk₁, hk₂, Option.map_map]
  congr 1
  funext ⟨n, skipped⟩
  simp [Nat.add_assoc]

theorem scansOver_plain {text : List UInt8} (h : ∀ c ∈ text, c ≠ quote ∧ c ≠ backslash) :
    ScansOver text := by
  induction text with
  | nil => exact scansOver_nil
  | cons c cs ih =>
    obtain ⟨k, hk⟩ := ih fun d hd => h d (List.mem_cons_of_mem c hd)
    obtain ⟨hquote, hbackslash⟩ := h c (List.mem_cons_self ..)
    refine ⟨k, fun rest => ?_⟩
    rw [List.cons_append, scanString_plain hquote hbackslash, hk, Option.map_map]
    congr 1
    funext ⟨n, skipped⟩
    simp [Nat.add_right_comm]

theorem scansOver_pair (e : UInt8) : ScansOver [backslash, e] := by
  refine ⟨1, fun rest => ?_⟩
  rw [List.cons_append, List.cons_append, List.nil_append, scanString_pair]
  congr 1
  funext ⟨n, skipped⟩
  simp [Nat.add_comm]

theorem scansOver_escape {c : Char} {text : List UInt8} (h : Escapes c text) : ScansOver text := by
  cases h with
  | unit hlen hv hc =>
    exact (scansOver_pair letterU).append (scansOver_plain (hexValue_chars hv))
  | pair hhi hlo hc hvhi hvlo =>
    have hfirst := (scansOver_pair letterU).append (scansOver_plain (hexValue_chars hvhi))
    exact hfirst.append ((scansOver_pair letterU).append (scansOver_plain (hexValue_chars hvlo)))

theorem scansOver_chars {bytes text : List UInt8} (h : Chars bytes text) : ScansOver text := by
  induction h with
  | nil => exact scansOver_nil
  | plain hquote hbackslash h ih =>
    rename_i c bytes text
    have hplain : ScansOver [c] := scansOver_plain (by simpa using ⟨hquote, hbackslash⟩)
    exact hplain.append ih
  | simple he h ih => exact (scansOver_pair _).append ih
  | unicode hc h ih => exact (scansOver_escape hc).append ih

theorem scanString_chars {bytes text : List UInt8} (h : Chars bytes text) (rest : List UInt8) :
    ∃ skipped, scanString (text ++ quote :: rest) = some (text.length, skipped) := by
  obtain ⟨k, hk⟩ := scansOver_chars h
  exact ⟨k, by rw [hk, scanString_quote]; rfl⟩

theorem Escapes.head {c : Char} {text : List UInt8} (h : Escapes c text) :
    ∃ rest, text = backslash :: letterU :: rest := by
  cases h with
  | unit hlen hv hc => exact ⟨_, rfl⟩
  | pair hhi hlo hc hvhi hvlo => exact ⟨_, rfl⟩

theorem utf16LiteralToUtf8_escapes {c : Char} {text : List UInt8} (h : Escapes c text)
    {content rest : List UInt8} {inputPointer inputEnd : ℕ}
    (hcontent : content.drop inputPointer = text ++ rest)
    (hend : inputPointer + text.length ≤ inputEnd) :
    utf16LiteralToUtf8 content inputPointer inputEnd =
      some (some (String.utf8EncodeChar c, text.length)) := by
  simp only [utf16LiteralToUtf8, literalCodepoint_escapes h hcontent hend, Option.map_some,
    Option.bind_some, encodeUtf8_char]

theorem putBytes_some {size : ℕ} {output bytes o : List UInt8}
    (h : putBytes size output bytes = some o) : o = output ++ bytes := by
  unfold putBytes at h
  split at h
  · exact (Option.some.inj h).symm
  · cases h

/-- **What the second pass makes of the text**, if there is room for it. -/
theorem unescapeLoop_chars {bytes text : List UInt8} (h : Chars bytes text)
    {content rest : List UInt8}
    {size fuel inputPointer : ℕ} {output : List UInt8} {r : Option (List UInt8) × ℕ}
    (hcontent : content.drop inputPointer = text ++ rest)
    (hr : unescapeLoop content (inputPointer + text.length) size fuel inputPointer output =
      some r) :
    r.1 = some (output ++ bytes ++ [0]) := by
  have hread : ∀ i c, (text ++ rest)[i]? = some c → content[inputPointer + i]? = some c := by
    intro i c hc
    rw [← List.getElem?_drop, hcontent, hc]
  induction h generalizing fuel inputPointer output with
  | nil =>
    cases fuel with
    | zero => cases hr
    | succ fuel =>
      rw [unescapeLoop, if_neg (by simp)] at hr
      obtain ⟨o, ho, rfl⟩ := Option.map_eq_some_iff.mp hr
      rw [putBytes_some ho, List.append_nil]
  | plain hquote hbackslash h ih =>
    rename_i c bytes text
    cases fuel with
    | zero => cases hr
    | succ fuel =>
      have hc : content[inputPointer]? = some c := hread 0 c rfl
      rw [unescapeLoop, if_pos (by simp), hc, Option.bind_some, if_pos hbackslash] at hr
      obtain ⟨o, ho, hr⟩ := Option.bind_eq_some_iff.mp hr
      have hdrop : content.drop (inputPointer + 1) = text ++ rest := by
        rw [← List.drop_drop, hcontent]
        rfl
      rw [List.length_cons, ← Nat.add_assoc, Nat.add_right_comm] at hr
      rw [ih hdrop hr fun i c hc => by rw [← List.getElem?_drop, hdrop, hc], putBytes_some ho]
      simp
  | simple he h ih =>
    rename_i e c bytes text
    cases fuel with
    | zero => cases hr
    | succ fuel =>
      have hc : content[inputPointer]? = some backslash := hread 0 backslash rfl
      have hd : content[inputPointer + 1]? = some e := hread 1 e rfl
      rw [unescapeLoop, if_pos (by simp), hc, Option.bind_some, if_neg (by simp), hd,
        Option.bind_some, he] at hr
      obtain ⟨o, ho, hr⟩ := Option.bind_eq_some_iff.mp hr
      have hdrop : content.drop (inputPointer + 2) = text ++ rest := by
        rw [← List.drop_drop, hcontent]
        rfl
      have hend : inputPointer + (backslash :: e :: text).length =
          inputPointer + 2 + text.length := by
        simp only [List.length_cons]
        omega
      rw [hend] at hr
      rw [ih hdrop hr fun i c hc => by rw [← List.getElem?_drop, hdrop, hc], putBytes_some ho]
      simp
  | unicode hc h ih =>
    rename_i c escape bytes text
    obtain ⟨tail, htail⟩ := hc.head
    cases fuel with
    | zero => cases hr
    | succ fuel =>
      have h0 : content[inputPointer]? = some backslash := hread 0 backslash (by rw [htail]; rfl)
      have h1 : content[inputPointer + 1]? = some letterU := hread 1 letterU (by rw [htail]; rfl)
      have hescape : content.drop inputPointer = escape ++ (text ++ rest) := by
        rw [hcontent, List.append_assoc]
      have hend : inputPointer + escape.length ≤ inputPointer + (escape ++ text).length := by
        rw [List.length_append]
        omega
      have hliteral := utf16LiteralToUtf8_escapes hc hescape hend
      have hpos : 0 < escape.length := by rw [htail]; exact Nat.succ_pos _
      rw [unescapeLoop, if_pos (by rw [List.length_append]; omega), h0, Option.bind_some,
        if_neg (by simp), h1, Option.bind_some, show simpleEscape letterU = none by decide] at hr
      dsimp only at hr
      rw [if_pos rfl, hliteral, Option.bind_some] at hr
      obtain ⟨o, ho, hr⟩ := Option.bind_eq_some_iff.mp hr
      have hdrop : content.drop (inputPointer + escape.length) = text ++ rest := by
        rw [← List.drop_drop, hcontent, List.append_assoc, List.drop_left]
      rw [List.length_append, ← Nat.add_assoc] at hr
      rw [ih hdrop hr fun i c hc => by rw [← List.getElem?_drop, hdrop, hc], putBytes_some ho]
      simp

theorem Heap.allocate_granted {heap : Heap} (h : heap.NeverRefuses)
    (size : ℕ) : ∃ block heap', heap.allocate size = (some block, heap') ∧
      heap'.NeverRefuses :=
  ⟨heap.requests, _, if_pos (h _ _), h⟩

theorem parseString_reads {bytes text rest : List UInt8} (htext : Chars bytes text)
    (item : Item Num) {buffer : ParseBuffer}
    (hdrop : buffer.content.drop buffer.offset = quote :: text ++ quote :: rest)
    (hgranted : buffer.heap.NeverRefuses) :
    ∃ s b, parseString item buffer =
        some (some { item with kind := Kind.string, valuestring := some s }, b) ∧
      s.Holds bytes ∧ Went buffer (text.length + 2) b := by
  have hinner : buffer.content.drop (buffer.offset + 1) = text ++ quote :: rest := by
    rw [← List.drop_drop, hdrop]
    rfl
  obtain ⟨skipped, hscan⟩ := scanString_chars htext rest
  obtain ⟨block, heap, hallocate, hgranted'⟩ :=
    Heap.allocate_granted hgranted (outputSize text.length skipped)
  have hsize : buffer.offset + 1 + text.length - buffer.offset - skipped + 1 =
      outputSize text.length skipped := by
    unfold outputSize
    omega
  have hlen := congrArg List.length hinner
  rw [List.length_drop, List.length_append, List.length_cons] at hlen
  have hscan' : scanString (buffer.content.drop (buffer.offset + 1)) =
      some (text.length, skipped) := by
    rw [hinner]
    exact hscan
  obtain ⟨result, pointer, hresult, -, -⟩ :=
    unescapeLoop_safe hscan' (buffer.content.length + 1) 0 [] (by omega) (Nat.zero_le _)
      (by simp [pairsBefore])
  rw [Nat.add_zero] at hresult
  have hbytes : result = some (bytes ++ [0]) := unescapeLoop_chars htext hinner hresult
  simp only [parseString, char?_of_drop hdrop, Option.bind_some, ne_eq, not_true_eq_false,
    if_false, hinner, hscan, hsize, hallocate, hresult, hbytes]
  exact ⟨⟨block, bytes ++ [0]⟩, _, rfl, rfl, rfl, by dsimp only; omega, rfl, hgranted'⟩

/-! ### Values that are no containers -/

theorem startsWith_eq_false {buffer : ParseBuffer} {c d : UInt8} {word : List UInt8}
    (hc : buffer.char? = some c) (hne : c ≠ d) : buffer.startsWith (d :: word) = false := by
  by_contra h
  obtain ⟨rest, hrest⟩ := startsWith_iff.mp (by simpa using h)
  rw [List.cons_append] at hrest
  rw [char?_of_drop hrest] at hc
  exact hne (Option.some.inj hc).symm

/-- The dispatch of `parse_value` on the first character. -/
theorem valueStep_eq {parseValue : Item Num → ParseBuffer → Parsed (Item Num)} (item : Item Num)
    {buffer : ParseBuffer} {c : UInt8} (hc : buffer.char? = some c)
    (hword : c ≠ 110 ∧ c ≠ 102 ∧ c ≠ 116) :
    valueStep doubles parseValue item buffer =
      if c = quote then parseString item buffer
      else if c = 45 ∨ 48 ≤ c ∧ c ≤ 57 then parseNumber doubles item buffer
      else if c = 91 then parseArray doubles parseValue item buffer
      else if c = 123 then parseObject doubles parseValue item buffer
      else some (none, buffer) := by
  simp only [valueStep, startsWith_eq_false hc hword.1, startsWith_eq_false hc hword.2.1,
    startsWith_eq_false hc hword.2.2, Bool.false_eq_true, if_false, hc]

/-- A value is read: the item holds it, and keeps its name. -/
def ReadsAs (text : List UInt8) (value : Json Num) (item : Item Num) (buffer : ParseBuffer)
    (r : Parsed (Item Num)) : Prop :=
  ∃ item' b, r = some (some item', b) ∧ Went buffer text.length b ∧ item'.Holds doubles value ∧
    item'.string = item.string

theorem valueStep_scalar {parseValue : Item Num → ParseBuffer → Parsed (Item Num)}
    {value : Json Num} {text rest : List UInt8} (htext : Scalar doubles value text)
    (hrest : Stops rest) (item : Item Num) {buffer : ParseBuffer}
    (hdrop : buffer.content.drop buffer.offset = text ++ rest)
    (hgranted : buffer.heap.NeverRefuses) :
    ReadsAs doubles text value item buffer (valueStep doubles parseValue item buffer) := by
  cases htext with
  | null =>
    have hstarts := startsWith_iff.mpr ⟨rest, hdrop⟩
    rw [valueStep, if_pos hstarts]
    exact ⟨_, _, rfl, ⟨rfl, rfl, rfl, hgranted⟩, .null rfl, rfl⟩
  | isFalse =>
    have hstarts := startsWith_iff.mpr ⟨rest, hdrop⟩
    have hother : buffer.startsWith [110, 117, 108, 108] = false :=
      startsWith_eq_false (char?_of_drop hdrop) (by decide)
    rw [valueStep, if_neg (by simp [hother]), if_pos hstarts]
    exact ⟨_, _, rfl, ⟨rfl, rfl, rfl, hgranted⟩, .isFalse rfl, rfl⟩
  | isTrue =>
    have hstarts := startsWith_iff.mpr ⟨rest, hdrop⟩
    have hother : buffer.startsWith [110, 117, 108, 108] = false :=
      startsWith_eq_false (char?_of_drop hdrop) (by decide)
    have hother' : buffer.startsWith [102, 97, 108, 115, 101] = false :=
      startsWith_eq_false (char?_of_drop hdrop) (by decide)
    rw [valueStep, if_neg (by simp [hother]), if_neg (by simp [hother']), if_pos hstarts]
    exact ⟨_, _, rfl, ⟨rfl, rfl, rfl, hgranted⟩, .isTrue rfl, rfl⟩
  | number h =>
    rename_i n
    obtain ⟨c, hc, hfirst⟩ := h.first
    obtain ⟨tail, rfl⟩ : ∃ tail, text = c :: tail := by
      cases text with
      | nil => cases hc
      | cons d tail => exact ⟨tail, by rw [Option.mem_some_iff.mp hc]⟩
    have hword : c ≠ 110 ∧ c ≠ 102 ∧ c ≠ 116 := by
      refine ⟨?_, ?_, ?_⟩ <;> rintro rfl <;> revert hfirst <;> decide
    have hquote : c ≠ quote := by
      rintro rfl
      revert hfirst
      decide
    rw [valueStep_eq doubles item (char?_of_drop hdrop) hword, if_neg hquote, if_pos hfirst,
      parseNumber_reads doubles h hrest item hdrop]
    exact ⟨_, _, rfl, ⟨rfl, rfl, rfl, hgranted⟩, .number rfl rfl, rfl⟩
  | string h =>
    rename_i bytes text
    have hdrop' : buffer.content.drop buffer.offset = quote :: text ++ quote :: rest := by
      rw [hdrop]
      simp
    obtain ⟨s, b, hs, hholds, hwent⟩ := parseString_reads h item hdrop' hgranted
    rw [valueStep_eq doubles item (char?_of_drop hdrop) (by decide), if_pos rfl, hs]
    exact ⟨_, _, rfl, by simpa using hwent, .string rfl rfl hholds, rfl⟩

/-! ### Children -/

/-- What may stand behind a child. -/
def Delimiter (c : UInt8) : Prop := c = 44 ∨ c = 93 ∨ c = 125

theorem Delimiter.not_blank {c : UInt8} (h : Delimiter c) : 32 < c := by
  rcases h with rfl | rfl | rfl <;> decide

/-- Blanks and what is behind them do not go on with a number. -/
theorem stops_blanks {w rest : List UInt8} {c : UInt8} (hw : Blanks w)
    (hc : isNumberChar c = false) : Stops (w ++ c :: rest) := by
  intro d hd
  cases w with
  | nil =>
    obtain rfl := Option.mem_some_iff.mp hd
    exact hc
  | cons e w =>
    obtain rfl := Option.mem_some_iff.mp hd
    have he := hw e (List.mem_cons_self ..)
    have hblank : ∀ d : UInt8, d ≤ 32 → isNumberChar d = false := by decide +kernel
    exact hblank e he

/-- A child of this text is read; `Held` says what its item is then. -/
def ChildReads {α : Type}
    (parseChild : Item Num → ParseBuffer → Option ((Item Num × Bool) × ParseBuffer))
    (C : α → List UInt8 → Prop) (Held : Item Num → α → Prop) (depth : ℕ) : Prop :=
  ∀ a text c rest newItem buffer, C a text → Delimiter c →
    buffer.content.drop (buffer.offset + 1) = text ++ c :: rest → buffer.depth = depth →
    buffer.heap.NeverRefuses →
    ∃ item b, parseChild newItem buffer = some ((item, true), b) ∧
      Went buffer (1 + text.length) b ∧ Held item a

theorem Went.drop_next {buffer b : ParseBuffer} {text rest : List UInt8}
    (h : Went buffer (1 + text.length) b)
    (hdrop : buffer.content.drop (buffer.offset + 1) = text ++ rest) :
    b.content.drop b.offset = rest := by
  rw [h.content, h.offset, ← Nat.add_assoc, ← List.drop_drop, hdrop, List.drop_left]

theorem cJSONNewItem_granted (buffer : ParseBuffer)
    (h : buffer.heap.NeverRefuses) :
    ∃ newItem b, cJSONNewItem doubles buffer = (some newItem, b) ∧ Went buffer 0 b ∧
      ItemMade buffer newItem b := by
  obtain ⟨block, heap, hallocate, hgranted⟩ := Heap.allocate_granted h sizeofCJSON
  rcases cJSONNewItem_cases doubles buffer with ⟨b, hb, -⟩ | ⟨newItem, b, hb, hmade⟩
  · rw [cJSONNewItem, hallocate] at hb
    cases congrArg Prod.fst hb
  · refine ⟨newItem, b, hb, ⟨hmade.content, hmade.offset, hmade.depth, ?_⟩, hmade⟩
    rw [cJSONNewItem, hallocate] at hb
    obtain rfl : { buffer with heap := heap } = b := congrArg Prod.snd hb
    exact hgranted

section Container

variable {α : Type} {parseChild : Item Num → ParseBuffer → Option ((Item Num × Bool) × ParseBuffer)}
  {C : α → List UInt8 → Prop} {Held : Item Num → α → Prop} {depth : ℕ} {closing : UInt8}

theorem childLoop_reads (hchild : ChildReads parseChild C Held depth) (hclosing : Delimiter closing)
    (hne : closing ≠ 44) {as : List α} {text rest : List UInt8} (htext : Separated C as text)
    (fuel : ℕ) (hfuel : as.length ≤ fuel) (head : List (Item Num)) (buffer : ParseBuffer)
    (hdrop : buffer.content.drop (buffer.offset + 1) = text ++ closing :: rest)
    (hdepth : buffer.depth = depth)
    (hgranted : buffer.heap.NeverRefuses) :
    ∃ items b, childLoop doubles parseChild closing fuel head buffer =
        some (some (head ++ items), b) ∧
      Went buffer (1 + text.length) b ∧ List.Forall₂ Held items as := by
  induction htext generalizing fuel head buffer with
  | last h =>
    obtain ⟨fuel, rfl⟩ : ∃ n, fuel = n + 1 := ⟨fuel - 1, by simp at hfuel; omega⟩
    obtain ⟨newItem, b, hnew, hwent, -⟩ := cJSONNewItem_granted doubles buffer hgranted
    obtain ⟨item, b', hcall, hwent', hheld⟩ := hchild _ _ closing rest newItem b h hclosing
      (by rw [hwent.content, hwent.offset]; exact hdrop) (by rw [hwent.depth, hdepth]) hwent.granted
    have hwent'' := hwent.trans hwent'
    rw [Nat.zero_add] at hwent''
    have hchar := char?_of_drop (hwent''.drop_next hdrop)
    refine ⟨[item], b', ?_, hwent'', .cons hheld .nil⟩
    simp [childLoop, hnew, hcall, hchar, hne]
  | comma h hrest ih =>
    rename_i a as text next
    obtain ⟨fuel, rfl⟩ : ∃ n, fuel = n + 1 := ⟨fuel - 1, by simp at hfuel; omega⟩
    obtain ⟨newItem, b, hnew, hwent, -⟩ := cJSONNewItem_granted doubles buffer hgranted
    have hdrop' : buffer.content.drop (buffer.offset + 1) =
        text ++ 44 :: (next ++ closing :: rest) := by
      rw [hdrop]
      simp
    obtain ⟨item, b', hcall, hwent', hheld⟩ := hchild _ _ 44 _ newItem b h (.inl rfl)
      (by rw [hwent.content, hwent.offset]; exact hdrop') (by rw [hwent.depth, hdepth])
      hwent.granted
    have hwent'' := hwent.trans hwent'
    rw [Nat.zero_add] at hwent''
    have hcomma := hwent''.drop_next hdrop'
    obtain ⟨items, c, hloop, hwentLoop, hitems⟩ := ih fuel (by simpa using hfuel)
      (head ++ [item]) b' (by rw [← List.drop_drop, hcomma]; rfl)
      (by rw [hwent''.depth, hdepth]) hwent''.granted
    refine ⟨item :: items, c, ?_, ?_, .cons hheld hitems⟩
    · simp only [childLoop, hnew, hcall, Option.bind_some, not_true_eq_false, if_false,
        char?_of_drop hcomma, if_true, hloop, List.append_assoc, List.singleton_append]
    · have hall := hwent''.trans hwentLoop
      have hlen : 1 + text.length + (1 + next.length) = 1 + (text ++ 44 :: next).length := by
        simp only [List.length_append, List.length_cons]
        omega
      rwa [hlen] at hall

/-- A child whose text starts with a character that is neither blank nor closes. -/
def Starts (C : α → List UInt8 → Prop) : Prop :=
  ∀ a text, C a text → ∃ w c s, Blanks w ∧ text = w ++ c :: s ∧ C a (c :: s) ∧ 32 < c ∧
    ¬ Delimiter c

theorem Separated.starts (hstarts : Starts C) {as : List α} {text : List UInt8}
    (h : Separated C as text) :
    ∃ w c s, Blanks w ∧ text = w ++ c :: s ∧ Separated C as (c :: s) ∧ 32 < c ∧ ¬ Delimiter c := by
  cases h with
  | last h =>
    obtain ⟨w, c, s, hw, rfl, hC, hc, hd⟩ := hstarts _ _ h
    exact ⟨w, c, s, hw, rfl, .last hC, hc, hd⟩
  | comma h hrest =>
    rename_i a as text next
    obtain ⟨w, c, s, hw, rfl, hC, hc, hd⟩ := hstarts _ _ h
    exact ⟨w, c, s ++ 44 :: next, hw, by simp, .comma hC hrest, hc, hd⟩

theorem Separated.length_le {as : List α} {text : List UInt8} (h : Separated C as text) :
    as.length ≤ text.length + 1 := by
  induction h with
  | last h => simp
  | comma h hrest ih =>
    simp only [List.length_cons, List.length_append]
    omega

theorem parseChildren_reads (hchild : ChildReads parseChild C Held (depth + 1)) (hstarts : Starts C)
    (hclosing : Delimiter closing) (hne : closing ≠ 44) {as : List α} {text rest : List UInt8}
    (htext : Inside C as text) (kind : Kind) (item : Item Num) (buffer : ParseBuffer)
    (hdrop : buffer.content.drop (buffer.offset + 1) = text ++ closing :: rest)
    (hdepth : buffer.depth = depth + 1)
    (hgranted : buffer.heap.NeverRefuses) :
    ∃ items b, parseChildren doubles kind closing parseChild item buffer =
        some (some { item with kind := kind, child := items }, b) ∧
      Went { buffer with depth := depth } (text.length + 2) b ∧ List.Forall₂ Held items as := by
  rcases htext with ⟨rfl, hblanks⟩ | htext
  · have hskip : bufferSkipWhitespace (buffer.advance 1) =
        (buffer.advance 1).advance text.length :=
      bufferSkipWhitespace_eq hblanks hclosing.not_blank hdrop
    have hchar : ((buffer.advance 1).advance text.length).char? = some closing :=
      char?_of_drop (drop_advance hdrop)
    refine ⟨[], { buffer with
      offset := buffer.offset + 1 + text.length + 1, depth := buffer.depth - 1 }, ?_, ?_, .nil⟩
    · simp only [parseChildren, hskip, hchar, if_true, Option.map_some]
      rfl
    · exact ⟨rfl, by dsimp only; omega, by dsimp only; omega, hgranted⟩
  · obtain ⟨w, c, s, hw, rfl, hseparated, hc, hdelimiter⟩ := htext.starts hstarts
    have hdrop' : (buffer.advance 1).content.drop (buffer.advance 1).offset =
        w ++ c :: (s ++ closing :: rest) := by
      rw [advance_content, advance_offset, hdrop]
      simp
    have hskip := bufferSkipWhitespace_eq hw hc hdrop'
    have hfirst := drop_advance hdrop'
    have hchar := char?_of_drop hfirst
    have hlt := (List.getElem?_eq_some_iff.mp hchar).1
    have hnot : ¬ some c = some closing := fun h => hdelimiter (Option.some.inj h ▸ hclosing)
    have hcount := hseparated.length_le
    have hlen := congrArg List.length hfirst
    have hoffset : ((buffer.advance 1).advance w.length).offset =
        buffer.offset + 1 + w.length := rfl
    have hcontent : ((buffer.advance 1).advance w.length).content = buffer.content := rfl
    have hsame : ((buffer.advance 1).advance w.length).depth = depth + 1 := hdepth
    have hgranted' : ((buffer.advance 1).advance w.length).heap.NeverRefuses := hgranted
    generalize (buffer.advance 1).advance w.length = b at *
    simp only [List.length_drop, List.length_cons, List.length_append] at hlen hcount
    -- the loop starts at the character in front of the first child
    have hstart : b.content.drop (b.offset - 1 + 1) = c :: s ++ closing :: rest := by
      rw [Nat.sub_add_cancel (by omega)]
      exact hfirst
    obtain ⟨items, b', hloop, hwent, hitems⟩ := childLoop_reads doubles hchild hclosing hne
      hseparated (b.content.length + 1) (by omega) [] { b with offset := b.offset - 1 } hstart hsame
      hgranted'
    refine ⟨items, { b' with offset := b'.offset + 1, depth := b'.depth - 1 }, ?_, ?_, hitems⟩
    · simp only [parseChildren, hskip, hchar, if_neg hnot, if_neg (Nat.not_le.mpr hlt), hloop,
        Option.map_some, List.nil_append]
    · have hend : b'.offset = b.offset - 1 + (1 + (c :: s).length) := hwent.offset
      have hback : b'.depth = b.depth := hwent.depth
      rw [List.length_cons] at hend
      refine ⟨hwent.content.trans hcontent, ?_, ?_, hwent.granted⟩
      · simp only [List.length_append, List.length_cons]
        omega
      · dsimp only
        omega

end Container

/-! ### Values -/

/-- A value starts with a character of its own. -/
theorem Text.starts {n : ℕ} {value : Json Num} {text : List UInt8} (h : Text doubles n value text) :
    ∃ c s, text = c :: s ∧ 32 < c ∧ c < 128 ∧ ¬ Delimiter c := by
  have hscalar : Scalar doubles value text →
      ∃ c s, text = c :: s ∧ 32 < c ∧ c < 128 ∧ ¬ Delimiter c := by
    unfold Delimiter
    intro h
    cases h with
    | null => exact ⟨_, _, rfl, by decide, by decide, by decide⟩
    | isFalse => exact ⟨_, _, rfl, by decide, by decide, by decide⟩
    | isTrue => exact ⟨_, _, rfl, by decide, by decide, by decide⟩
    | string h => exact ⟨_, _, rfl, by decide, by decide, by decide⟩
    | number h =>
      obtain ⟨c, hc, hfirst⟩ := h.first
      have hchars : ∀ d : UInt8, d = 45 ∨ 48 ≤ d ∧ d ≤ 57 →
          32 < d ∧ d < 128 ∧ ¬ (d = 44 ∨ d = 93 ∨ d = 125) := by decide +kernel
      cases text with
      | nil => cases hc
      | cons d s =>
        obtain rfl := Option.mem_some_iff.mp hc
        exact ⟨_, s, rfl, hchars _ hfirst⟩
  unfold Delimiter at *
  cases n with
  | zero => exact hscalar h
  | succ n =>
    rcases h with h | ⟨values, inner, -, -, rfl⟩ | ⟨members, inner, -, -, rfl⟩
    · exact hscalar h
    · exact ⟨_, _, rfl, by decide, by decide, by decide⟩
    · exact ⟨_, _, rfl, by decide, by decide, by decide⟩

/-- `parseValue` reads the texts with at most `n` containers in each other. -/
def ValueReads (parseValue : Item Num → ParseBuffer → Parsed (Item Num)) (n : ℕ) : Prop :=
  ∀ value text rest item buffer, Text doubles n value text → Stops rest →
    buffer.content.drop buffer.offset = text ++ rest → buffer.depth + n ≤ cJSONNestingLimit →
    buffer.heap.NeverRefuses →
    ReadsAs doubles text value item buffer (parseValue item buffer)

theorem Delimiter.not_number {c : UInt8} (h : Delimiter c) : isNumberChar c = false := by
  rcases h with rfl | rfl | rfl <;> decide

section Value

variable {parseValue : Item Num → ParseBuffer → Parsed (Item Num)} {n : ℕ}

theorem parseElement_reads (hvalue : ValueReads doubles parseValue n) {value : Json Num}
    {text rest : List UInt8} {c : UInt8} (htext : Element (Text doubles n) value text)
    (hc : Delimiter c) (newItem : Item Num) {buffer : ParseBuffer}
    (hdrop : buffer.content.drop (buffer.offset + 1) = text ++ c :: rest)
    (hdepth : buffer.depth + n ≤ cJSONNestingLimit)
    (hgranted : buffer.heap.NeverRefuses) :
    ∃ item b, parseElement parseValue newItem buffer = some ((item, true), b) ∧
      Went buffer (1 + text.length) b ∧ item.Holds doubles value ∧
      item.string = newItem.string := by
  obtain ⟨before, inner, after, hbefore, hinner, hafter, rfl⟩ := htext
  obtain ⟨d, s, rfl, hd, -, -⟩ := hinner.starts
  have hdrop' : (buffer.advance 1).content.drop (buffer.advance 1).offset =
      before ++ d :: (s ++ (after ++ c :: rest)) := by
    rw [advance_content, advance_offset, hdrop]
    simp
  have hskip := bufferSkipWhitespace_eq hbefore hd hdrop'
  obtain ⟨item, b, hcall, hwent, hholds, hstring⟩ :=
    hvalue value (d :: s) (after ++ c :: rest) newItem
    ((buffer.advance 1).advance before.length) hinner (stops_blanks hafter hc.not_number)
    (drop_advance hdrop') hdepth hgranted
  have hbehind : b.content.drop b.offset = after ++ c :: rest := hwent.drop (drop_advance hdrop')
  refine ⟨item, bufferSkipWhitespace b, ?_, ?_, hholds, hstring⟩
  · rw [parseElement, hskip, hcall]
    rfl
  · rw [bufferSkipWhitespace_eq hafter hc.not_blank hbehind]
    refine ⟨hwent.content, ?_, hwent.depth, hwent.granted⟩
    have hoffset := hwent.offset
    simp only [advance_offset, List.length_append] at hoffset ⊢
    omega

theorem parseMember_reads (hvalue : ValueReads doubles parseValue n)
    {member : List UInt8 × Json Num} {text rest : List UInt8} {c : UInt8}
    (htext : Member (Text doubles n) member text) (hc : Delimiter c) (newItem : Item Num)
    {buffer : ParseBuffer} (hdrop : buffer.content.drop (buffer.offset + 1) = text ++ c :: rest)
    (hdepth : buffer.depth + n ≤ cJSONNestingLimit)
    (hgranted : buffer.heap.NeverRefuses) :
    ∃ item b, parseMember parseValue newItem buffer = some ((item, true), b) ∧
      Went buffer (1 + text.length) b ∧ item.Named member.1 ∧ item.Holds doubles member.2 := by
  obtain ⟨before, name, after, value, hbefore, hname, hafter, hvalueText, rfl⟩ := htext
  have hdrop' : (buffer.advance 1).content.drop (buffer.advance 1).offset =
      before ++ quote :: (name ++ quote :: (after ++ 58 :: (value ++ c :: rest))) := by
    rw [advance_content, advance_offset, hdrop]
    simp
  have hskip := bufferSkipWhitespace_eq hbefore (by decide) hdrop'
  have hfirst := drop_advance hdrop'
  have hlen := congrArg List.length hdrop
  simp only [List.length_drop, List.length_append, List.length_cons] at hlen
  obtain ⟨s, b, hcall, hs, hwent⟩ := parseString_reads hname newItem hfirst hgranted
  have hbehind : b.content.drop b.offset = after ++ 58 :: (value ++ c :: rest) :=
    Went.drop (show Went _ (quote :: name ++ [quote]).length b by simpa using hwent)
      (by rw [hfirst]; simp)
  have hskip' := bufferSkipWhitespace_eq hafter (by decide) hbehind
  have hcolon := drop_advance hbehind
  have hnext : (b.advance after.length).content.drop ((b.advance after.length).offset + 1) =
      value ++ c :: rest := by
    rw [← List.drop_drop, hcolon]
    rfl
  obtain ⟨item, b', helement, hwent', hholds, hstring⟩ :=
    parseElement_reads doubles hvalue hvalueText
    hc { newItem with kind := Kind.string, valuestring := none, string := some s }
    hnext (by rw [advance_depth, hwent.depth]; exact hdepth)
    hwent.granted
  refine ⟨item, b', ?_, ?_, ⟨s, hstring, hs⟩, hholds⟩
  · rw [parseMember, if_neg (by omega), hskip, hcall, Option.bind_some]
    simp only [hskip', char?_of_drop hcolon, ne_eq, not_true_eq_false, if_false]
    exact helement
  · refine ⟨hwent'.content.trans hwent.content, ?_, hwent'.depth.trans hwent.depth, hwent'.granted⟩
    have hoffset := hwent.offset
    have hoffset' := hwent'.offset
    simp only [advance_offset, List.length_append, List.length_cons] at hoffset hoffset' ⊢
    omega

theorem starts_element : Starts (Element (Text doubles n)) := by
  rintro value _ ⟨before, inner, after, hbefore, hinner, hafter, rfl⟩
  obtain ⟨c, s, rfl, hc, -, hd⟩ := hinner.starts
  exact ⟨before, c, s ++ after, hbefore, by simp,
    ⟨[], c :: s, after, by simp [Blanks], hinner, hafter, rfl⟩, hc, hd⟩

theorem starts_member : Starts (Member (Text doubles n)) := by
  rintro member _ ⟨before, name, after, value, hbefore, hname, hafter, hvalue, rfl⟩
  exact ⟨before, quote, name ++ quote :: after ++ 58 :: value, hbefore, by simp,
    ⟨[], name, after, value, by simp [Blanks], hname, hafter, hvalue, by simp⟩, by decide,
    by unfold Delimiter; decide⟩

theorem valueStep_reads (hvalue : ValueReads doubles parseValue n) :
    ValueReads doubles (valueStep doubles parseValue) (n + 1) := by
  intro value text rest item buffer htext hrest hdrop hdepth hgranted
  have hshallow : ¬ cJSONNestingLimit ≤ buffer.depth := by omega
  rcases htext with h | ⟨values, inner, rfl, hinside, rfl⟩ | ⟨members, inner, rfl, hinside, rfl⟩
  · exact valueStep_scalar doubles h hrest item hdrop hgranted
  · have hinner : buffer.content.drop (buffer.offset + 1) = inner ++ 93 :: rest := by
      rw [← List.drop_drop, hdrop]
      simp
    have hchar : ({ buffer with depth := buffer.depth + 1 } : ParseBuffer).char? = some 91 :=
      char?_of_drop hdrop
    have hchild : ChildReads (parseElement parseValue) (Element (Text doubles n))
        (Item.Holds doubles) (buffer.depth + 1) := by
      intro value text c rest newItem b htext hc hdrop hb hgranted
      obtain ⟨item, b', hcall, hwent, hholds, -⟩ := parseElement_reads doubles hvalue htext hc newItem
        hdrop (by rw [hb]; omega) hgranted
      exact ⟨item, b', hcall, hwent, hholds⟩
    obtain ⟨items, b, hcall, hwent, hitems⟩ := parseChildren_reads doubles hchild
      (starts_element doubles) (.inr (.inl rfl)) (by decide) hinside Kind.array item
      { buffer with depth := buffer.depth + 1 } hinner rfl hgranted
    refine ⟨{ item with kind := Kind.array, child := items }, b, ?_, ?_, .array rfl hitems, rfl⟩
    · rw [valueStep_eq doubles item (char?_of_drop hdrop) (by decide), if_neg (by decide),
        if_neg (by decide), if_pos rfl, parseArray, if_neg hshallow]
      simp only [hchar, Option.bind_some]
      exact hcall
    · have hlen : (91 :: inner ++ [93] : List UInt8).length = inner.length + 2 := by simp
      rw [hlen]
      exact hwent
  · have hinner : buffer.content.drop (buffer.offset + 1) = inner ++ 125 :: rest := by
      rw [← List.drop_drop, hdrop]
      simp
    have hchar : ({ buffer with depth := buffer.depth + 1 } : ParseBuffer).char? = some 123 :=
      char?_of_drop hdrop
    have hchild : ChildReads (parseMember parseValue) (Member (Text doubles n))
        (fun item member => item.Named member.1 ∧ item.Holds doubles member.2)
        (buffer.depth + 1) := by
      intro member text c rest newItem b htext hc hdrop hb hgranted
      exact parseMember_reads doubles hvalue htext hc newItem hdrop (by rw [hb]; omega) hgranted
    obtain ⟨items, b, hcall, hwent, hitems⟩ := parseChildren_reads doubles hchild
      (starts_member doubles) (.inr (.inr rfl)) (by decide) hinside Kind.object item
      { buffer with depth := buffer.depth + 1 } hinner rfl hgranted
    have hnamed : List.Forall₂ Item.Named items (members.map Prod.fst) := by
      rw [List.forall₂_map_right_iff]
      exact hitems.imp fun _ _ h => h.1
    have hheld : List.Forall₂ (Item.Holds doubles) items (members.map Prod.snd) := by
      rw [List.forall₂_map_right_iff]
      exact hitems.imp fun _ _ h => h.2
    refine ⟨{ item with kind := Kind.object, child := items }, b, ?_, ?_,
      .object rfl hnamed hheld, rfl⟩
    · rw [valueStep_eq doubles item (char?_of_drop hdrop) (by decide), if_neg (by decide),
        if_neg (by decide), if_neg (by decide), if_pos rfl, parseObject, if_neg hshallow]
      simp only [hchar]
      exact hcall
    · have hlen : (123 :: inner ++ [125] : List UInt8).length = inner.length + 2 := by simp
      rw [hlen]
      exact hwent

end Value

/-- **Every text of a value is read.** -/
theorem parseValue_reads (n : ℕ) : ValueReads doubles (parseValue doubles (n + 1)) n := by
  induction n with
  | zero =>
    intro value text rest item buffer htext hrest hdrop hdepth hgranted
    exact valueStep_scalar doubles htext hrest item hdrop hgranted
  | succ n ih => exact valueStep_reads doubles ih

/-! ### A whole text -/

/-- The mark is left out before a text that is long enough for the check. -/
theorem skipUtf8Bom_bom {buffer : ParseBuffer} {rest : List UInt8} (hzero : buffer.offset = 0)
    (hcontent : buffer.content = utf8Bom ++ rest) (hlong : 1 < rest.length) :
    skipUtf8Bom buffer = buffer.advance 3 := by
  have hstarts : buffer.startsWith utf8Bom := startsWith_iff.mpr ⟨rest, by
    rw [hzero, List.drop_zero, hcontent]⟩
  have hlen : buffer.offset + 4 < buffer.content.length := by
    have h3 : utf8Bom.length = 3 := rfl
    rw [hcontent, hzero, List.length_append]
    omega
  rw [skipUtf8Bom, if_pos ⟨hlen, hstarts⟩]

theorem skipUtf8Bom_other {buffer : ParseBuffer} {c : UInt8} (hc : buffer.char? = some c)
    (hlow : c < 128) : skipUtf8Bom buffer = buffer := by
  have hne : c ≠ 0xEF := by
    rintro rfl
    revert hlow
    decide
  have hstarts : buffer.startsWith utf8Bom = false := startsWith_eq_false hc hne
  rw [skipUtf8Bom, hstarts]
  simp

theorem cJSONParse_reads {value : Json Num} {bom w text rest : List UInt8}
    (hbom : bom = [] ∨ bom = utf8Bom) (hw : Blanks w)
    (htext : Text doubles cJSONNestingLimit value text) (hrest : Stops rest)
    (hnul : 0 ∉ bom ++ w ++ text ++ rest) {heap : Heap} (hheap : heap.NeverRefuses) :
    ∃ item heap', cJSONParse doubles (bom ++ w ++ text ++ rest) heap =
        some ⟨some item, none, (bom ++ w ++ text).length, heap'⟩ ∧ item.Holds doubles value ∧
      heap'.NeverRefuses := by
  obtain ⟨c, s, rfl, hc, hlow, -⟩ := htext.starts
  have hstring : (bom ++ w ++ c :: s ++ rest).takeWhile (· ≠ 0) = bom ++ w ++ c :: s ++ rest := by
    rw [List.takeWhile_eq_self_iff]
    intro d hd
    simpa using fun h : d = 0 => hnul (h ▸ hd)
  have hstops : Stops (rest ++ [0]) := by
    cases rest with
    | nil =>
      intro d hd
      obtain rfl := Option.mem_some_iff.mp hd
      decide
    | cons d rest => exact hrest
  obtain ⟨item, b, hnew, hwent, hmade⟩ :=
    cJSONNewItem_granted doubles ⟨bom ++ w ++ c :: s ++ rest ++ [0], 0, 0, heap⟩ hheap
  have hcontent : b.content = bom ++ w ++ c :: s ++ rest ++ [0] := hwent.content
  have hzero : b.offset = 0 := hwent.offset
  have hskipBom : skipUtf8Bom b = b.advance bom.length := by
    rcases hbom with rfl | rfl
    · obtain ⟨d, hd, hdlow⟩ : ∃ d, b.char? = some d ∧ d < 128 := by
        rw [ParseBuffer.char?, hzero, hcontent]
        cases w with
        | nil => exact ⟨c, rfl, hlow⟩
        | cons d w =>
          have hblank : d ≤ 32 := hw d (List.mem_cons_self ..)
          exact ⟨d, rfl, UInt8.lt_of_le_of_lt hblank (by decide : (32 : UInt8) < 128)⟩
      exact skipUtf8Bom_other hd hdlow
    · have hbehind : b.content = utf8Bom ++ (w ++ c :: s ++ rest ++ [0]) := by
        rw [hcontent]
        simp
      refine skipUtf8Bom_bom hzero hbehind ?_
      · simp only [List.length_append, List.length_cons, List.length_nil]
        omega
  have hbehind : (b.advance bom.length).content.drop (b.advance bom.length).offset =
      w ++ c :: (s ++ (rest ++ [0])) :=
    drop_advance (by rw [hzero, hcontent]; simp)
  obtain ⟨item', b', hcall, hwent', hholds, -⟩ := parseValue_reads doubles cJSONNestingLimit value
    (c :: s) (rest ++ [0]) item ((b.advance bom.length).advance w.length) htext hstops
    (drop_advance hbehind) (by
      have hdepth : b.depth = 0 := hwent.depth
      rw [advance_depth, advance_depth, hdepth, Nat.zero_add]) hwent.granted
  refine ⟨item', b'.heap, ?_, hholds, hwent'.granted⟩
  have hoffset := hwent'.offset
  simp only [advance_offset, hzero, Nat.zero_add] at hoffset
  have hnonempty : ¬ (bom ++ w ++ c :: s ++ rest ++ [0]).length = 0 := by simp
  rw [cJSONParse, hstring, cJSONParseWithLengthOpts, if_neg hnonempty, hnew]
  dsimp only
  rw [hskipBom, bufferSkipWhitespace_eq hw hc hbehind, parseDepth, hcall, Option.bind_some]
  simp [hoffset, Nat.add_assoc]

/-- Numbers without a sign, a fraction or an exponent. -/
def wholeNumbers : Doubles ℤ where
  zero := 0
  geIntMax n := decide (intMax ≤ n)
  leIntMin n := decide (n ≤ intMin)
  toInt n := n
  strtod s :=
    let digits := s.takeWhile fun c => 48 ≤ c && c ≤ 57
    (digits.foldl (fun n c => 10 * n + (c.toNat - 48)) 0, digits.length)
  strtod_le _ := (List.takeWhile_prefix _).length_le

def emptyHeap : Heap where
  granted _ _ := true
  requests := 0
  live := ∅
  fresh := by simp

/-- The text of the array `[7, "é"]`, the letter as an escape in it. -/
theorem text_sevenEAcute : Text wholeNumbers 1
    (Json.array [Json.number 7, Json.string (String.utf8EncodeChar 'é')])
    (91 :: ([55] ++ 44 :: ([32] ++
      (quote :: [backslash, letterU, 48, 48, 69, 57] ++ [quote]) ++ [])) ++ [93]) := by
  have hseven : NumberText wholeNumbers 7 [55] :=
    ⟨⟨55, rfl, by decide⟩, by simp [isNumberChar], by decide, rfl⟩
  have hletter : Chars (String.utf8EncodeChar 'é' ++ [])
      ([backslash, letterU, 48, 48, 69, 57] ++ []) :=
    .unicode (.unit rfl rfl (by decide)) .nil
  rw [List.append_nil, List.append_nil] at hletter
  refine Or.inr (Or.inl ⟨_, _, rfl, Or.inr (.comma ?_ (.last ?_)), rfl⟩)
  · exact ⟨[], [55], [], by simp [Blanks], .number hseven, by simp [Blanks], rfl⟩
  · exact ⟨[32], _, [], by simp [Blanks], .string hletter, by simp [Blanks], rfl⟩

end Lmalloc.Json
