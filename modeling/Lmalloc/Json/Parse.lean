/-
  Lmalloc/Json/Parse.lean
  =======================
  **The parser of `cJSON.c`.**

  A parse function answers `none` where the source has no defined behaviour: it
  reads past the content, writes past its allocation, or gives back a block that
  is not live.  The inner `none` is `false`.  A function that answers `false`
  leaves its item as it was, so only the buffer is returned then.

  `parse_value`, `parse_array` and `parse_object` call each other.  The fuel of
  `parseValue` counts these calls, the fuel of a loop its rounds; to run out of
  either is `none` too.
-/
import Lmalloc.Json.Escape
import Lmalloc.Json.Item

namespace Lmalloc.Json

/-- What the parser uses of `double`.  `strtod` reads a number at the start of a
    string and answers how many characters it took. -/
structure Doubles (Num : Type) where
  zero : Num
  geIntMax : Num → Bool
  leIntMin : Num → Bool
  toInt : Num → ℤ
  strtod : List UInt8 → Num × ℕ
  strtod_le : ∀ s, (strtod s).2 ≤ s.length

def intMax : ℤ := 2 ^ 31 - 1
def intMin : ℤ := -2 ^ 31
def cJSONNestingLimit : ℕ := 1000
def sizeofCJSON : ℕ := 64

/-- A `parse_buffer`, with the heap its hooks allocate from; `length` is that of
    the content. -/
structure ParseBuffer where
  content : List UInt8
  offset : ℕ
  depth : ℕ
  heap : Heap

namespace ParseBuffer

/-- The character at `buffer_at_offset`, where it can be accessed. -/
def char? (buffer : ParseBuffer) : Option UInt8 := buffer.content[buffer.offset]?

def advance (buffer : ParseBuffer) (n : ℕ) : ParseBuffer :=
  { buffer with offset := buffer.offset + n }

/-- `can_read` and `strncmp` with a word. -/
def startsWith (buffer : ParseBuffer) (word : List UInt8) : Bool :=
  (buffer.content.drop buffer.offset).take word.length == word

end ParseBuffer

abbrev Parsed (α : Type) := Option (Option α × ParseBuffer)

variable {Num : Type} (doubles : Doubles Num)

/-! ### Blanks -/

/-- How far the loop of `buffer_skip_whitespace` goes. -/
def blanks (text : List UInt8) : ℕ := (text.takeWhile (· ≤ 32)).length

def bufferSkipWhitespace (buffer : ParseBuffer) : ParseBuffer :=
  if buffer.content.length ≤ buffer.offset then buffer
  else
    let offset := buffer.offset + blanks (buffer.content.drop buffer.offset)
    { buffer with offset := if offset = buffer.content.length then offset - 1 else offset }

def utf8Bom : List UInt8 := [0xEF, 0xBB, 0xBF]

/-- Called at the start of the content. -/
def skipUtf8Bom (buffer : ParseBuffer) : ParseBuffer :=
  if buffer.offset + 4 < buffer.content.length ∧ buffer.startsWith utf8Bom then buffer.advance 3
  else buffer

/-! ### Numbers -/

def isNumberChar (c : UInt8) : Bool :=
  (48 ≤ c && c ≤ 57) || c == 43 || c == 45 || c == 101 || c == 69 || c == 46

/-- `number_c_string`: at most 63 characters. -/
def numberCString (text : List UInt8) : List UInt8 := (text.take 63).takeWhile isNumberChar

def saturate (number : Num) : ℤ :=
  if doubles.geIntMax number then intMax
  else if doubles.leIntMin number then intMin
  else doubles.toInt number

def parseNumber (item : Item Num) (buffer : ParseBuffer) : Parsed (Item Num) :=
  let (number, afterEnd) := doubles.strtod (numberCString (buffer.content.drop buffer.offset))
  if afterEnd = 0 then some (none, buffer)
  else
    some (some { item with
      kind := Kind.number, valuedouble := number, valueint := saturate doubles number },
      buffer.advance afterEnd)

/-! ### Strings -/

/-- The first pass of `parse_string`, over the text behind the opening quote: how
    far the closing one is, and `skipped_bytes`. -/
def scanString : List UInt8 → Option (ℕ × ℕ)
  | [] => none
  | c :: rest =>
      if c = quote then some (0, 0)
      else if c = backslash then
        match rest with
        | [] => none
        | _ :: rest => (scanString rest).map fun (n, skipped) => (n + 2, skipped + 1)
      else (scanString rest).map fun (n, skipped) => (n + 1, skipped)

/-- The escapes of one letter. -/
def simpleEscape (c : UInt8) : Option UInt8 :=
  if c = 98 then some 8
  else if c = 102 then some 12
  else if c = 110 then some 10
  else if c = 114 then some 13
  else if c = 116 then some 9
  else if c = quote ∨ c = backslash ∨ c = 47 then some c
  else none

/-- Bytes written at the end of an output of `size` bytes. -/
def putBytes (size : ℕ) (output bytes : List UInt8) : Option (List UInt8) :=
  if output.length + bytes.length ≤ size then some (output ++ bytes) else none

/-- The second pass.  It answers the output, or `none` for `goto fail`, and
    `input_pointer` as it is then. -/
def unescapeLoop (content : List UInt8) (inputEnd size : ℕ) :
    ℕ → ℕ → List UInt8 → Option (Option (List UInt8) × ℕ)
  | 0, _, _ => none
  | n + 1, inputPointer, output =>
      if inputPointer < inputEnd then
        (content[inputPointer]?).bind fun c =>
          if c ≠ backslash then
            (putBytes size output [c]).bind
              (unescapeLoop content inputEnd size n (inputPointer + 1))
          else
            (content[inputPointer + 1]?).bind fun escaped =>
              match simpleEscape escaped with
              | some b =>
                  (putBytes size output [b]).bind
                    (unescapeLoop content inputEnd size n (inputPointer + 2))
              | none =>
                  if escaped = letterU then
                    (utf16LiteralToUtf8 content inputPointer inputEnd).bind fun literal =>
                      match literal with
                      | none => some (none, inputPointer)
                      | some (bytes, sequenceLength) =>
                          (putBytes size output bytes).bind
                            (unescapeLoop content inputEnd size n (inputPointer + sequenceLength))
                  else some (none, inputPointer)
      else (putBytes size output [0]).map fun output => (some output, inputPointer)

def parseString (item : Item Num) (buffer : ParseBuffer) : Parsed (Item Num) :=
  let inputPointer := buffer.offset + 1
  (buffer.char?).bind fun c =>
    if c ≠ quote then some (none, { buffer with offset := inputPointer })
    else
      match scanString (buffer.content.drop inputPointer) with
      | none => some (none, { buffer with offset := inputPointer })
      | some (n, skippedBytes) =>
          let inputEnd := inputPointer + n
          let allocationLength := inputEnd - buffer.offset - skippedBytes
          match buffer.heap.allocate (allocationLength + 1) with
          | (none, heap) => some (none, { buffer with offset := inputPointer, heap := heap })
          | (some block, heap) =>
              (unescapeLoop buffer.content inputEnd (allocationLength + 1)
                  (buffer.content.length + 1) inputPointer []).bind fun (output, inputPointer) =>
                match output with
                | none =>
                    (heap.deallocate block).map fun heap =>
                      (none, { buffer with offset := inputPointer, heap := heap })
                | some output =>
                    some (some { item with kind := Kind.string, valuestring := some ⟨block, output⟩ },
                      { buffer with offset := inputEnd + 1, heap := heap })

/-! ### Arrays and objects -/

/-- `cJSON_New_Item`: the fields are cleared. -/
def cJSONNewItem (buffer : ParseBuffer) : Option (Item Num) × ParseBuffer :=
  let (block, heap) := buffer.heap.allocate sizeofCJSON
  (block.map fun block =>
    { block := block, kind := Kind.invalid, isReference := false, stringIsConst := false,
      valuestring := none, valueint := 0, valuedouble := doubles.zero, string := none,
      child := [] },
    { buffer with heap := heap })

/-- `fail:` of `parse_array` and `parse_object`. -/
def failWith (head : List (Item Num)) (buffer : ParseBuffer) : Parsed (List (Item Num)) :=
  (cJSONDelete head buffer.heap).map fun heap => (none, { buffer with heap := heap })

section Containers

variable (parseValue : Item Num → ParseBuffer → Parsed (Item Num))

/-- The value of a child and the blanks around it, from the comma or bracket before
    it on.  On `false` the new item is returned as it is then, to be deleted. -/
def parseElement (newItem : Item Num) (buffer : ParseBuffer) :
    Option ((Item Num × Bool) × ParseBuffer) :=
  (parseValue newItem (bufferSkipWhitespace (buffer.advance 1))).map fun (item, buffer) =>
    match item with
    | none => ((newItem, false), buffer)
    | some item => ((item, true), bufferSkipWhitespace buffer)

/-- The name of a child, the colon, and the value. -/
def parseMember (newItem : Item Num) (buffer : ParseBuffer) :
    Option ((Item Num × Bool) × ParseBuffer) :=
  if buffer.content.length ≤ buffer.offset + 1 then some ((newItem, false), buffer)
  else
    (parseString newItem (bufferSkipWhitespace (buffer.advance 1))).bind fun (named, buffer) =>
      match named with
      | none => some ((newItem, false), buffer)
      | some named =>
          let buffer := bufferSkipWhitespace buffer
          let named := { named with string := named.valuestring, valuestring := none }
          if buffer.char? ≠ some 58 then some ((named, false), buffer)
          else parseElement parseValue named buffer

/-- The loop of `parse_array` and of `parse_object`: `head` is the list so far. -/
def childLoop (parseChild : Item Num → ParseBuffer → Option ((Item Num × Bool) × ParseBuffer))
    (closing : UInt8) : ℕ → List (Item Num) → ParseBuffer → Parsed (List (Item Num))
  | 0, _, _ => none
  | n + 1, head, buffer =>
      match cJSONNewItem doubles buffer with
      | (none, buffer) => failWith head buffer
      | (some newItem, buffer) =>
          (parseChild newItem buffer).bind fun ((item, parsed), buffer) =>
            if ¬ parsed then failWith (head ++ [item]) buffer
            else if buffer.char? = some 44 then
              childLoop parseChild closing n (head ++ [item]) buffer
            else if buffer.char? = some closing then some (some (head ++ [item]), buffer)
            else failWith (head ++ [item]) buffer

/-- Both functions from behind the opening bracket on. -/
def parseChildren (kind : Kind) (closing : UInt8)
    (parseChild : Item Num → ParseBuffer → Option ((Item Num × Bool) × ParseBuffer))
    (item : Item Num) (buffer : ParseBuffer) : Parsed (Item Num) :=
  let buffer := bufferSkipWhitespace (buffer.advance 1)
  (if buffer.char? = some closing then some (some [], buffer)
    else if buffer.content.length ≤ buffer.offset then
      some (none, { buffer with offset := buffer.offset - 1 })
    else
      childLoop doubles parseChild closing (buffer.content.length + 1) []
        { buffer with offset := buffer.offset - 1 }).map fun (head, buffer) =>
      match head with
      | none => (none, buffer)
      | some head =>
          (some { item with kind := kind, child := head },
            { buffer with depth := buffer.depth - 1, offset := buffer.offset + 1 })

def parseArray (item : Item Num) (buffer : ParseBuffer) : Parsed (Item Num) :=
  if cJSONNestingLimit ≤ buffer.depth then some (none, buffer)
  else
    let buffer := { buffer with depth := buffer.depth + 1 }
    -- the bracket is read without asking whether it can be accessed
    (buffer.char?).bind fun c =>
      if c ≠ 91 then some (none, buffer)
      else parseChildren doubles Kind.array 93 (parseElement parseValue) item buffer

def parseObject (item : Item Num) (buffer : ParseBuffer) : Parsed (Item Num) :=
  if cJSONNestingLimit ≤ buffer.depth then some (none, buffer)
  else
    let buffer := { buffer with depth := buffer.depth + 1 }
    if buffer.char? ≠ some 123 then some (none, buffer)
    else parseChildren doubles Kind.object 125 (parseMember parseValue) item buffer

end Containers

/-- `parse_value`, with itself as the parser of the children. -/
def valueStep (parseValue : Item Num → ParseBuffer → Parsed (Item Num)) (item : Item Num)
    (buffer : ParseBuffer) : Parsed (Item Num) :=
  if buffer.startsWith [110, 117, 108, 108] then
    some (some { item with kind := Kind.null }, buffer.advance 4)
  else if buffer.startsWith [102, 97, 108, 115, 101] then
    some (some { item with kind := Kind.isFalse }, buffer.advance 5)
  else if buffer.startsWith [116, 114, 117, 101] then
    some (some { item with kind := Kind.isTrue, valueint := 1 }, buffer.advance 4)
  else
    match buffer.char? with
    | none => some (none, buffer)
    | some c =>
        if c = quote then parseString item buffer
        else if c = 45 ∨ 48 ≤ c ∧ c ≤ 57 then parseNumber doubles item buffer
        else if c = 91 then parseArray doubles parseValue item buffer
        else if c = 123 then parseObject doubles parseValue item buffer
        else some (none, buffer)

def parseValue : ℕ → Item Num → ParseBuffer → Parsed (Item Num)
  | 0, _, _ => none
  | n + 1, item, buffer => valueStep doubles (parseValue n) item buffer

/-! ### A whole text -/

/-- What `cJSON_ParseWithLengthOpts` leaves behind. -/
structure ParseResult (Num : Type) where
  item : Option (Item Num)
  /-- `global_error.position`; on success there is none. -/
  errorPosition : Option ℕ
  /-- `*return_parse_end`. -/
  parseEnd : ℕ
  heap : Heap

/-- `goto fail` with the item, if there is one, and the offset reached. -/
def parseFailed (item : Option (Item Num)) (length offset : ℕ) (heap : Heap) :
    Option (ParseResult Num) :=
  (cJSONDelete item.toList heap).map fun heap =>
    let position := if offset < length then offset else length - 1
    ⟨none, some position, position, heap⟩

/-- Deep enough for every text: one call more than the limit lets lie in each other. -/
def parseDepth : ℕ := cJSONNestingLimit + 1

def cJSONParseWithLengthOpts (value : List UInt8) (requireNullTerminated : Bool) (heap : Heap) :
    Option (ParseResult Num) :=
  if value.length = 0 then parseFailed none 0 0 heap
  else
    match cJSONNewItem doubles ⟨value, 0, 0, heap⟩ with
    | (none, buffer) => parseFailed none value.length 0 buffer.heap
    | (some item, buffer) =>
        (parseValue doubles parseDepth item (bufferSkipWhitespace (skipUtf8Bom buffer))).bind
          fun (parsed, buffer) =>
            match parsed with
            | none => parseFailed (some item) value.length buffer.offset buffer.heap
            | some parsed =>
                let buffer := if requireNullTerminated then bufferSkipWhitespace buffer else buffer
                if requireNullTerminated ∧ buffer.char? ≠ some 0 then
                  parseFailed (some parsed) value.length buffer.offset buffer.heap
                else some ⟨some parsed, none, buffer.offset, buffer.heap⟩

/-- `cJSON_Parse`: the string ends at its first `NUL`, which belongs to the content. -/
def cJSONParse (value : List UInt8) (heap : Heap) : Option (ParseResult Num) :=
  cJSONParseWithLengthOpts doubles (value.takeWhile (· ≠ 0) ++ [0]) false heap

end Lmalloc.Json
