/-
  Lmalloc/Json/Safety.lean
  ========================
  **What the parser reads, allocates and gives back.**

  Every call of a parse function has an answer: it reads inside the content,
  writes inside its allocations, and gives back live blocks only.  A call that
  fails leaves the live blocks as they were; one that succeeds adds those its item
  owns.  The offset never passes the end of the content.

  The fuel of `parseValue` needs to cover the containers that may still open, so
  the recursion is never deeper than the limit and one.
-/
import Lmalloc.Json.Unescape

namespace Lmalloc.Json

variable {Num : Type} (doubles : Doubles Num)

/-! ### Moving the offset -/

@[simp] theorem advance_content (buffer : ParseBuffer) (n : ℕ) :
    (buffer.advance n).content = buffer.content := rfl

@[simp] theorem advance_offset (buffer : ParseBuffer) (n : ℕ) :
    (buffer.advance n).offset = buffer.offset + n := rfl

@[simp] theorem advance_depth (buffer : ParseBuffer) (n : ℕ) :
    (buffer.advance n).depth = buffer.depth := rfl

@[simp] theorem advance_heap (buffer : ParseBuffer) (n : ℕ) :
    (buffer.advance n).heap = buffer.heap := rfl

@[simp] theorem bufferSkipWhitespace_content (buffer : ParseBuffer) :
    (bufferSkipWhitespace buffer).content = buffer.content := by
  unfold bufferSkipWhitespace
  split <;> rfl

@[simp] theorem bufferSkipWhitespace_depth (buffer : ParseBuffer) :
    (bufferSkipWhitespace buffer).depth = buffer.depth := by
  unfold bufferSkipWhitespace
  split <;> rfl

@[simp] theorem bufferSkipWhitespace_heap (buffer : ParseBuffer) :
    (bufferSkipWhitespace buffer).heap = buffer.heap := by
  unfold bufferSkipWhitespace
  split <;> rfl

theorem blanks_le (text : List UInt8) : blanks text ≤ text.length :=
  (List.takeWhile_prefix _).length_le

/-- The offset moves forward, and not past the last character. -/
theorem bufferSkipWhitespace_offset (buffer : ParseBuffer) :
    buffer.offset ≤ (bufferSkipWhitespace buffer).offset ∧
      (buffer.offset < buffer.content.length →
        (bufferSkipWhitespace buffer).offset < buffer.content.length) ∧
      (buffer.offset ≤ buffer.content.length →
        (bufferSkipWhitespace buffer).offset ≤ buffer.content.length) := by
  have hblanks := blanks_le (buffer.content.drop buffer.offset)
  rw [List.length_drop] at hblanks
  unfold bufferSkipWhitespace
  split
  · exact ⟨Nat.le_refl _, id, id⟩
  · dsimp only
    split <;> exact ⟨by omega, by omega, by omega⟩

/-! ### Calls that have an answer -/

/-- The call answers, with the content as it was and the offset inside it.  If it
    fails, the blocks `lost` are given back; if not, `Q` holds of the answer. -/
def Answers {α : Type} (buffer : ParseBuffer) (lost : Multiset ℕ) (r : Parsed α)
    (Q : α → ParseBuffer → Prop) : Prop :=
  ∃ a b, r = some (a, b) ∧ b.content = buffer.content ∧ b.offset ≤ buffer.content.length ∧
    (a = none → b.heap.live.val + lost = buffer.heap.live.val) ∧ ∀ x, a = some x → Q x b

section Answers

variable {α β : Type} {buffer : ParseBuffer} {lost : Multiset ℕ}

theorem Answers.fail {Q : α → ParseBuffer → Prop} {b : ParseBuffer}
    (hcontent : b.content = buffer.content) (hoffset : b.offset ≤ buffer.content.length)
    (hlive : b.heap.live.val + lost = buffer.heap.live.val) :
    Answers buffer lost (some (none, b)) Q :=
  ⟨none, b, rfl, hcontent, hoffset, fun _ => hlive, fun x h => (Option.some_ne_none x h.symm).elim⟩

theorem Answers.done {Q : α → ParseBuffer → Prop} {b : ParseBuffer} {x : α}
    (hcontent : b.content = buffer.content) (hoffset : b.offset ≤ buffer.content.length)
    (hQ : Q x b) : Answers buffer lost (some (some x, b)) Q :=
  ⟨some x, b, rfl, hcontent, hoffset, fun h => (Option.some_ne_none x h).elim,
    fun _ h => Option.some.inj h ▸ hQ⟩

/-- An answer about the buffer one step later is one about the buffer before. -/
theorem Answers.of_step {Q Q' : α → ParseBuffer → Prop} {later : ParseBuffer}
    {lost' : Multiset ℕ} {r : Parsed α} (h : Answers later lost' r Q')
    (hcontent : later.content = buffer.content)
    (hlive : later.heap.live.val + lost = buffer.heap.live.val + lost')
    (hQ : ∀ x b, Q' x b → Q x b) : Answers buffer lost r Q := by
  obtain ⟨a, b, hr, hb, hoffset, hfail, hdone⟩ := h
  refine ⟨a, b, hr, hb.trans hcontent, by rwa [← hcontent], fun ha => ?_,
    fun x hx => hQ x b (hdone x hx)⟩
  have hstep : b.heap.live.val + lost + lost' = buffer.heap.live.val + lost' := by
    rw [add_right_comm, hfail ha, hlive]
  exact add_right_cancel hstep

end Answers

/-- What a parsed item owns comes on top of what it owned before. -/
structure ItemParsed (item : Item Num) (buffer : ParseBuffer) (parsed : Item Num)
    (b : ParseBuffer) : Prop where
  live : b.heap.live.val + item.blocks = buffer.heap.live.val + parsed.blocks
  depth : b.depth = buffer.depth
  offset : buffer.offset < b.offset
  nesting : buffer.depth + parsed.nesting ≤ cJSONNestingLimit

/-- An item whose value is still to be parsed. -/
structure Item.Blank (item : Item Num) : Prop where
  valuestring : item.valuestring = none
  child : item.child = []
  isReference : item.isReference = false
  stringIsConst : item.stringIsConst = false

theorem Item.Blank.blocks {item : Item Num} (h : item.Blank) :
    item.blocks = stringBlocks item.string + {item.block} := by
  rw [item.blocks_eq, h.valuestring, h.child, h.isReference, h.stringIsConst]
  simp [stringBlocks, childBlocks]

/-- An item that got no children lies in nothing. -/
theorem ItemParsed.leaf {item parsed : Item Num} {buffer b : ParseBuffer}
    (hlive : b.heap.live.val + item.blocks = buffer.heap.live.val + parsed.blocks)
    (hdepth : b.depth = buffer.depth) (hoffset : buffer.offset < b.offset)
    (hchild : parsed.child = []) (hkind : parsed.kind ≠ Kind.array ∧ parsed.kind ≠ Kind.object)
    (hlimit : buffer.depth ≤ cJSONNestingLimit) : ItemParsed item buffer parsed b := by
  refine ⟨hlive, hdepth, hoffset, ?_⟩
  rw [parsed.nesting_eq, hchild, if_neg (not_or.mpr hkind)]
  exact hlimit

/-! ### Numbers and strings -/

theorem length_numberCString_le (text : List UInt8) :
    (numberCString text).length ≤ text.length := by
  have htake := (List.takeWhile_prefix (l := text.take 63) isNumberChar).length_le
  exact htake.trans (List.length_take_le' _ _)

theorem parseNumber_answers {item : Item Num} (hblank : item.Blank) {buffer : ParseBuffer}
    (hoffset : buffer.offset ≤ buffer.content.length) (hdepth : buffer.depth ≤ cJSONNestingLimit) :
    Answers buffer 0 (parseNumber doubles item buffer) (ItemParsed item buffer) := by
  have hread := doubles.strtod_le (numberCString (buffer.content.drop buffer.offset))
  have hlen := length_numberCString_le (buffer.content.drop buffer.offset)
  rw [List.length_drop] at hlen
  rcases hcall : doubles.strtod (numberCString (buffer.content.drop buffer.offset)) with
    ⟨number, afterEnd⟩
  rw [hcall] at hread
  dsimp only at hread
  simp only [parseNumber, hcall]
  split
  · exact Answers.fail rfl hoffset (add_zero _)
  · next hne =>
    refine Answers.done rfl ?_ (ItemParsed.leaf ?_ rfl ?_ hblank.child (by simp) hdepth)
    · change buffer.offset + afterEnd ≤ _
      omega
    · rw [Item.blocks_eq, Item.blocks_eq]
      rfl
    · exact Nat.lt_add_of_pos_right (Nat.pos_of_ne_zero hne)

theorem parseString_answers {item : Item Num} (hblank : item.Blank) (buffer : ParseBuffer)
    (hoffset : buffer.offset < buffer.content.length) (hdepth : buffer.depth ≤ cJSONNestingLimit) :
    Answers buffer 0 (parseString item buffer) fun parsed b =>
      ItemParsed item buffer parsed b ∧
        ∃ s, parsed = { item with kind := Kind.string, valuestring := some s } := by
  have hchar : buffer.char? = some buffer.content[buffer.offset] :=
    List.getElem?_eq_getElem hoffset
  simp only [parseString, hchar, Option.bind_some]
  split
  · exact Answers.fail rfl hoffset (add_zero _)
  split
  · exact Answers.fail rfl hoffset (add_zero _)
  next n skipped hscan =>
  have hn : buffer.offset + 1 + n < buffer.content.length := by
    have h := (List.getElem?_eq_some_iff.mp (scanString_eq_some hscan).1).1
    rw [List.length_drop] at h
    omega
  have hsize : buffer.offset + 1 + n - buffer.offset - skipped + 1 = outputSize n skipped := by
    unfold outputSize
    omega
  rw [hsize]
  have hallocated := buffer.heap.live_allocate (outputSize n skipped)
  rcases hallocate : buffer.heap.allocate (outputSize n skipped) with ⟨block, heap⟩
  rw [hallocate] at hallocated
  cases block with
  | none => exact Answers.fail rfl hoffset (by simpa using hallocated)
  | some block =>
    have hlive : heap.live.val = buffer.heap.live.val + {block} := hallocated
    obtain ⟨result, pointer, hresult, hpointer, -⟩ :=
      unescapeLoop_safe hscan (buffer.content.length + 1) 0 [] (by omega) (Nat.zero_le _)
        (by simp [pairsBefore])
    simp only [Nat.add_zero] at hresult
    simp only [hresult, Option.bind_some]
    cases result with
    | none =>
      obtain ⟨heap', hheap', -, -, hreleased⟩ := releases_deallocate block heap (by
        rw [hlive]
        exact Multiset.le_add_left _ _)
      simp only [hheap', Option.map_some]
      refine Answers.fail rfl hpointer ?_
      rw [hlive] at hreleased
      rw [add_zero]
      exact add_right_cancel hreleased
    | some output =>
      refine Answers.done rfl (Nat.succ_le_of_lt hn)
        ⟨ItemParsed.leaf ?_ rfl ?_ hblank.child (by simp) hdepth, _, rfl⟩
      · rw [Item.blocks_eq, Item.blocks_eq]
        simp only [hblank.valuestring, hblank.child, hblank.isReference, hblank.stringIsConst,
          hlive, stringBlocks, childBlocks, Bool.false_eq_true, if_false]
        abel
      · change buffer.offset < buffer.offset + 1 + n + 1
        omega

/-! ### New items, and giving them back -/

/-- What a new item is: nothing yet, in a block of its own. -/
structure ItemMade (buffer : ParseBuffer) (item : Item Num) (b : ParseBuffer) : Prop where
  blank : item.Blank
  string : item.string = none
  blocks : item.blocks = {item.block}
  content : b.content = buffer.content
  offset : b.offset = buffer.offset
  depth : b.depth = buffer.depth
  live : b.heap.live.val = buffer.heap.live.val + item.blocks

theorem cJSONNewItem_cases (buffer : ParseBuffer) :
    (∃ b, cJSONNewItem doubles buffer = (none, b) ∧ b.content = buffer.content ∧
      b.offset = buffer.offset ∧ b.heap.live.val = buffer.heap.live.val) ∨
    ∃ item b, cJSONNewItem doubles buffer = (some item, b) ∧ ItemMade buffer item b := by
  have hlive := buffer.heap.live_allocate sizeofCJSON
  rcases hcall : buffer.heap.allocate sizeofCJSON with ⟨block, heap⟩
  rw [hcall] at hlive
  cases block with
  | none => exact Or.inl ⟨{ buffer with heap := heap }, by simp [cJSONNewItem, hcall], rfl, rfl,
      by simpa using hlive⟩
  | some block =>
    refine Or.inr ⟨_, { buffer with heap := heap }, by simp [cJSONNewItem, hcall]; rfl, ?_⟩
    have hblank : (⟨block, Kind.invalid, false, false, none, 0, doubles.zero, none, []⟩ :
      Item Num).Blank := ⟨rfl, rfl, rfl, rfl⟩
    have hblocks := hblank.blocks
    simp only [stringBlocks, zero_add] at hblocks
    exact ⟨hblank, rfl, hblocks, rfl, rfl, rfl, by rw [hblocks]; exact hlive⟩

/-- `fail:` gives back the children, whatever the caller had before them. -/
theorem failWith_answers {buffer b : ParseBuffer} {lost : Multiset ℕ} {head : List (Item Num)}
    {Q : List (Item Num) → ParseBuffer → Prop} (hcontent : b.content = buffer.content)
    (hoffset : b.offset ≤ buffer.content.length)
    (hlive : b.heap.live.val + lost = buffer.heap.live.val + childBlocks head)
    (hlost : lost ≤ buffer.heap.live.val) : Answers buffer lost (failWith head b) Q := by
  have hown : childBlocks head ≤ b.heap.live.val := by
    have hle : childBlocks head + lost ≤ b.heap.live.val + lost := by
      rw [hlive, add_comm]
      exact Multiset.add_le_add_right hlost
    exact Multiset.le_of_add_le_add_right hle
  obtain ⟨heap, hheap, -, -, hreleased⟩ := releases_cJSONDelete head b.heap hown
  rw [failWith, hheap, Option.map_some]
  refine Answers.fail hcontent hoffset ?_
  have hsum : heap.live.val + lost + childBlocks head =
      buffer.heap.live.val + childBlocks head := by
    rw [add_right_comm, hreleased, hlive]
  exact add_right_cancel hsum

/-! ### Children -/

/-- A child that was parsed, or that is to be deleted: what it owns is accounted for. -/
structure ChildParsed (newItem : Item Num) (buffer : ParseBuffer) (item : Item Num) (parsed : Bool)
    (b : ParseBuffer) : Prop where
  content : b.content = buffer.content
  offset : b.offset ≤ buffer.content.length
  live : b.heap.live.val + newItem.blocks = buffer.heap.live.val + item.blocks
  depth : parsed → b.depth = buffer.depth
  progress : parsed → buffer.offset < b.offset
  nesting : parsed → buffer.depth + item.nesting ≤ cJSONNestingLimit

def ChildAnswers (newItem : Item Num) (buffer : ParseBuffer)
    (r : Option ((Item Num × Bool) × ParseBuffer)) : Prop :=
  ∃ item parsed b, r = some ((item, parsed), b) ∧ ChildParsed newItem buffer item parsed b

theorem ChildAnswers.fail {newItem item : Item Num} {buffer b : ParseBuffer}
    (hcontent : b.content = buffer.content) (hoffset : b.offset ≤ buffer.content.length)
    (hlive : b.heap.live.val + newItem.blocks = buffer.heap.live.val + item.blocks) :
    ChildAnswers newItem buffer (some ((item, false), b)) :=
  ⟨item, false, b, rfl, hcontent, hoffset, hlive, nofun, nofun, nofun⟩

/-- `parseValue` answers at this depth. -/
def ParsesValues (parseValue : Item Num → ParseBuffer → Parsed (Item Num)) (depth : ℕ) : Prop :=
  ∀ item buffer, item.Blank → buffer.offset ≤ buffer.content.length → buffer.depth = depth →
    Answers buffer 0 (parseValue item buffer) (ItemParsed item buffer)

section Children

variable {parseValue : Item Num → ParseBuffer → Parsed (Item Num)}

theorem ChildAnswers.of_step {newItem named : Item Num} {buffer later : ParseBuffer}
    {r : Option ((Item Num × Bool) × ParseBuffer)} (h : ChildAnswers named later r)
    (hcontent : later.content = buffer.content) (hdepth : later.depth = buffer.depth)
    (hoffset : buffer.offset ≤ later.offset)
    (hlive : later.heap.live.val + newItem.blocks = buffer.heap.live.val + named.blocks) :
    ChildAnswers newItem buffer r := by
  obtain ⟨item, parsed, b, hr, hb⟩ := h
  refine ⟨item, parsed, b, hr, hb.content.trans hcontent, ?_, ?_, fun hp => ?_, fun hp => ?_,
    fun hp => ?_⟩
  · rw [← hcontent]
    exact hb.offset
  · have hsum : b.heap.live.val + newItem.blocks + named.blocks =
        buffer.heap.live.val + item.blocks + named.blocks := by
      rw [add_right_comm, hb.live, add_right_comm, hlive, add_right_comm]
    exact add_right_cancel hsum
  · rw [hb.depth hp, hdepth]
  · exact Nat.lt_of_le_of_lt hoffset (hb.progress hp)
  · rw [← hdepth]
    exact hb.nesting hp

theorem parseElement_answers {depth : ℕ} (hvalue : ParsesValues parseValue depth)
    {newItem : Item Num} (hblank : newItem.Blank) {buffer : ParseBuffer}
    (hoffset : buffer.offset < buffer.content.length) (hdepth : buffer.depth = depth) :
    ChildAnswers newItem buffer (parseElement parseValue newItem buffer) := by
  obtain ⟨hforth, -, hinside⟩ := bufferSkipWhitespace_offset (buffer.advance 1)
  simp only [advance_offset, advance_content] at hforth hinside
  obtain ⟨a, b, hcall, hcontent, hb, hfail, hdone⟩ := hvalue newItem
    (bufferSkipWhitespace (buffer.advance 1)) hblank (by simpa using hinside hoffset)
    (by simpa using hdepth)
  simp only [bufferSkipWhitespace_content, bufferSkipWhitespace_heap, advance_content,
    advance_heap, add_zero] at hcontent hb hfail
  rw [parseElement, hcall, Option.map_some]
  cases a with
  | none => exact ChildAnswers.fail hcontent hb (by rw [hfail rfl])
  | some item =>
    obtain ⟨hlive, hsame, hprogress, hnesting⟩ := hdone item rfl
    simp only [bufferSkipWhitespace_depth, bufferSkipWhitespace_heap, advance_depth,
      advance_heap] at hlive hsame hnesting
    obtain ⟨hlater, -, hstay⟩ := bufferSkipWhitespace_offset b
    rw [hcontent] at hstay
    refine ⟨item, true, _, rfl, ?_, hstay hb, ?_, fun _ => ?_, fun _ => ?_, fun _ => hnesting⟩
    · rw [bufferSkipWhitespace_content, hcontent]
    · rw [bufferSkipWhitespace_heap, hlive]
    · rw [bufferSkipWhitespace_depth, hsame]
    · omega

theorem parseMember_answers {depth : ℕ} (hvalue : ParsesValues parseValue depth)
    {newItem : Item Num} (hblank : newItem.Blank) (hstring : newItem.string = none)
    {buffer : ParseBuffer} (hoffset : buffer.offset < buffer.content.length)
    (hdepth : buffer.depth = depth) (hlimit : depth ≤ cJSONNestingLimit) :
    ChildAnswers newItem buffer (parseMember parseValue newItem buffer) := by
  unfold parseMember
  split
  · exact ChildAnswers.fail rfl (Nat.le_of_lt hoffset) rfl
  next hnext =>
  obtain ⟨hforth, hinside, -⟩ := bufferSkipWhitespace_offset (buffer.advance 1)
  simp only [advance_offset, advance_content] at hforth hinside
  obtain ⟨a, b, hcall, hcontent, hb, hfail, hdone⟩ := parseString_answers hblank
    (bufferSkipWhitespace (buffer.advance 1)) (by simpa using hinside (by omega))
    (by simpa [hdepth] using hlimit)
  simp only [bufferSkipWhitespace_content, bufferSkipWhitespace_heap, advance_content,
    advance_heap, add_zero] at hcontent hb hfail
  rw [hcall, Option.bind_some]
  cases a with
  | none => exact ChildAnswers.fail hcontent hb (by rw [hfail rfl])
  | some item =>
    obtain ⟨⟨hlive, hsame, hprogress, -⟩, s, rfl⟩ := hdone item rfl
    simp only [bufferSkipWhitespace_depth, bufferSkipWhitespace_heap, advance_depth,
      advance_heap] at hlive hsame
    obtain ⟨hlater, -, hstay⟩ := bufferSkipWhitespace_offset b
    rw [hcontent] at hstay
    -- the name moves from `valuestring` to `string`, in the same block
    have hnamed : Item.Blank { newItem with
        kind := Kind.string, valuestring := none, string := some s } :=
      ⟨rfl, hblank.child, hblank.isReference, hblank.stringIsConst⟩
    have hblocks : Item.blocks { newItem with
          kind := Kind.string, valuestring := none, string := some s } =
        Item.blocks { newItem with kind := Kind.string, valuestring := some s } := by
      rw [Item.blocks_eq, Item.blocks_eq]
      simp [hblank.isReference, hblank.stringIsConst, hstring, stringBlocks]
    rw [← hblocks] at hlive
    dsimp only
    split
    · exact ChildAnswers.fail (by rw [bufferSkipWhitespace_content, hcontent]) (hstay hb)
        (by rw [bufferSkipWhitespace_heap]; exact hlive)
    · next hcolon =>
      have hinside' : (bufferSkipWhitespace b).offset < (bufferSkipWhitespace b).content.length :=
        (List.getElem?_eq_some_iff.mp (not_not.mp hcolon)).1
      refine (parseElement_answers hvalue hnamed hinside' ?_).of_step ?_ ?_ ?_ ?_
      · rw [bufferSkipWhitespace_depth, hsame, hdepth]
      · rw [bufferSkipWhitespace_content, hcontent]
      · rw [bufferSkipWhitespace_depth, hsame]
      · omega
      · rw [bufferSkipWhitespace_heap]
        exact hlive

/-! ### Containers -/

structure ChildrenParsed (head : List (Item Num)) (buffer : ParseBuffer)
    (children : List (Item Num)) (b : ParseBuffer) : Prop where
  live : b.heap.live.val + childBlocks head = buffer.heap.live.val + childBlocks children
  depth : b.depth = buffer.depth
  progress : buffer.offset < b.offset
  inside : b.offset < buffer.content.length
  nesting : buffer.depth + childNesting head ≤ cJSONNestingLimit →
    buffer.depth + childNesting children ≤ cJSONNestingLimit

/-- What the two kinds of children have in common. -/
def ParsesChildren (parseChild : Item Num → ParseBuffer → Option ((Item Num × Bool) × ParseBuffer))
    (depth : ℕ) : Prop :=
  ∀ newItem buffer, newItem.Blank → newItem.string = none →
    buffer.offset < buffer.content.length → buffer.depth = depth →
    ChildAnswers newItem buffer (parseChild newItem buffer)

variable {parseChild : Item Num → ParseBuffer → Option ((Item Num × Bool) × ParseBuffer)}

theorem childLoop_answers {depth : ℕ} (hchild : ParsesChildren parseChild depth) (closing : UInt8)
    (fuel : ℕ) (head : List (Item Num)) (buffer : ParseBuffer)
    (hfuel : buffer.content.length < fuel + buffer.offset)
    (hoffset : buffer.offset < buffer.content.length) (hdepth : buffer.depth = depth)
    (hhead : childBlocks head ≤ buffer.heap.live.val) :
    Answers buffer (childBlocks head) (childLoop doubles parseChild closing fuel head buffer)
      (ChildrenParsed head buffer) := by
  induction fuel generalizing head buffer with
  | zero => omega
  | succ fuel ih =>
    rw [childLoop]
    rcases cJSONNewItem_cases doubles buffer with ⟨b, hb, hcontent, hsame, hlive⟩ |
      ⟨newItem, b, hb, hmade⟩
    · rw [hb]
      exact failWith_answers hcontent (by rw [hsame]; exact Nat.le_of_lt hoffset)
        (by rw [hlive]) hhead
    rw [hb]
    dsimp only
    obtain ⟨item, parsed, b', hcall, hparsed⟩ := hchild newItem b hmade.blank hmade.string
      (by rw [hmade.content, hmade.offset]; exact hoffset) (by rw [hmade.depth, hdepth])
    have hcontent : b'.content = buffer.content := by rw [hparsed.content, hmade.content]
    have hlive : b'.heap.live.val = buffer.heap.live.val + item.blocks := by
      have hsum := hparsed.live
      rw [hmade.live, add_right_comm] at hsum
      exact add_right_cancel hsum
    have hown : b'.heap.live.val + childBlocks head =
        buffer.heap.live.val + childBlocks (head ++ [item]) := by
      rw [hlive, childBlocks_append, childBlocks, childBlocks, add_zero, add_assoc,
        add_comm item.blocks]
    have hfail : Answers buffer (childBlocks head) (failWith (head ++ [item]) b')
        (ChildrenParsed head buffer) := by
      have hb' := hparsed.offset
      rw [hmade.content] at hb'
      exact failWith_answers hcontent hb' hown hhead
    rw [hcall, Option.bind_some]
    dsimp only
    split
    · exact hfail
    next hok =>
    have hok : parsed = true := by simpa using hok
    have hsame : b'.depth = buffer.depth := by rw [hparsed.depth hok, hmade.depth]
    have hprogress : buffer.offset < b'.offset := by
      rw [← hmade.offset]
      exact hparsed.progress hok
    have hnesting : buffer.depth + childNesting head ≤ cJSONNestingLimit →
        buffer.depth + childNesting (head ++ [item]) ≤ cJSONNestingLimit := by
      intro hle
      have hitem := hparsed.nesting hok
      rw [hmade.depth] at hitem
      simp only [childNesting_append, childNesting, Nat.max_zero]
      omega
    split
    · next hcomma =>
      have hinside : b'.offset < b'.content.length := (List.getElem?_eq_some_iff.mp hcomma).1
      refine (ih (head ++ [item]) b' (by rw [hcontent]; omega) hinside (by rw [hsame, hdepth])
        ?_).of_step hcontent hown fun children c hc => ⟨?_, ?_, ?_, ?_, fun hle => ?_⟩
      · rw [childBlocks_append, childBlocks, childBlocks, add_zero, hlive]
        exact Multiset.add_le_add_right hhead
      · have hsum := hc.live
        have hsum' : c.heap.live.val + childBlocks head + childBlocks (head ++ [item]) =
            buffer.heap.live.val + childBlocks children + childBlocks (head ++ [item]) := by
          rw [add_right_comm, hsum, add_right_comm, hown, add_right_comm]
        exact add_right_cancel hsum'
      · rw [hc.depth, hsame]
      · exact Nat.lt_trans hprogress hc.progress
      · rw [← hcontent]
        exact hc.inside
      · have hle := hc.nesting
        rw [hsame] at hle
        exact hle (hnesting ‹_›)
    · split
      · next hclosing =>
        have hinside : b'.offset < b'.content.length := (List.getElem?_eq_some_iff.mp hclosing).1
        rw [hcontent] at hinside
        exact Answers.done hcontent (Nat.le_of_lt hinside)
          ⟨hown, hsame, hprogress, hinside, hnesting⟩
      · exact hfail

theorem parseChildren_answers {depth : ℕ} (hchild : ParsesChildren parseChild (depth + 1))
    {kind : Kind} (closing : UInt8) {item : Item Num} (hblank : item.Blank) (buffer : ParseBuffer)
    (hoffset : buffer.offset < buffer.content.length) (hdepth : buffer.depth = depth + 1)
    (hlimit : depth < cJSONNestingLimit) :
    Answers buffer 0 (parseChildren doubles kind closing parseChild item buffer)
      (ItemParsed item { buffer with depth := depth }) := by
  obtain ⟨hforth, -, hinside⟩ := bufferSkipWhitespace_offset (buffer.advance 1)
  simp only [advance_offset, advance_content] at hforth hinside
  have hinside := hinside hoffset
  unfold parseChildren
  dsimp only
  generalize hb : bufferSkipWhitespace (buffer.advance 1) = b at hforth hinside ⊢
  have hcontent : b.content = buffer.content := by rw [← hb, bufferSkipWhitespace_content]; rfl
  have hheap : b.heap = buffer.heap := by rw [← hb, bufferSkipWhitespace_heap]; rfl
  have hsame : b.depth = buffer.depth := by rw [← hb, bufferSkipWhitespace_depth]; rfl
  have hchildren : Answers buffer 0
      (if b.char? = some closing then some (some [], b)
        else if b.content.length ≤ b.offset then some (none, { b with offset := b.offset - 1 })
        else
          childLoop doubles parseChild closing (b.content.length + 1) []
            { b with offset := b.offset - 1 })
      fun children c => c.heap.live.val = buffer.heap.live.val + childBlocks children ∧
        c.depth = depth + 1 ∧ buffer.offset < c.offset + 1 ∧ c.offset < buffer.content.length ∧
          depth + 1 + childNesting children ≤ cJSONNestingLimit := by
    split
    · next hclosing =>
      have hlt : b.offset < b.content.length := (List.getElem?_eq_some_iff.mp hclosing).1
      rw [hcontent] at hlt
      refine Answers.done hcontent (Nat.le_of_lt hlt) ⟨?_, by rw [hsame, hdepth], by omega, hlt, ?_⟩
      · rw [hheap, childBlocks, add_zero]
      · exact hlimit
    split
    · exact Answers.fail hcontent (by dsimp only; omega) (by rw [add_zero, hheap])
    · next hlt =>
      rw [hcontent] at hlt
      have hloop := childLoop_answers doubles hchild closing (b.content.length + 1) []
        { b with offset := b.offset - 1 } (by dsimp only; omega)
        (by dsimp only; rw [hcontent]; omega) (by rw [← hdepth, ← hsame])
        (by rw [childBlocks]; exact Multiset.zero_le _)
      rw [childBlocks] at hloop
      refine hloop.of_step hcontent (by rw [hheap]) fun children c hc => ⟨?_, ?_, ?_, ?_, ?_⟩
      · rw [← hheap]
        simpa [childBlocks] using hc.live
      · rw [hc.depth, ← hdepth, ← hsame]
      · have hprogress : b.offset - 1 < c.offset := hc.progress
        omega
      · rw [← hcontent]
        exact hc.inside
      · have hnesting := hc.nesting
        simp only [childNesting, hsame, hdepth] at hnesting
        exact hnesting hlimit
  obtain ⟨a, c, hcall, hc, hle, hfail, hdone⟩ := hchildren
  rw [hcall, Option.map_some]
  cases a with
  | none => exact Answers.fail hc hle (hfail rfl)
  | some children =>
    obtain ⟨hlive, hback, hprogress, hlt, hnesting⟩ := hdone children rfl
    refine Answers.done hc (Nat.succ_le_of_lt hlt) ⟨?_, ?_, hprogress, ?_⟩
    · dsimp only
      rw [Item.blocks_eq, Item.blocks_eq, hlive]
      simp only [hblank.valuestring, hblank.child, hblank.isReference, hblank.stringIsConst,
        stringBlocks, childBlocks, Bool.false_eq_true, if_false]
      abel
    · change c.depth - 1 = depth
      rw [hback, Nat.add_sub_cancel]
    · rw [Item.nesting_eq]
      dsimp only
      split <;> omega

/-- A container that may still open. -/
theorem openedChildren_answers {depth : ℕ} (hchild : ParsesChildren parseChild (depth + 1))
    {kind : Kind} (closing : UInt8) {item : Item Num} (hblank : item.Blank) {buffer : ParseBuffer}
    (hoffset : buffer.offset < buffer.content.length) (hdepth : buffer.depth = depth)
    (hlimit : depth < cJSONNestingLimit) :
    Answers buffer 0
      (parseChildren doubles kind closing parseChild item { buffer with depth := buffer.depth + 1 })
      (ItemParsed item buffer) := by
  refine (parseChildren_answers doubles hchild closing hblank
    { buffer with depth := buffer.depth + 1 } hoffset (by rw [hdepth]) hlimit).of_step
    rfl rfl fun x b h => ?_
  rw [← hdepth] at h
  exact ⟨h.live, h.depth, h.offset, h.nesting⟩

theorem parseArray_answers {depth : ℕ} (hlimit : depth ≤ cJSONNestingLimit)
    (hvalue : depth < cJSONNestingLimit → ParsesValues parseValue (depth + 1)) {item : Item Num}
    (hblank : item.Blank) {buffer : ParseBuffer} (hoffset : buffer.offset < buffer.content.length)
    (hdepth : buffer.depth = depth) :
    Answers buffer 0 (parseArray doubles parseValue item buffer) (ItemParsed item buffer) := by
  have hchar : ({ buffer with depth := buffer.depth + 1 } : ParseBuffer).char? =
      some buffer.content[buffer.offset] := List.getElem?_eq_getElem hoffset
  unfold parseArray
  split
  · exact Answers.fail rfl (Nat.le_of_lt hoffset) (add_zero _)
  next hdeep =>
  have hlt : depth < cJSONNestingLimit := by omega
  simp only [hchar, Option.bind_some]
  split
  · exact Answers.fail rfl (Nat.le_of_lt hoffset) (add_zero _)
  · refine openedChildren_answers doubles (fun newItem b hnew _ hb hd => ?_) _ hblank hoffset hdepth
      hlt
    exact parseElement_answers (hvalue hlt) hnew hb hd

theorem parseObject_answers {depth : ℕ} (hlimit : depth ≤ cJSONNestingLimit)
    (hvalue : depth < cJSONNestingLimit → ParsesValues parseValue (depth + 1)) {item : Item Num}
    (hblank : item.Blank) {buffer : ParseBuffer} (hoffset : buffer.offset < buffer.content.length)
    (hdepth : buffer.depth = depth) :
    Answers buffer 0 (parseObject doubles parseValue item buffer) (ItemParsed item buffer) := by
  unfold parseObject
  split
  · exact Answers.fail rfl (Nat.le_of_lt hoffset) (add_zero _)
  next hdeep =>
  have hlt : depth < cJSONNestingLimit := by omega
  dsimp only
  split
  · exact Answers.fail rfl (Nat.le_of_lt hoffset) (add_zero _)
  · refine openedChildren_answers doubles (fun newItem b hnew hstring hb hd => ?_) _ hblank hoffset
      hdepth hlt
    exact parseMember_answers (hvalue hlt) hnew hstring hb hd hlt

/-! ### Values -/

theorem startsWith_iff {buffer : ParseBuffer} {word : List UInt8} :
    buffer.startsWith word ↔ ∃ rest, buffer.content.drop buffer.offset = word ++ rest := by
  rw [ParseBuffer.startsWith, beq_iff_eq]
  constructor
  · intro h
    exact ⟨(buffer.content.drop buffer.offset).drop word.length, by
      conv_lhs => rw [← List.take_append_drop word.length (buffer.content.drop buffer.offset), h]⟩
  · rintro ⟨rest, h⟩
    rw [h, List.take_left]

theorem valueStep_answers {depth : ℕ} (hlimit : depth ≤ cJSONNestingLimit)
    (hvalue : depth < cJSONNestingLimit → ParsesValues parseValue (depth + 1)) :
    ParsesValues (valueStep doubles parseValue) depth := by
  intro item buffer hblank hoffset hdepth
  have hle : buffer.depth ≤ cJSONNestingLimit := by rw [hdepth]; exact hlimit
  -- a word that was recognised is read
  have hword : ∀ (word : List UInt8) (parsed : Item Num), buffer.startsWith word →
      0 < word.length → parsed.blocks = item.blocks → parsed.child = [] →
      (parsed.kind ≠ Kind.array ∧ parsed.kind ≠ Kind.object) →
      Answers buffer 0 (some (some parsed, buffer.advance word.length))
        (ItemParsed item buffer) := by
    intro word parsed hstarts hpos hblocks hchild hkind
    obtain ⟨rest, hrest⟩ := startsWith_iff.mp hstarts
    have hlen : word.length ≤ buffer.content.length - buffer.offset := by
      rw [← List.length_drop, hrest, List.length_append]
      exact Nat.le_add_right _ _
    exact Answers.done rfl (by rw [advance_offset]; omega)
      (ItemParsed.leaf (by rw [hblocks]; rfl) rfl (Nat.lt_add_of_pos_right hpos) hchild hkind hle)
  unfold valueStep
  split
  · next hstarts =>
    exact hword _ _ hstarts (by decide) (by rw [Item.blocks_eq, Item.blocks_eq]) hblank.child
      (by simp)
  split
  · next hstarts =>
    exact hword _ _ hstarts (by decide) (by rw [Item.blocks_eq, Item.blocks_eq]) hblank.child
      (by simp)
  split
  · next hstarts =>
    exact hword _ _ hstarts (by decide) (by rw [Item.blocks_eq, Item.blocks_eq]) hblank.child
      (by simp)
  split
  · exact Answers.fail rfl hoffset (add_zero _)
  next c hc =>
  have hinside : buffer.offset < buffer.content.length := (List.getElem?_eq_some_iff.mp hc).1
  split
  · exact (parseString_answers hblank buffer hinside hle).of_step rfl rfl fun x b h => h.1
  split
  · exact parseNumber_answers doubles hblank hoffset hle
  split
  · exact parseArray_answers doubles hlimit hvalue hblank hinside hdepth
  split
  · exact parseObject_answers doubles hlimit hvalue hblank hinside hdepth
  · exact Answers.fail rfl hoffset (add_zero _)

end Children

/-- **The recursion goes no deeper than the limit and one.** -/
theorem parseValue_answers (fuel depth : ℕ) (hlimit : depth ≤ cJSONNestingLimit)
    (hfuel : cJSONNestingLimit < fuel + depth) : ParsesValues (parseValue doubles fuel) depth := by
  induction fuel generalizing depth with
  | zero => omega
  | succ fuel ih => exact valueStep_answers doubles hlimit fun hlt => ih (depth + 1) hlt (by omega)

/-! ### A whole text -/

/-- What is left behind by a text that was refused, and by one that was read. -/
inductive TextParsed (value : List UInt8) (heap : Heap) : ParseResult Num → Prop where
  | refused {position : ℕ} {heap' : Heap} (hlive : heap'.live = heap.live)
      (hposition : value ≠ [] → position < value.length) :
      TextParsed value heap ⟨none, some position, position, heap'⟩
  | read {item : Item Num} {parseEnd : ℕ} {heap' : Heap}
      (hlive : heap'.live.val = heap.live.val + item.blocks)
      (hnesting : item.nesting ≤ cJSONNestingLimit) (hend : parseEnd ≤ value.length) :
      TextParsed value heap ⟨some item, none, parseEnd, heap'⟩

theorem parseFailed_textParsed (value : List UInt8) {heap heap' : Heap} {item : Option (Item Num)}
    (hlive : heap'.live.val = heap.live.val + childBlocks item.toList) (offset : ℕ) :
    ∃ result, parseFailed item value.length offset heap' = some result ∧
      TextParsed value heap result := by
  obtain ⟨heap'', hheap, -, -, hreleased⟩ := releases_cJSONDelete item.toList heap' (by
    rw [hlive]
    exact Multiset.le_add_left _ _)
  rw [hlive] at hreleased
  refine ⟨_, by rw [parseFailed, hheap, Option.map_some],
    .refused (Finset.val_injective (add_right_cancel hreleased)) fun hne => ?_⟩
  have hpos : 0 < value.length := List.length_pos_iff.mpr hne
  split <;> omega

theorem skipUtf8Bom_offset (buffer : ParseBuffer) (h : buffer.offset ≤ buffer.content.length) :
    (skipUtf8Bom buffer).offset ≤ buffer.content.length := by
  unfold skipUtf8Bom
  split
  · rw [advance_offset]
    omega
  · exact h

@[simp] theorem skipUtf8Bom_content (buffer : ParseBuffer) :
    (skipUtf8Bom buffer).content = buffer.content := by
  unfold skipUtf8Bom
  split <;> rfl

@[simp] theorem skipUtf8Bom_depth (buffer : ParseBuffer) :
    (skipUtf8Bom buffer).depth = buffer.depth := by
  unfold skipUtf8Bom
  split <;> rfl

@[simp] theorem skipUtf8Bom_heap (buffer : ParseBuffer) :
    (skipUtf8Bom buffer).heap = buffer.heap := by
  unfold skipUtf8Bom
  split <;> rfl

theorem cJSONParseWithLengthOpts_textParsed (value : List UInt8) (requireNullTerminated : Bool)
    (heap : Heap) : ∃ result,
      cJSONParseWithLengthOpts doubles value requireNullTerminated heap = some result ∧
        TextParsed value heap result := by
  unfold cJSONParseWithLengthOpts
  split
  · next hempty =>
    obtain rfl := List.eq_nil_of_length_eq_zero hempty
    have hlive : heap.live.val = heap.live.val + childBlocks (none : Option (Item Num)).toList := by
      simp [childBlocks]
    exact parseFailed_textParsed [] hlive 0
  rcases cJSONNewItem_cases doubles ⟨value, 0, 0, heap⟩ with ⟨b, hb, -, -, hlive⟩ |
    ⟨item, b, hb, hmade⟩
  · rw [hb]
    have hlive : b.heap.live.val =
        heap.live.val + childBlocks (none : Option (Item Num)).toList := by
      simpa [childBlocks] using hlive
    exact parseFailed_textParsed value hlive 0
  rw [hb]
  dsimp only
  obtain ⟨-, -, hinside⟩ := bufferSkipWhitespace_offset (skipUtf8Bom b)
  have hcontent : b.content = value := hmade.content
  have hstart := skipUtf8Bom_offset b (by rw [hmade.offset]; exact Nat.zero_le _)
  have hdepth : b.depth = 0 := hmade.depth
  rw [skipUtf8Bom_content] at hinside
  obtain ⟨a, c, hcall, hc, hle, hfail, hdone⟩ :=
    parseValue_answers doubles parseDepth 0 (Nat.zero_le _) (Nat.lt_succ_self _) item
      (bufferSkipWhitespace (skipUtf8Bom b)) hmade.blank (by simpa using hinside hstart)
      (by simpa using hdepth)
  simp only [bufferSkipWhitespace_content, skipUtf8Bom_content, bufferSkipWhitespace_heap,
    skipUtf8Bom_heap, hcontent, add_zero] at hc hle hfail
  have hlive := hmade.live
  dsimp only at hlive
  rw [hcall, Option.bind_some]
  cases a with
  | none =>
    refine parseFailed_textParsed value ?_ _
    rw [hfail rfl, hlive]
    simp [childBlocks]
  | some parsed =>
    have hparsed := hdone parsed rfl
    have hown := hparsed.live
    rw [bufferSkipWhitespace_heap, skipUtf8Bom_heap, hlive, add_right_comm] at hown
    have hown := add_right_cancel hown
    have hnesting := hparsed.nesting
    simp only [bufferSkipWhitespace_depth, skipUtf8Bom_depth, hdepth, Nat.zero_add] at hnesting
    obtain ⟨-, -, hstay⟩ := bufferSkipWhitespace_offset c
    rw [hc] at hstay
    dsimp only
    generalize hd : (if requireNullTerminated = true then bufferSkipWhitespace c else c) = d
    have hheap : d.heap = c.heap ∧ d.offset ≤ value.length := by
      rw [← hd]
      split
      · exact ⟨bufferSkipWhitespace_heap c, hstay hle⟩
      · exact ⟨rfl, hle⟩
    split
    · refine parseFailed_textParsed value ?_ _
      simp [hheap.1, hown, childBlocks]
    · exact ⟨_, rfl, .read (by rw [hheap.1, hown]) hnesting hheap.2⟩

/-- **Parsing a text is safe and accounts for its memory**, whatever the text and
    whatever the allocator refuses.  A text that is refused leaves nothing behind and
    an error position inside the text; of one that is read, the live blocks beyond
    those from before are the ones of its item, each once, and deleting the item gives
    them back. -/
theorem cJSONParseWithLengthOpts_accounts (value : List UInt8) (requireNullTerminated : Bool)
    (heap : Heap) : ∃ result,
      cJSONParseWithLengthOpts doubles value requireNullTerminated heap = some result ∧
      (result.item = none → result.heap.live = heap.live ∧
        ∃ position, result.errorPosition = some position ∧
          (value ≠ [] → position < value.length)) ∧
      ∀ item, result.item = some item →
        result.heap.live.val = heap.live.val + item.blocks ∧
        item.nesting ≤ cJSONNestingLimit ∧ result.parseEnd ≤ value.length ∧
        ∃ heap', cJSONDelete [item] result.heap = some heap' ∧ heap'.live = heap.live := by
  obtain ⟨result, hresult, hparsed⟩ :=
    cJSONParseWithLengthOpts_textParsed doubles value requireNullTerminated heap
  refine ⟨result, hresult, ?_⟩
  cases hparsed with
  | refused hlive hposition => exact ⟨fun _ => ⟨hlive, _, rfl, hposition⟩, nofun⟩
  | @read item _ _ hlive hnesting hend =>
    refine ⟨nofun, fun item hitem => ?_⟩
    obtain rfl := Option.some.inj hitem
    have hown : childBlocks [item] = item.blocks := by simp [childBlocks]
    obtain ⟨heap', hheap', -, -, hreleased⟩ := releases_cJSONDelete [item] _ (by
      rw [hown, hlive]
      exact Multiset.le_add_left _ _)
    rw [hown, hlive] at hreleased
    exact ⟨hlive, hnesting, hend, heap', hheap', Finset.val_injective (add_right_cancel hreleased)⟩

end Lmalloc.Json
