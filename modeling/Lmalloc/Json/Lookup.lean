/-
  Lmalloc/Json/Lookup.lean
  ========================
  **What a program that parses a text finds in it.**

  A name is looked up without regard to the case of ASCII letters, and the first
  member of that name is the one that is found.  Names and strings are C strings
  to the program: a `\u0000` in the text ends them.
-/
import Lmalloc.Json.Reading

namespace Lmalloc.Json

variable {Num : Type} (doubles : Doubles Num)

/-! ### Names -/

/-- The bytes a C string ends with, as the program sees them. -/
def upToNul (bytes : List UInt8) : List UInt8 := bytes.takeWhile (· ≠ 0)

theorem Str.Holds.cString {s : Str} {bytes : List UInt8} (h : s.Holds bytes) :
    s.cString = upToNul bytes := by
  rw [Str.cString, h, upToNul, List.takeWhile_append]
  split
  · next hall =>
    rw [List.takeWhile_cons_of_neg (by simp), List.append_nil]
    exact ((List.takeWhile_prefix _).eq_of_length hall).symm
  · rfl

theorem upToNul_ne_zero {bytes : List UInt8} : ∀ c ∈ upToNul bytes, c ≠ 0 := by
  intro c hc
  simpa using List.mem_takeWhile_imp hc

theorem tolower_eq_zero {c : UInt8} (h : tolower c = 0) : c = 0 := by
  revert c
  decide +kernel

/-- The two names are the same but for the case of their letters. -/
def SameName (name other : List UInt8) : Prop := name.map tolower = other.map tolower

instance (name other : List UInt8) : Decidable (SameName name other) :=
  inferInstanceAs (Decidable (name.map tolower = other.map tolower))

theorem caseInsensitiveStrcmp_eq_zero {name other : List UInt8} (hname : ∀ c ∈ name, c ≠ 0)
    (hother : ∀ c ∈ other, c ≠ 0) : caseInsensitiveStrcmp name other = 0 ↔ SameName name other := by
  have hpos : ∀ c : UInt8, c ≠ 0 → (tolower c).toNat ≠ 0 := fun c hc h =>
    hc (tolower_eq_zero (UInt8.toNat_inj.mp h))
  unfold SameName
  induction name generalizing other with
  | nil =>
    cases other with
    | nil => simp [caseInsensitiveStrcmp]
    | cons d ds =>
      have hd := hpos d (hother d (List.mem_cons_self ..))
      simp only [caseInsensitiveStrcmp, List.map_nil, List.map_cons, reduceCtorEq, iff_false]
      omega
  | cons c cs ih =>
    cases other with
    | nil =>
      have hc := hpos c (hname c (List.mem_cons_self ..))
      simp only [caseInsensitiveStrcmp, List.map_nil, List.map_cons, reduceCtorEq, iff_false]
      omega
    | cons d ds =>
      have hrest := ih (fun e he => hname e (List.mem_cons_of_mem c he))
        fun e he => hother e (List.mem_cons_of_mem d he)
      simp only [caseInsensitiveStrcmp, List.map_cons, List.cons.injEq]
      split
      · next heq => simp [heq, hrest]
      · next hne =>
        have hnat : (tolower c).toNat ≠ (tolower d).toNat := fun h => hne (UInt8.toNat_inj.mp h)
        simp only [hne, false_and, iff_false]
        omega

/-! ### Members -/

/-- The first member of the name. -/
def findMember {α : Type} (name : List UInt8) (members : List (List UInt8 × α)) :
    Option (List UInt8 × α) :=
  members.find? fun member => SameName name (upToNul member.1)

/-- The item that was found holds the value of the member, and there is one exactly if
    there is the other. -/
abbrev Found (found : Option (Item Num)) (member : Option (List UInt8 × Json Num)) : Prop :=
  Option.Rel (fun item member => Item.Holds doubles item member.2) found member

theorem getObjectItemLoop_holds {name : List UInt8} (hname : ∀ c ∈ name, c ≠ 0)
    {children : List (Item Num)} {members : List (List UInt8 × Json Num)}
    (hnamed : List.Forall₂ Item.Named children (members.map Prod.fst))
    (hheld : List.Forall₂ (Item.Holds doubles) children (members.map Prod.snd)) :
    Found doubles (getObjectItemLoop name children) (findMember name members) := by
  induction members generalizing children with
  | nil =>
    cases hnamed
    exact .none
  | cons member members ih =>
    cases hnamed with
    | cons hfirst hnamed =>
    cases hheld with
    | cons hholds hheld =>
    rename_i child children
    obtain ⟨s, hs, hbytes⟩ := hfirst
    have hnul : ∀ c ∈ upToNul member.1, c ≠ 0 := upToNul_ne_zero
    have hcmp := caseInsensitiveStrcmp_eq_zero hname hnul
    rw [← hbytes.cString] at hcmp
    simp only [findMember, List.find?_cons, getObjectItemLoop, hs]
    by_cases hsame : SameName name s.cString
    · rw [← hbytes.cString, if_pos (hcmp.mpr hsame), decide_eq_true hsame]
      exact .some hholds
    · rw [← hbytes.cString, if_neg (mt hcmp.mp hsame), decide_eq_false hsame]
      exact ih hnamed hheld

theorem cJSONGetObjectItem_holds {object : Item Num} {members : List (List UInt8 × Json Num)}
    (h : object.Holds doubles (Json.object members)) {name : List UInt8}
    (hname : ∀ c ∈ name, c ≠ 0) :
    Found doubles (cJSONGetObjectItem object name) (findMember name members) := by
  cases h with
  | object hkind hnamed hchild => exact getObjectItemLoop_holds doubles hname hnamed hchild

/-- **What a lookup in a parsed text finds**: the first member whose name is the same
    but for the case of its letters. -/
theorem cJSONParse_getObjectItem {n : ℕ} (hn : n ≤ cJSONNestingLimit)
    {members : List (List UInt8 × Json Num)} {bom w text rest : List UInt8}
    (hbom : bom = [] ∨ bom = utf8Bom) (hw : Blanks w)
    (htext : Text doubles n (Json.object members) text) (hrest : Stops rest)
    (hnul : 0 ∉ bom ++ w ++ text ++ rest) {heap : Heap} (hheap : heap.NeverRefuses) :
    ∃ object result, cJSONParse doubles (bom ++ w ++ text ++ rest) heap = some result ∧
      result.item = some object ∧ ∀ name : List UInt8, (∀ c ∈ name, c ≠ 0) →
        Found doubles (cJSONGetObjectItem object name) (findMember name members) := by
  obtain ⟨object, heap', hparse, hholds, -⟩ :=
    cJSONParse_reads doubles hbom hw (htext.mono doubles hn) hrest hnul hheap
  exact ⟨object, _, hparse, rfl, fun name hname => cJSONGetObjectItem_holds doubles hholds hname⟩

/-- The text of the object `{"mem":7}`. -/
theorem text_mem : Text wholeNumbers 1 (Json.object [([109, 101, 109], Json.number 7)])
    (123 :: ([] ++ quote :: [109, 101, 109] ++ quote :: [] ++ 58 :: ([] ++ [55] ++ [])) ++
      [125]) := by
  have hseven : NumberText wholeNumbers 7 [55] :=
    ⟨⟨55, rfl, by decide⟩, by simp [isNumberChar], by decide, rfl⟩
  have hname : Chars [109, 101, 109] [109, 101, 109] :=
    chars_plain (by decide)
  refine Or.inr (Or.inr ⟨_, _, rfl, Or.inr (.last ?_), rfl⟩)
  exact ⟨[], [109, 101, 109], [], _, by simp [Blanks], hname, by simp [Blanks],
    ⟨[], [55], [], by simp [Blanks], .number hseven, by simp [Blanks], rfl⟩, rfl⟩

theorem cJSONParse_getObjectItem_mem : ∃ object result,
    cJSONParse wholeNumbers ([] ++ [] ++ (123 :: ([] ++ quote :: [109, 101, 109] ++ quote :: [] ++
      58 :: ([] ++ [55] ++ [])) ++ [125]) ++ []) emptyHeap = some result ∧
    result.item = some object ∧ ∀ name : List UInt8, (∀ c ∈ name, c ≠ 0) →
      Found wholeNumbers (cJSONGetObjectItem object name)
        (findMember name [([109, 101, 109], Json.number 7)]) := by
  have hw : Blanks [] := by simp [Blanks]
  have hrest : Stops [] := by simp [Stops]
  have hheap : emptyHeap.NeverRefuses := fun _ _ => rfl
  exact cJSONParse_getObjectItem wholeNumbers (by decide) (Or.inl rfl) hw text_mem hrest
    (by decide +kernel) hheap

end Lmalloc.Json
