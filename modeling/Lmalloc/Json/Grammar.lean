/-
  Lmalloc/Json/Grammar.lean
  =========================
  **The texts that stand for a value, and what the parser makes of them.**

  The grammar says what a text means without saying how it is read: a value, with
  blanks around it, in brackets and between commas.  A blank is every character up
  to 32, as in the source; a string may hold every character but a quote or a
  backslash as it is, and escapes.  How a number reads is left to `strtod`.

  If no allocation is refused, the parser reads each of these texts, whatever
  follows it, and the items hold the value.
-/
import Lmalloc.Json.Safety

namespace Lmalloc.Json

inductive Json (Num : Type) where
  | null
  | isFalse
  | isTrue
  | number (n : Num)
  | string (bytes : List UInt8)
  | array (values : List (Json Num))
  | object (members : List (List UInt8 × Json Num))

variable {Num : Type} (doubles : Doubles Num)

/-! ### Texts -/

def Blanks (text : List UInt8) : Prop := ∀ c ∈ text, c ≤ 32

/-- The text between the quotes of a string. -/
inductive Chars : List UInt8 → List UInt8 → Prop where
  | nil : Chars [] []
  | plain {c : UInt8} {bytes text : List UInt8} (hquote : c ≠ quote) (hbackslash : c ≠ backslash)
      (h : Chars bytes text) : Chars (c :: bytes) (c :: text)
  | simple {e c : UInt8} {bytes text : List UInt8} (he : simpleEscape e = some c)
      (h : Chars bytes text) : Chars (c :: bytes) (backslash :: e :: text)
  | unicode {c : Char} {escape bytes text : List UInt8} (hc : Escapes c escape)
      (h : Chars bytes text) : Chars (String.utf8EncodeChar c ++ bytes) (escape ++ text)

/-- A number that `strtod` reads to its end, in what `number_c_string` has room for. -/
structure NumberText (n : Num) (text : List UInt8) : Prop where
  first : ∃ c ∈ text.head?, c = 45 ∨ 48 ≤ c ∧ c ≤ 57
  chars : ∀ c ∈ text, isNumberChar c
  short : text.length ≤ 63
  read : doubles.strtod text = (n, text.length)

/-- Texts with commas between them. -/
inductive Separated {α : Type} (R : α → List UInt8 → Prop) : List α → List UInt8 → Prop where
  | last {a : α} {text : List UInt8} (h : R a text) : Separated R [a] text
  | comma {a : α} {as : List α} {text rest : List UInt8} (h : R a text)
      (hrest : Separated R as rest) : Separated R (a :: as) (text ++ 44 :: rest)

section Children

variable {α : Type} (R : α → List UInt8 → Prop)

def Element (a : α) (text : List UInt8) : Prop :=
  ∃ before inner after, Blanks before ∧ R a inner ∧ Blanks after ∧ text = before ++ inner ++ after

def Member (member : List UInt8 × α) (text : List UInt8) : Prop :=
  ∃ before name after value, Blanks before ∧ Chars member.1 name ∧ Blanks after ∧
    Element R member.2 value ∧
      text = before ++ quote :: name ++ quote :: after ++ 58 :: value

/-- What stands between the brackets. -/
def Inside (C : α → List UInt8 → Prop) (as : List α) (text : List UInt8) : Prop :=
  as = [] ∧ Blanks text ∨ Separated C as text

end Children

/-- A value that is no container. -/
inductive Scalar : Json Num → List UInt8 → Prop where
  | null : Scalar Json.null [110, 117, 108, 108]
  | isFalse : Scalar Json.isFalse [102, 97, 108, 115, 101]
  | isTrue : Scalar Json.isTrue [116, 114, 117, 101]
  | number {n : Num} {text : List UInt8} (h : NumberText doubles n text) :
      Scalar (Json.number n) text
  | string {bytes text : List UInt8} (h : Chars bytes text) :
      Scalar (Json.string bytes) (quote :: text ++ [quote])

/-- The text stands for the value, with at most `n` containers in each other. -/
def Text : ℕ → Json Num → List UInt8 → Prop
  | 0, value, text => Scalar doubles value text
  | n + 1, value, text =>
      Scalar doubles value text ∨
      (∃ values inner, value = Json.array values ∧ Inside (Element (Text n)) values inner ∧
        text = 91 :: inner ++ [93]) ∨
      ∃ members inner, value = Json.object members ∧ Inside (Member (Text n)) members inner ∧
        text = 123 :: inner ++ [125]

/-! ### More room for nesting -/

section Imp

variable {α : Type} {R S : α → List UInt8 → Prop}

theorem Separated.imp (h : ∀ a text, R a text → S a text) {as : List α} {text : List UInt8}
    (hR : Separated R as text) : Separated S as text := by
  induction hR with
  | last ha => exact .last (h _ _ ha)
  | comma ha _ ih => exact .comma (h _ _ ha) ih

theorem Inside.imp (h : ∀ a text, R a text → S a text) {as : List α} {text : List UInt8}
    (hR : Inside R as text) : Inside S as text :=
  Or.imp_right (Separated.imp h) hR

theorem Element.imp (h : ∀ a text, R a text → S a text) {a : α} {text : List UInt8}
    (hR : Element R a text) : Element S a text := by
  obtain ⟨before, inner, after, hbefore, hinner, hafter, htext⟩ := hR
  exact ⟨before, inner, after, hbefore, h _ _ hinner, hafter, htext⟩

theorem Member.imp (h : ∀ a text, R a text → S a text) {member : List UInt8 × α}
    {text : List UInt8} (hR : Member R member text) : Member S member text := by
  obtain ⟨before, name, after, value, hbefore, hname, hafter, hvalue, htext⟩ := hR
  exact ⟨before, name, after, value, hbefore, hname, hafter, hvalue.imp h, htext⟩

end Imp

theorem Text.succ {n : ℕ} {value : Json Num} {text : List UInt8} (h : Text doubles n value text) :
    Text doubles (n + 1) value text := by
  induction n generalizing value text with
  | zero => exact Or.inl h
  | succ n ih =>
    rcases h with h | ⟨values, inner, rfl, hinside, rfl⟩ | ⟨members, inner, rfl, hinside, rfl⟩
    · exact Or.inl h
    · exact Or.inr (Or.inl
        ⟨values, inner, rfl, hinside.imp fun _ _ => Element.imp fun _ _ => ih, rfl⟩)
    · exact Or.inr (Or.inr
        ⟨members, inner, rfl, hinside.imp fun _ _ => Member.imp fun _ _ => ih, rfl⟩)

theorem Text.mono {n m : ℕ} (hle : n ≤ m) {value : Json Num} {text : List UInt8}
    (h : Text doubles n value text) : Text doubles m value text := by
  induction m, hle using Nat.le_induction with
  | base => exact h
  | succ m _ ih => exact ih.succ

/-! ### Texts without blanks -/

def commaSeparated : List (List UInt8) → List UInt8
  | [] => []
  | [text] => text
  | text :: texts => text ++ 44 :: commaSeparated texts

theorem separated_commaSeparated {α : Type} {R : α → List UInt8 → Prop} {as : List α}
    {texts : List (List UInt8)} (h : List.Forall₂ R as texts) (hne : as ≠ []) :
    Separated R as (commaSeparated texts) := by
  induction h with
  | nil => exact absurd rfl hne
  | @cons a text as texts ha hrest ih =>
    cases hrest with
    | nil => exact .last ha
    | cons hb hrest => exact .comma ha (ih (List.cons_ne_nil _ _))

theorem blanks_nil : Blanks [] := fun _ hc => absurd hc List.not_mem_nil

theorem element_self {α : Type} {R : α → List UInt8 → Prop} {a : α} {text : List UInt8}
    (h : R a text) : Element R a text :=
  ⟨[], text, [], blanks_nil, h, blanks_nil, (List.append_nil _).symm⟩

/-- The characters of a name or a string that needs no escapes. -/
def Plain (bytes : List UInt8) : Prop := quote ∉ bytes ∧ backslash ∉ bytes

instance (bytes : List UInt8) : Decidable (Plain bytes) := inferInstanceAs (Decidable (_ ∧ _))

theorem chars_plain {bytes : List UInt8} (h : Plain bytes) : Chars bytes bytes := by
  induction bytes with
  | nil => exact .nil
  | cons c bytes ih =>
    obtain ⟨hquote, hbackslash⟩ := h
    rw [List.mem_cons, not_or] at hquote hbackslash
    exact .plain (Ne.symm hquote.1) (Ne.symm hbackslash.1) (ih ⟨hquote.2, hbackslash.2⟩)

theorem Scalar.text {value : Json Num} {text : List UInt8} (h : Scalar doubles value text) (n : ℕ) :
    Text doubles n value text := by
  cases n with
  | zero => exact h
  | succ n => exact Or.inl h

theorem text_array {n : ℕ} {values : List (Json Num)} {texts : List (List UInt8)}
    (h : List.Forall₂ (Text doubles n) values texts) (hne : values ≠ []) :
    Text doubles (n + 1) (Json.array values) (91 :: commaSeparated texts ++ [93]) := by
  refine Or.inr (Or.inl ⟨values, _, rfl, Or.inr (separated_commaSeparated ?_ hne), rfl⟩)
  exact h.imp fun _ _ => element_self

/-- A member of an object, with the text of its value. -/
structure Written (n : ℕ) where
  name : List UInt8
  value : Json Num
  text : List UInt8
  plain : Plain name
  reads : Text doubles n value text

variable {doubles} in
def Written.member {n : ℕ} (written : Written doubles n) : List UInt8 × Json Num :=
  (written.name, written.value)

variable {doubles} in
def Written.memberText {n : ℕ} (written : Written doubles n) : List UInt8 :=
  quote :: written.name ++ quote :: 58 :: written.text

theorem text_object {n : ℕ} {members : List (Written doubles n)} (hne : members ≠ []) :
    Text doubles (n + 1) (Json.object (members.map Written.member))
      (123 :: commaSeparated (members.map Written.memberText) ++ [125]) := by
  refine Or.inr (Or.inr ⟨_, _, rfl, Or.inr (separated_commaSeparated ?_ (by simpa using hne)), rfl⟩)
  rw [List.forall₂_map_left_iff, List.forall₂_map_right_iff, List.forall₂_same]
  intro written _
  exact ⟨[], written.name, [], written.text, blanks_nil, chars_plain written.plain, blanks_nil,
    element_self written.reads, by simp [Written.memberText]⟩

/-! ### Items -/

/-- The bytes of a string, without the `NUL` at its end. -/
def Str.Holds (s : Str) (bytes : List UInt8) : Prop := s.bytes = bytes ++ [0]

/-- The name of a child of an object. -/
def Item.Named (item : Item Num) (name : List UInt8) : Prop :=
  ∃ s, item.string = some s ∧ s.Holds name

inductive Item.Holds : Item Num → Json Num → Prop where
  | null {item : Item Num} (hkind : item.kind = Kind.null) : item.Holds Json.null
  | isFalse {item : Item Num} (hkind : item.kind = Kind.isFalse) : item.Holds Json.isFalse
  | isTrue {item : Item Num} (hkind : item.kind = Kind.isTrue) : item.Holds Json.isTrue
  | number {item : Item Num} (hkind : item.kind = Kind.number)
      (hint : item.valueint = saturate doubles item.valuedouble) :
      item.Holds (Json.number item.valuedouble)
  | string {item : Item Num} {s : Str} {bytes : List UInt8} (hkind : item.kind = Kind.string)
      (hs : item.valuestring = some s) (hbytes : s.Holds bytes) : item.Holds (Json.string bytes)
  | array {item : Item Num} {values : List (Json Num)} (hkind : item.kind = Kind.array)
      (hchild : List.Forall₂ Item.Holds item.child values) : item.Holds (Json.array values)
  | object {item : Item Num} {members : List (List UInt8 × Json Num)}
      (hkind : item.kind = Kind.object)
      (hname : List.Forall₂ Item.Named item.child (members.map Prod.fst))
      (hchild : List.Forall₂ Item.Holds item.child (members.map Prod.snd)) :
      item.Holds (Json.object members)

end Lmalloc.Json
