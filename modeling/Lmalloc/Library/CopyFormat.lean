/-
  Lmalloc/Library/CopyFormat.lean
  ===============================
  **PostgreSQL's binary COPY format.**

  A signature of 11 bytes, a flags word, the length of a header extension and the
  extension; then each tuple: a 16-bit field count, and each field as a 32-bit
  length and that many bytes.  A length of -1 is a NULL without bytes.  A field
  count of -1 ends the data, as does the end of the stream.

  The reader is the server's side of a COPY; the writer is for streams without
  NULLs and without extensions.
-/
import Lmalloc.Library.Bytes

namespace Lmalloc.Library.CopyFormat

open Lmalloc.Library.Bytes

abbrev Field := Option (List UInt8)

abbrev Tuple := List Field

def takeBytes (n : ℕ) (bs : List UInt8) : Option (List UInt8 × List UInt8) :=
  if n ≤ bs.length then some (bs.take n, bs.drop n) else none

/-- A signed number of `n` bytes. -/
def decodeInt (n : ℕ) (bs : List UInt8) : Option (ℤ × List UInt8) :=
  (takeBytes n bs).map fun r => ((ofBE r.1 : ℤ).bmod (256 ^ n), r.2)

def decodeField (bs : List UInt8) : Option (Field × List UInt8) :=
  (decodeInt 4 bs).bind fun r =>
    if r.1 = -1 then some (none, r.2)
    else if r.1 < 0 then none
    else (takeBytes r.1.toNat r.2).map fun s => (some s.1, s.2)

def decodeFields : ℕ → List UInt8 → Option (Tuple × List UInt8)
  | 0, bs => some ([], bs)
  | k + 1, bs => (decodeField bs).bind fun r =>
      (decodeFields k r.2).map fun s => (r.1 :: s.1, s.2)

/-- Tuples up to the end of the stream; the fuel is a bound on their number. -/
def decodeTuples : ℕ → List UInt8 → Option (List Tuple)
  | _, [] => some []
  | 0, _ :: _ => none
  | fuel + 1, bs => (decodeInt 2 bs).bind fun r =>
      if r.1 = -1 then if r.2 = [] then some [] else none
      else if r.1 < 0 then none
      else (decodeFields r.1.toNat r.2).bind fun s =>
        (decodeTuples fuel s.2).map fun tuples => s.1 :: tuples

def signature : List UInt8 := [80, 71, 67, 79, 80, 89, 10, 255, 13, 10, 0]

/-- Read the header; a bit among the upper 16 of the flags is a critical one this
    reader does not know. -/
def decodeHeader (bs : List UInt8) : Option (List UInt8) :=
  (takeBytes 11 bs).bind fun r =>
    if r.1 ≠ signature then none
    else (takeBytes 4 r.2).bind fun flags =>
      if 2 ^ 16 ≤ ofBE flags.1 then none
      else (decodeInt 4 flags.2).bind fun ext =>
        if ext.1 < 0 then none
        else (takeBytes ext.1.toNat ext.2).map Prod.snd

def decode (bs : List UInt8) : Option (List Tuple) :=
  (decodeHeader bs).bind fun body => decodeTuples body.length body

/-! ### Encoding, and that the reader takes it back -/

def encodeField (field : List UInt8) : List UInt8 := toBE 4 field.length ++ field

def encodeTuple (fields : List (List UInt8)) : List UInt8 :=
  toBE 2 fields.length ++ fields.flatMap encodeField

/-- The counts and lengths fit the format's signed words. -/
def Encodable (fields : List (List UInt8)) : Prop :=
  fields.length < 2 ^ 15 ∧ ∀ field ∈ fields, field.length < 2 ^ 31

theorem takeBytes_append {front rest : List UInt8} {n : ℕ} (h : front.length = n) :
    takeBytes n (front ++ rest) = some (front, rest) := by
  subst h
  simp [takeBytes]

theorem decodeInt_toBE {n v : ℕ} (h : 2 * v < 256 ^ n) (rest : List UInt8) :
    decodeInt n (toBE n v ++ rest) = some ((v : ℤ), rest) := by
  unfold decodeInt
  rw [takeBytes_append (length_toBE n v), Option.map_some, ofBE_toBE_of_lt (by omega)]
  rw [Int.bmod_eq_of_le (by omega) (by omega)]

theorem decodeField_encodeField {field : List UInt8} (h : field.length < 2 ^ 31)
    (rest : List UInt8) : decodeField (encodeField field ++ rest) = some (some field, rest) := by
  unfold decodeField encodeField
  rw [List.append_assoc, decodeInt_toBE (by omega), Option.bind_some]
  rw [if_neg (by omega), if_neg (by omega), Int.toNat_natCast, takeBytes_append rfl]
  rfl

theorem decodeFields_encode {fields : List (List UInt8)}
    (h : ∀ field ∈ fields, field.length < 2 ^ 31) (rest : List UInt8) :
    decodeFields fields.length (fields.flatMap encodeField ++ rest) =
      some (fields.map some, rest) := by
  induction fields with
  | nil => rfl
  | cons field fields ih =>
      have hfield := h field List.mem_cons_self
      have hfields := ih fun f hf => h f (List.mem_cons_of_mem field hf)
      rw [List.flatMap_cons, List.append_assoc, List.length_cons, decodeFields,
        decodeField_encodeField hfield, Option.bind_some, hfields]
      rfl

theorem decodeTuples_succ {bs : List UInt8} (h : bs ≠ []) (fuel : ℕ) :
    decodeTuples (fuel + 1) bs = (decodeInt 2 bs).bind fun r =>
      if r.1 = -1 then if r.2 = [] then some [] else none
      else if r.1 < 0 then none
      else (decodeFields r.1.toNat r.2).bind fun s =>
        (decodeTuples fuel s.2).map fun tuples => s.1 :: tuples := by
  cases bs with
  | nil => exact absurd rfl h
  | cons b bs => rfl

theorem length_encodeTuple (fields : List (List UInt8)) : 2 ≤ (encodeTuple fields).length := by
  rw [encodeTuple, List.length_append, length_toBE]
  exact Nat.le_add_right 2 _

/-- A tuple in front of the stream is read off it. -/
theorem decodeTuples_cons {fields : List (List UInt8)} (h : Encodable fields) (fuel : ℕ)
    (rest : List UInt8) : decodeTuples (fuel + 1) (encodeTuple fields ++ rest) =
      (decodeTuples fuel rest).map fun tuples => fields.map some :: tuples := by
  have hne : encodeTuple fields ++ rest ≠ [] := by
    intro hnil
    have hlen := length_encodeTuple fields
    rw [(List.append_eq_nil_iff.mp hnil).1] at hlen
    exact absurd hlen (by decide)
  have hcount := h.1
  rw [decodeTuples_succ hne, encodeTuple, List.append_assoc, decodeInt_toBE (by omega),
    Option.bind_some]
  rw [if_neg (by omega), if_neg (by omega), Int.toNat_natCast, decodeFields_encode h.2,
    Option.bind_some]

theorem decodeTuples_encode {tuples : List (List (List UInt8))}
    (h : ∀ fields ∈ tuples, Encodable fields) {fuel : ℕ} (hfuel : tuples.length ≤ fuel) :
    decodeTuples fuel (tuples.flatMap encodeTuple) = some (tuples.map (·.map some)) := by
  induction tuples generalizing fuel with
  | nil => cases fuel <;> rfl
  | cons fields tuples ih =>
      cases fuel with
      | zero => exact absurd hfuel (Nat.not_succ_le_zero _)
      | succ fuel =>
          have htuples := ih (fun f hf => h f (List.mem_cons_of_mem fields hf))
            (Nat.le_of_succ_le_succ hfuel)
          rw [List.flatMap_cons, decodeTuples_cons (h fields List.mem_cons_self), htuples]
          rfl

theorem length_le_encode (tuples : List (List (List UInt8))) :
    tuples.length ≤ (tuples.flatMap encodeTuple).length := by
  induction tuples with
  | nil => exact Nat.le_refl 0
  | cons fields tuples ih =>
      have hlen := length_encodeTuple fields
      rw [List.flatMap_cons, List.length_append, List.length_cons]
      omega

theorem decodeHeader_plain (body : List UInt8) :
    decodeHeader (signature ++ toBE 4 0 ++ toBE 4 0 ++ body) = some body := by
  have hflags : ¬ 2 ^ 16 ≤ ofBE (toBE 4 0) := by decide
  unfold decodeHeader
  rw [List.append_assoc, List.append_assoc, takeBytes_append (by decide), Option.bind_some,
    if_neg (not_not.mpr rfl), takeBytes_append (length_toBE 4 0), Option.bind_some,
    if_neg hflags, decodeInt_toBE (by decide), Option.bind_some, if_neg (by simp)]
  simp [takeBytes]

/-- The reader takes back every stream of encodable tuples, and all of it. -/
theorem decode_encode {tuples : List (List (List UInt8))}
    (h : ∀ fields ∈ tuples, Encodable fields) :
    decode (signature ++ toBE 4 0 ++ toBE 4 0 ++ tuples.flatMap encodeTuple) =
      some (tuples.map (·.map some)) := by
  rw [decode, decodeHeader_plain, Option.bind_some]
  exact decodeTuples_encode h (length_le_encode tuples)

/-! ### How many bytes a decoded stream has -/

def fieldSize (field : Field) : ℕ := 4 + (field.getD []).length

/-- The bytes a tuple takes: its field count, and a length and a value a field. -/
def tupleSize (tuple : Tuple) : ℕ := 2 + (tuple.map fieldSize).sum

theorem takeBytes_eq_some {n : ℕ} {bs : List UInt8} {r : List UInt8 × List UInt8}
    (h : takeBytes n bs = some r) : r.1.length = n ∧ bs.length = n + r.2.length := by
  unfold takeBytes at h
  split at h
  · rename_i hle
    cases h
    rw [List.length_take, List.length_drop]
    omega
  · exact absurd h nofun

theorem length_of_decodeInt {n : ℕ} {bs : List UInt8} {r : ℤ × List UInt8}
    (h : decodeInt n bs = some r) : bs.length = n + r.2.length := by
  unfold decodeInt at h
  obtain ⟨taken, htaken, rfl⟩ := Option.map_eq_some_iff.mp h
  exact (takeBytes_eq_some htaken).2

theorem length_of_decodeField {bs : List UInt8} {r : Field × List UInt8}
    (h : decodeField bs = some r) : bs.length = fieldSize r.1 + r.2.length := by
  unfold decodeField at h
  obtain ⟨len, hlen, h⟩ := Option.bind_eq_some_iff.mp h
  have hword := length_of_decodeInt hlen
  split at h
  · cases h
    exact hword
  · split at h
    · exact absurd h nofun
    · obtain ⟨value, hvalue, rfl⟩ := Option.map_eq_some_iff.mp h
      obtain ⟨hsize, hrest⟩ := takeBytes_eq_some hvalue
      change bs.length = 4 + value.1.length + value.2.length
      omega

theorem length_of_decodeFields {k : ℕ} {bs : List UInt8} {r : Tuple × List UInt8}
    (h : decodeFields k bs = some r) : bs.length = (r.1.map fieldSize).sum + r.2.length := by
  induction k generalizing bs r with
  | zero =>
      cases h
      simp
  | succ k ih =>
      unfold decodeFields at h
      obtain ⟨field, hfield, h⟩ := Option.bind_eq_some_iff.mp h
      obtain ⟨fields, hfields, rfl⟩ := Option.map_eq_some_iff.mp h
      rw [length_of_decodeField hfield, ih hfields, List.map_cons, List.sum_cons, Nat.add_assoc]

/-- A stream that decodes has the bytes of its tuples, and at most an end marker more. -/
theorem sum_tupleSize_le {fuel : ℕ} {bs : List UInt8} {tuples : List Tuple}
    (h : decodeTuples fuel bs = some tuples) : (tuples.map tupleSize).sum ≤ bs.length := by
  induction fuel generalizing bs tuples with
  | zero =>
      cases bs with
      | nil =>
          cases h
          exact Nat.le_refl 0
      | cons b bs => exact absurd h nofun
  | succ fuel ih =>
      by_cases hnil : bs = []
      · subst hnil
        cases h
        exact Nat.le_refl 0
      · rw [decodeTuples_succ hnil] at h
        obtain ⟨count, hcount, h⟩ := Option.bind_eq_some_iff.mp h
        have hword := length_of_decodeInt hcount
        split at h
        · split at h
          · cases h
            exact Nat.zero_le _
          · exact absurd h nofun
        · split at h
          · exact absurd h nofun
          · obtain ⟨fields, hfields, h⟩ := Option.bind_eq_some_iff.mp h
            obtain ⟨rest, hrest, rfl⟩ := Option.map_eq_some_iff.mp h
            have hread := length_of_decodeFields hfields
            have htail := ih hrest
            rw [List.map_cons, List.sum_cons, tupleSize]
            omega

end Lmalloc.Library.CopyFormat
