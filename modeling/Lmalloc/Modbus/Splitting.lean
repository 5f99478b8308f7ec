/-
  Lmalloc/Modbus/Splitting.lean
  =============================
  **`MbReceiveTcpFrame` sees the bytes of a connection, not how TCP has cut them.**

  The two loops ask for the missing bytes until they have them or the connection
  ends.  What comes out is a function of the bytes, of how the connection ends and
  of the buffer's size: the value returned and the number of bytes taken, all of
  which lie in the buffer from its start.

  `BufferSize` is a `size_t` that the code reads as an `ssize_t`.  From `2^63` on it
  is negative there, and every frame is too large.
-/
import Lmalloc.Modbus.Receive

namespace Lmalloc.Modbus

open Lmalloc.Library

/-! ### The receiver with everything it reads -/

/-- What `recv` returns once there are no more bytes: 0, or -1. -/
inductive StreamEnd where
  | closed
  | failed
deriving DecidableEq, Repr

def StreamEnd.result : StreamEnd → ℤ
  | .closed => 0
  | .failed => -1

theorem StreamEnd.result_nonpos (e : StreamEnd) : e.result ≤ 0 := by
  cases e <;> decide

structure Connection where
  stream : ByteStream
  atEnd : StreamEnd

/-- `(ssize_t)BufferSize`. -/
def ssize (bufferSize : UInt64) : ℤ := bufferSize.toInt64.toInt

/-- `MbReceiveTcpFrame` on a connection that may also fail. -/
def Connection.mbReceiveTcpFrame (c : Connection) (frame : Memory) (bufferSize : UInt64) :
    ℤ × Memory × ByteStream :=
  let header := c.stream.recvLoop frame 0 modbusTcpHeaderLen
  if header.1 = false then (c.atEnd.result, header.2)
  else
    let totalFrameSize := modbusTcpHeaderLen + (frameLength header.2.1).toNat
    if (totalFrameSize : ℤ) > ssize bufferSize then (-1, header.2)
    else
      let data := header.2.2.recvLoop header.2.1 modbusTcpHeaderLen totalFrameSize
      if data.1 = false then (c.atEnd.result, data.2) else (totalFrameSize, data.2)

theorem ssize_eq {bufferSize : UInt64} (h : bufferSize.toNat < 2 ^ 63) :
    ssize bufferSize = bufferSize.toNat := by
  apply BitVec.toInt_eq_toNat_of_lt
  change 2 * bufferSize.toNat < 2 ^ 64
  omega

theorem ssize_le (bufferSize : UInt64) : ssize bufferSize ≤ bufferSize.toNat := by
  change bufferSize.toBitVec.toInt ≤ bufferSize.toBitVec.toNat
  rw [BitVec.toInt_eq_toNat_cond]
  split
  · exact le_refl _
  · omega

/-- Where both apply this is the receiver of `Receive.lean`. -/
theorem mbReceiveTcpFrame_closed (s : ByteStream) (frame : Memory) {bufferSize : UInt64}
    (h : bufferSize.toNat < 2 ^ 63) :
    Connection.mbReceiveTcpFrame ⟨s, .closed⟩ frame bufferSize =
      Modbus.mbReceiveTcpFrame s frame bufferSize.toNat := by
  simp only [Connection.mbReceiveTcpFrame, Modbus.mbReceiveTcpFrame, StreamEnd.result, ssize_eq h,
    gt_iff_lt, Nat.cast_lt]

/-! ### What it computes -/

/-- The `Length` field of a stream that has a header. -/
def lengthField (bytes : List UInt8) : ℕ :=
  (bytes.getD 4 0).toNat * 256 + (bytes.getD 5 0).toNat

/-- The value returned and the number of bytes taken. -/
def receiveOutcome (bytes : List UInt8) (atEnd : StreamEnd) (bufferSize : UInt64) : ℤ × ℕ :=
  let frameSize := modbusTcpHeaderLen + lengthField bytes
  if bytes.length < modbusTcpHeaderLen then (atEnd.result, bytes.length)
  else if ssize bufferSize < frameSize then (-1, modbusTcpHeaderLen)
  else if bytes.length < frameSize then (atEnd.result, bytes.length)
  else (frameSize, frameSize)

section Computes

variable {bytes : List UInt8} {frame : Memory} {bufferSize : UInt64}

/-- The header is complete when its `Length` is decoded, however many calls it took. -/
theorem frameLength_header (frame : Memory) (h : modbusTcpHeaderLen ≤ bytes.length) :
    (frameLength (frame.write 0 (bytes.take modbusTcpHeaderLen))).toNat = lengthField bytes := by
  have hbyte : ∀ i < 7, frame.write 0 (bytes.take modbusTcpHeaderLen) i = bytes.getD i 0 := by
    intro i hi
    have hlt : i < (bytes.take modbusTcpHeaderLen).length := by
      rw [List.length_take, Nat.min_eq_left h]
      exact hi
    have hwrite := @Memory.write_add frame 0 i _ hlt
    have hin : i < bytes.length := Nat.lt_of_lt_of_le hi h
    rw [Nat.zero_add] at hwrite
    rw [hwrite, List.getElem_take, List.getD_eq_getElem _ _ hin]
  rw [toNat_frameLength, hbyte 4 (by decide), hbyte 5 (by decide), lengthField]

/-- **Whatever the network chooses, the outcome is that of the bytes.** -/
theorem mbReceiveTcpFrame_eq (bytes : List UInt8) (picks : ℕ → ℕ) (atEnd : StreamEnd)
    (frame : Memory) (bufferSize : UInt64) :
    ∃ picks', Connection.mbReceiveTcpFrame ⟨⟨bytes, picks⟩, atEnd⟩ frame bufferSize =
      ((receiveOutcome bytes atEnd bufferSize).1,
        frame.write 0 (bytes.take (receiveOutcome bytes atEnd bufferSize).2),
        ⟨bytes.drop (receiveOutcome bytes atEnd bufferSize).2, picks'⟩) := by
  by_cases hheader : bytes.length < modbusTcpHeaderLen
  · obtain ⟨picks', hloop⟩ := ByteStream.recvLoop_eq_of_lt ⟨bytes, picks⟩ frame 0
      modbusTcpHeaderLen hheader
    refine ⟨picks', ?_⟩
    simp only [Connection.mbReceiveTcpFrame, hloop, receiveOutcome, hheader, if_true, List.take_length,
      List.drop_length]
  · have hseven : modbusTcpHeaderLen ≤ bytes.length := Nat.le_of_not_lt hheader
    obtain ⟨picks₁, hloop₁⟩ := ByteStream.recvLoop_of_le ⟨bytes, picks⟩ frame 0
      modbusTcpHeaderLen hseven
    rw [Nat.sub_zero] at hloop₁
    have hlength := frameLength_header frame hseven
    by_cases hlarge : ssize bufferSize < (modbusTcpHeaderLen + lengthField bytes : ℕ)
    · refine ⟨picks₁, ?_⟩
      simp only [Connection.mbReceiveTcpFrame, hloop₁, hlength, receiveOutcome, hheader, hlarge,
        Bool.true_eq_false, if_false, if_true]
    · -- the second loop goes on where the first has stopped
      have hmore : modbusTcpHeaderLen + lengthField bytes - modbusTcpHeaderLen =
          lengthField bytes := Nat.add_sub_cancel_left _ _
      have hfirst : (bytes.take modbusTcpHeaderLen).length = modbusTcpHeaderLen := by
        rw [List.length_take, Nat.min_eq_left hseven]
      by_cases hdata : bytes.length < modbusTcpHeaderLen + lengthField bytes
      · obtain ⟨picks₂, hloop₂⟩ := ByteStream.recvLoop_eq_of_lt
          ⟨bytes.drop modbusTcpHeaderLen, picks₁⟩
          (frame.write 0 (bytes.take modbusTcpHeaderLen)) modbusTcpHeaderLen
          (modbusTcpHeaderLen + lengthField bytes) (by rw [hmore, List.length_drop]; omega)
        have hpiece : (frame.write 0 (bytes.take modbusTcpHeaderLen)).write modbusTcpHeaderLen
            (bytes.drop modbusTcpHeaderLen) = frame.write 0 bytes := by
          conv_rhs => rw [← List.take_append_drop modbusTcpHeaderLen bytes]
          rw [Memory.write_append, Nat.zero_add, hfirst]
        refine ⟨picks₂, ?_⟩
        simp only [Connection.mbReceiveTcpFrame, hloop₁, hlength, receiveOutcome, hheader, hlarge,
          hdata, hloop₂, hpiece, Bool.true_eq_false, if_false, if_true, List.take_length,
          List.drop_length]
      · obtain ⟨picks₂, hloop₂⟩ := ByteStream.recvLoop_of_le
          ⟨bytes.drop modbusTcpHeaderLen, picks₁⟩
          (frame.write 0 (bytes.take modbusTcpHeaderLen)) modbusTcpHeaderLen
          (modbusTcpHeaderLen + lengthField bytes) (by rw [hmore, List.length_drop]; omega)
        rw [hmore, List.drop_drop] at hloop₂
        have hpiece : (frame.write 0 (bytes.take modbusTcpHeaderLen)).write modbusTcpHeaderLen
            ((bytes.drop modbusTcpHeaderLen).take (lengthField bytes)) =
              frame.write 0 (bytes.take (modbusTcpHeaderLen + lengthField bytes)) := by
          rw [List.take_add, Memory.write_append, Nat.zero_add, hfirst]
        refine ⟨picks₂, ?_⟩
        simp only [Connection.mbReceiveTcpFrame, hloop₁, hlength, receiveOutcome, hheader, hlarge,
          hdata, hloop₂, hpiece, Bool.true_eq_false, if_false]

/-- All bytes taken lie in the buffer. -/
theorem receiveOutcome_le (bytes : List UInt8) (atEnd : StreamEnd)
    (h : modbusTcpHeaderLen ≤ bufferSize.toNat) :
    (receiveOutcome bytes atEnd bufferSize).2 ≤ bufferSize.toNat := by
  have hsize := ssize_le bufferSize
  simp only [receiveOutcome]
  split
  · next hheader => exact (Nat.le_of_lt hheader).trans h
  · split
    · exact h
    · next hlarge =>
      have hfits : modbusTcpHeaderLen + lengthField bytes ≤ bufferSize.toNat := by omega
      split
      · next hdata => exact (Nat.le_of_lt hdata).trans hfits
      · exact hfits

end Computes

/-! ### Every stream, every splitting, every buffer -/

/-- A call on a connection that has these bytes to come. -/
structure ReceivesFrame (bytes : List UInt8) (atEnd : StreamEnd) (frame : Memory)
    (bufferSize : UInt64) (r : ℤ × Memory × ByteStream) : Prop where
  whole : modbusTcpHeaderLen + lengthField bytes ≤ bytes.length →
    (modbusTcpHeaderLen + lengthField bytes : ℕ) ≤ ssize bufferSize →
    r.1 = (modbusTcpHeaderLen + lengthField bytes : ℕ) ∧
      r.2.1.read 0 (modbusTcpHeaderLen + lengthField bytes) =
        bytes.take (modbusTcpHeaderLen + lengthField bytes) ∧
      r.2.2.pending = bytes.drop (modbusTcpHeaderLen + lengthField bytes)
  tooLarge : modbusTcpHeaderLen ≤ bytes.length →
    ssize bufferSize < (modbusTcpHeaderLen + lengthField bytes : ℕ) →
    r.1 = -1 ∧ r.2.2.pending = bytes.drop modbusTcpHeaderLen
  ended : bytes.length < modbusTcpHeaderLen ∨
      (bytes.length < modbusTcpHeaderLen + lengthField bytes ∧
        (modbusTcpHeaderLen + lengthField bytes : ℕ) ≤ ssize bufferSize) →
    r.1 = atEnd.result ∧ r.1 ≤ 0
  inside : ∀ i, bufferSize.toNat ≤ i → r.2.1 i = frame i

/-- The same value, the same buffer and the same bytes still to come. -/
structure SameCall (r r' : ℤ × Memory × ByteStream) : Prop where
  value : r.1 = r'.1
  frame : r.2.1 = r'.2.1
  pending : r.2.2.pending = r'.2.2.pending

section Splits

variable {bytes : List UInt8} {atEnd : StreamEnd} {frame : Memory} {bufferSize : UInt64}

theorem receivesFrame_of_eq {r : ℤ × Memory × ByteStream} {picks : ℕ → ℕ}
    (hsize : modbusTcpHeaderLen ≤ bufferSize.toNat)
    (hr : r = ((receiveOutcome bytes atEnd bufferSize).1,
      frame.write 0 (bytes.take (receiveOutcome bytes atEnd bufferSize).2),
      ⟨bytes.drop (receiveOutcome bytes atEnd bufferSize).2, picks⟩)) :
    ReceivesFrame bytes atEnd frame bufferSize r := by
  subst hr
  refine ⟨?_, ?_, ?_, ?_⟩
  · intro henough hfits
    have hseven : ¬ bytes.length < modbusTcpHeaderLen :=
      Nat.not_lt_of_le (Nat.le_of_add_right_le henough)
    have houtcome : receiveOutcome bytes atEnd bufferSize =
        (((modbusTcpHeaderLen + lengthField bytes : ℕ) : ℤ),
          modbusTcpHeaderLen + lengthField bytes) := by
      simp only [receiveOutcome, hseven, Int.not_lt.mpr hfits, Nat.not_lt_of_le henough, if_false]
    rw [houtcome]
    refine ⟨rfl, ?_, rfl⟩
    have htaken : (bytes.take (modbusTcpHeaderLen + lengthField bytes)).length =
        modbusTcpHeaderLen + lengthField bytes := by
      rw [List.length_take, Nat.min_eq_left henough]
    have hread := Memory.read_write_same frame 0
      (bytes.take (modbusTcpHeaderLen + lengthField bytes))
    rw [htaken] at hread
    exact hread
  · intro hseven hlarge
    have houtcome : receiveOutcome bytes atEnd bufferSize = (-1, modbusTcpHeaderLen) := by
      simp only [receiveOutcome, Nat.not_lt_of_le hseven, hlarge, if_false, if_true]
    rw [houtcome]
    exact ⟨rfl, rfl⟩
  · intro hended
    have houtcome : (receiveOutcome bytes atEnd bufferSize).1 = atEnd.result := by
      rcases hended with hheader | ⟨hdata, hfits⟩
      · simp only [receiveOutcome, hheader, if_true]
      · simp only [receiveOutcome, Int.not_lt.mpr hfits, hdata, if_false, if_true, ite_self]
    rw [houtcome]
    exact ⟨rfl, atEnd.result_nonpos⟩
  · intro i hi
    have htaken := receiveOutcome_le bytes atEnd hsize
    change frame.write 0 _ i = frame i
    apply Memory.write_of_outside
    right
    rw [List.length_take]
    omega

/-- **The call does not depend on how the stream is split.**  With `BufferSize` as the
    `ssize_t` that the code compares with, which is the size itself below `2^63`. -/
theorem mbReceiveTcpFrame_splits (bytes : List UInt8) (atEnd : StreamEnd) (frame : Memory)
    (bufferSize : UInt64) (hsize : 7 ≤ bufferSize.toNat) :
    (bufferSize.toNat < 2 ^ 63 → ssize bufferSize = bufferSize.toNat) ∧
      (∀ picks, ReceivesFrame bytes atEnd frame bufferSize
        (Connection.mbReceiveTcpFrame ⟨⟨bytes, picks⟩, atEnd⟩ frame bufferSize)) ∧
      ∀ picks picks', SameCall
        (Connection.mbReceiveTcpFrame ⟨⟨bytes, picks⟩, atEnd⟩ frame bufferSize)
        (Connection.mbReceiveTcpFrame ⟨⟨bytes, picks'⟩, atEnd⟩ frame bufferSize) := by
  refine ⟨ssize_eq, ?_, ?_⟩
  · intro picks
    obtain ⟨_, heq⟩ := mbReceiveTcpFrame_eq bytes picks atEnd frame bufferSize
    exact receivesFrame_of_eq hsize heq
  · intro picks picks'
    obtain ⟨_, heq⟩ := mbReceiveTcpFrame_eq bytes picks atEnd frame bufferSize
    obtain ⟨_, heq'⟩ := mbReceiveTcpFrame_eq bytes picks' atEnd frame bufferSize
    rw [heq, heq']
    exact ⟨rfl, rfl, rfl⟩

/-- A frame of ten bytes and the first byte of the next, in a buffer of 260 bytes. -/
theorem mbReceiveTcpFrame_splits_one :
    (Connection.mbReceiveTcpFrame ⟨⟨[0, 1, 0, 0, 0, 3, 1, 3, 0, 9, 0], fun _ => 2⟩, .closed⟩
      (fun _ => 0) 260).1 = 10 :=
  (((mbReceiveTcpFrame_splits [0, 1, 0, 0, 0, 3, 1, 3, 0, 9, 0] .closed (fun _ => 0) 260
    (by decide)).2.1 (fun _ => 2)).whole (by decide) (by decide)).1

/-- **A header that announces nothing is too large for a buffer of `2^63` bytes.** -/
theorem huge_buffer_too_small :
    modbusTcpHeaderLen + lengthField (List.replicate 7 0) ≤ (2 ^ 63 : UInt64).toNat ∧
      modbusTcpHeaderLen + lengthField (List.replicate 7 0) ≤ (List.replicate 7 (0 : UInt8)).length ∧
      (Connection.mbReceiveTcpFrame ⟨⟨List.replicate 7 0, fun _ => 7⟩, .closed⟩ (fun _ => 0)
        (2 ^ 63)).1 = -1 := by
  refine ⟨by decide +kernel, by decide, ?_⟩
  obtain ⟨_, heq⟩ := mbReceiveTcpFrame_eq (List.replicate 7 0) (fun _ => 7) .closed (fun _ => 0)
    (2 ^ 63)
  have houtcome : receiveOutcome (List.replicate 7 0) .closed (2 ^ 63) = (-1, 7) := by
    decide +kernel
  rw [heq, houtcome]

end Splits

end Lmalloc.Modbus
