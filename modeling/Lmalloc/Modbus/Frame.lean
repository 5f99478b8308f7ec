/-
  Lmalloc/Modbus/Frame.lean
  =========================
  **Modbus frames in a buffer.**

  `GenerateModbusTcpFrame` writes a frame and `MbParseTcpFrame` reads one.  Both
  know the same layout: six bytes up to and including `Length`, three more that
  `Length` counts (unit id, function code, `DataLength`), then the data.
  `DataLength` is a single byte, so the generator truncates it and the parser
  rejects what it has truncated.

  A buffer is a memory in which the frame starts at 0.
-/
import Lmalloc.Library.CMemory

namespace Lmalloc.Modbus

open Lmalloc.Library Lmalloc.Library.Bytes

/-! ### The functions -/

/-- `MODBUS_TCP_HEADER_LEN`. -/
def modbusTcpHeaderLen : ℕ := 7

/-- `MODBUS_TCP_FRAME_MAX_SIZE`. -/
def modbusTcpFrameMaxSize : ℕ := 260

/-- `(u16)(Frame[4] << 8) | Frame[5]`. -/
def frameLength (frame : Memory) : UInt16 := (frame 4).toUInt16 <<< 8 ||| (frame 5).toUInt16

/-- What `MbParseTcpFrame` stores through its pointers, and the index in the frame of
    the data that it returns. -/
structure Parsed where
  unitId : UInt16
  dataLength : UInt16
  data : Option ℕ
deriving DecidableEq, Repr

def mbParseTcpFrame (frame : Memory) : Parsed :=
  let length := frameLength frame
  let dataLength := (frame 8).toUInt16
  { unitId := (frame 6).toUInt16
    dataLength := dataLength
    data := if length.toNat ≠ dataLength.toNat + 3 then none else some 9 }

/-- `(u8)(x >> 8) & 0xFF`. -/
def highByte (x : UInt16) : UInt8 := (x >>> 8).toUInt8 &&& 0xFF

/-- `(u8)x & 0xFF`. -/
def lowByte (x : UInt16) : UInt8 := x.toUInt8 &&& 0xFF

/-- `Buffer[0]` to `Buffer[8]`, and the copy of `DataLength` bytes behind them. -/
def generateModbusTcpFrame (buffer : Memory) (transactionId protocolId length : UInt16)
    (unitId : UInt8) (functionCode : UInt16) (data : List UInt8) (dataLength : UInt16) : Memory :=
  let buffer := buffer.write 0
    [highByte transactionId, lowByte transactionId, highByte protocolId, lowByte protocolId,
      highByte length, lowByte length, unitId, functionCode.toUInt8, dataLength.toUInt8]
  buffer.write 9 (data.take dataLength.toNat)

/-! ### The documented layout -/

/-- A frame as the table at `MbParseTcpFrame` has it, of at most 260 bytes. -/
structure MbFrame where
  transactionId : UInt16
  protocolId : UInt16
  unitId : UInt8
  functionCode : UInt8
  data : List UInt8
  fits : 9 + data.length ≤ modbusTcpFrameMaxSize

namespace MbFrame

/-- The number of bytes after the `Length` field. -/
def length (f : MbFrame) : ℕ := f.data.length + 3

def header (f : MbFrame) : List UInt8 :=
  toBE 2 f.transactionId.toNat ++ toBE 2 f.protocolId.toNat ++ toBE 2 f.length ++
    [f.unitId, f.functionCode, UInt8.ofNat f.data.length]

def bytes (f : MbFrame) : List UInt8 := f.header ++ f.data

theorem length_header (f : MbFrame) : f.header.length = 9 := by
  simp [header]

theorem length_bytes (f : MbFrame) : f.bytes.length = f.data.length + 9 := by
  rw [bytes, List.length_append, length_header, Nat.add_comm]

theorem data_lt (f : MbFrame) : f.data.length < 256 := by
  have hfits := f.fits
  simp only [modbusTcpFrameMaxSize] at hfits
  omega

end MbFrame

/-! ### Reading and writing the length -/

theorem toNat_frameLength (frame : Memory) :
    (frameLength frame).toNat = (frame 4).toNat * 256 + (frame 5).toNat := by
  have hhigh := (frame 4).toNat_lt
  have hlow := (frame 5).toNat_lt
  have height : UInt16.toNat 8 % 16 = 8 := rfl
  simp only [frameLength, UInt16.toNat_or, UInt16.toNat_shiftLeft, UInt8.toNat_toUInt16, height]
  rw [Nat.mod_eq_of_lt (by rw [Nat.shiftLeft_eq]; omega),
    ← Nat.shiftLeft_add_eq_or_of_lt hlow, Nat.shiftLeft_eq]

theorem toNat_highByte (x : UInt16) : (highByte x).toNat = x.toNat / 256 := by
  have hx := x.toNat_lt
  have hmask : ∀ y : ℕ, y &&& 255 = y % 2 ^ 8 := fun y => Nat.and_two_pow_sub_one_eq_mod y 8
  have height : UInt16.toNat 8 % 16 = 8 := rfl
  have hff : UInt8.toNat 255 = 255 := rfl
  simp only [highByte, UInt8.toNat_and, UInt16.toNat_toUInt8, UInt16.toNat_shiftRight, height, hff,
    hmask, Nat.shiftRight_eq_div_pow, Nat.mod_mod]
  exact Nat.mod_eq_of_lt (by omega)

theorem toNat_lowByte (x : UInt16) : (lowByte x).toNat = x.toNat % 256 := by
  have hmask : ∀ y : ℕ, y &&& 255 = y % 2 ^ 8 := fun y => Nat.and_two_pow_sub_one_eq_mod y 8
  have hff : UInt8.toNat 255 = 255 := rfl
  simp only [lowByte, UInt8.toNat_and, UInt16.toNat_toUInt8, hff, hmask, Nat.mod_mod]

/-- The two bytes of a word as the generator writes them. -/
theorem toBE_eq_bytes (x : UInt16) : toBE 2 x.toNat = [highByte x, lowByte x] := by
  have hhigh : UInt8.ofNat (x.toNat / 256) = highByte x := by
    apply UInt8.toNat_inj.mp
    rw [UInt8.toNat_ofNat', toNat_highByte]
    have hx := x.toNat_lt
    omega
  have hlow : UInt8.ofNat x.toNat = lowByte x := by
    apply UInt8.toNat_inj.mp
    rw [UInt8.toNat_ofNat', toNat_lowByte]
  simp only [toBE, toLE, hhigh, hlow, List.reverse_cons, List.reverse_nil, List.nil_append,
    List.cons_append]

section Generate

variable {buffer : Memory} {transactionId protocolId length : UInt16} {unitId : UInt8}
  {functionCode : UInt16} {data : List UInt8} {dataLength : UInt16}

/-- The nine bytes before the data. -/
theorem generate_header {i : ℕ} (hi : i < 9) :
    generateModbusTcpFrame buffer transactionId protocolId length unitId functionCode data
        dataLength i =
      [highByte transactionId, lowByte transactionId, highByte protocolId, lowByte protocolId,
        highByte length, lowByte length, unitId, functionCode.toUInt8, dataLength.toUInt8][i] := by
  have hwrite := @Memory.write_add buffer 0 i
    [highByte transactionId, lowByte transactionId, highByte protocolId, lowByte protocolId,
      highByte length, lowByte length, unitId, functionCode.toUInt8, dataLength.toUInt8] hi
  rw [Nat.zero_add] at hwrite
  rw [generateModbusTcpFrame, Memory.write_of_outside (Or.inl hi)]
  exact hwrite

theorem frameLength_generate :
    frameLength (generateModbusTcpFrame buffer transactionId protocolId length unitId functionCode
      data dataLength) = length := by
  apply UInt16.toNat_inj.mp
  rw [toNat_frameLength, generate_header (by decide), generate_header (by decide)]
  simp only [List.getElem_cons_succ, List.getElem_cons_zero]
  rw [toNat_highByte, toNat_lowByte]
  omega

theorem generate_data (hdata : data.length = dataLength.toNat) :
    (generateModbusTcpFrame buffer transactionId protocolId length unitId functionCode data
      dataLength).read 9 dataLength.toNat = data := by
  rw [generateModbusTcpFrame, ← hdata, List.take_length]
  exact Memory.read_write_same _ _ _

theorem mbParse_generate :
    mbParseTcpFrame (generateModbusTcpFrame buffer transactionId protocolId length unitId
        functionCode data dataLength) =
      { unitId := unitId.toUInt16
        dataLength := dataLength.toUInt8.toUInt16
        data := if length.toNat ≠ dataLength.toNat % 256 + 3 then none else some 9 } := by
  have hbyte : dataLength.toUInt8.toUInt16.toNat = dataLength.toNat % 256 := by
    rw [UInt8.toNat_toUInt16, UInt16.toNat_toUInt8]
  simp only [mbParseTcpFrame, frameLength_generate, generate_header (by decide : 6 < 9),
    generate_header (by decide : 8 < 9), List.getElem_cons_succ, List.getElem_cons_zero, hbyte]

/-- With `Length = DataLength + 3` and a payload that one byte can count, the
    generator writes the documented frame. -/
theorem generate_eq_bytes (f : MbFrame) (hcode : functionCode.toUInt8 = f.functionCode)
    (hdata : f.data.length = dataLength.toNat) :
    (generateModbusTcpFrame buffer f.transactionId f.protocolId (dataLength + 3) f.unitId
      functionCode f.data dataLength).read 0 f.bytes.length = f.bytes := by
  have hlt := f.data_lt
  have hlength : f.length = (dataLength + 3).toNat := by
    rw [MbFrame.length, hdata, UInt16.toNat_add]
    exact (Nat.mod_eq_of_lt (by rw [← hdata]; omega)).symm
  have hcount : UInt8.ofNat f.data.length = dataLength.toUInt8 := by
    apply UInt8.toNat_inj.mp
    rw [UInt8.toNat_ofNat', UInt16.toNat_toUInt8, hdata]
  have hbytes : f.bytes = [highByte f.transactionId, lowByte f.transactionId,
      highByte f.protocolId, lowByte f.protocolId, highByte (dataLength + 3),
      lowByte (dataLength + 3), f.unitId, functionCode.toUInt8, dataLength.toUInt8] ++ f.data := by
    rw [MbFrame.bytes, MbFrame.header, hlength, toBE_eq_bytes, toBE_eq_bytes, toBE_eq_bytes, hcount,
      hcode]
    rfl
  rw [generateModbusTcpFrame, ← hdata, List.take_length, hbytes]
  have hone := Memory.write_append buffer 0 [highByte f.transactionId, lowByte f.transactionId,
      highByte f.protocolId, lowByte f.protocolId, highByte (dataLength + 3),
      lowByte (dataLength + 3), f.unitId, functionCode.toUInt8, dataLength.toUInt8] f.data
  exact (congrArg (fun m : Memory => m.read 0 _) hone.symm).trans (Memory.read_write_same _ _ _)

end Generate

/-! ### Generator and parser together -/

/-- **The parser gets back what the generator has put in, inside what is received.** -/
def ParsesBack : Prop :=
  ∀ (buffer : Memory) (transactionId protocolId : UInt16) (unitId : UInt8) (functionCode : UInt16)
    (data : List UInt8) (dataLength : UInt16),
    data.length = dataLength.toNat → dataLength.toNat ≤ 250 →
    let frame := generateModbusTcpFrame buffer transactionId protocolId (dataLength + 3) unitId
      functionCode data dataLength
    mbParseTcpFrame frame = ⟨unitId.toUInt16, dataLength, some 9⟩ ∧
      frame.read 9 dataLength.toNat = data ∧
      9 + dataLength.toNat ≤ modbusTcpHeaderLen + (frameLength frame).toNat ∧
      modbusTcpHeaderLen + (frameLength frame).toNat ≤ modbusTcpFrameMaxSize

/-- Whatever the parser accepts lies inside the bytes that `MbRun` has received. -/
def StaysInside : Prop :=
  ∀ (frame : Memory) (p : ℕ),
    (frameLength frame).toNat ≤ modbusTcpFrameMaxSize - modbusTcpHeaderLen →
    (mbParseTcpFrame frame).data = some p →
    p = 9 ∧ p + (mbParseTcpFrame frame).dataLength.toNat ≤
        modbusTcpHeaderLen + (frameLength frame).toNat ∧
      modbusTcpHeaderLen + (frameLength frame).toNat ≤ modbusTcpFrameMaxSize

/-- A payload too long for the byte that counts it is rejected. -/
def RejectsLong : Prop :=
  ∀ (buffer : Memory) (transactionId protocolId : UInt16) (unitId : UInt8) (functionCode : UInt16)
    (data : List UInt8) (dataLength : UInt16), 255 < dataLength.toNat →
    (mbParseTcpFrame (generateModbusTcpFrame buffer transactionId protocolId (dataLength + 3)
      unitId functionCode data dataLength)).data = none

theorem toNat_add_three (x : UInt16) : (x + 3).toNat = (x.toNat + 3) % 65536 := UInt16.toNat_add x 3

theorem parsesBack : ParsesBack := by
  intro buffer transactionId protocolId unitId functionCode data dataLength hdata hle
  have hlength : (dataLength + 3).toNat = dataLength.toNat + 3 := by
    rw [toNat_add_three]
    omega
  have hcount : dataLength.toUInt8.toUInt16 = dataLength := by
    apply UInt16.toNat_inj.mp
    rw [UInt8.toNat_toUInt16, UInt16.toNat_toUInt8]
    omega
  have hmod : dataLength.toNat % 256 = dataLength.toNat := by omega
  refine ⟨?_, generate_data hdata, ?_, ?_⟩
  · rw [mbParse_generate, hcount, hlength, hmod, if_neg (not_not_intro rfl)]
  · rw [frameLength_generate, hlength, modbusTcpHeaderLen]
    omega
  · rw [frameLength_generate, hlength, modbusTcpHeaderLen, modbusTcpFrameMaxSize]
    omega

/-- Accepting means that `Length` is `DataLength + 3`. -/
theorem mbParse_accepts {frame : Memory} {p : ℕ} (h : (mbParseTcpFrame frame).data = some p) :
    p = 9 ∧ (frameLength frame).toNat = (mbParseTcpFrame frame).dataLength.toNat + 3 := by
  simp only [mbParseTcpFrame] at h ⊢
  split at h
  · cases h
  · next hlength =>
    cases h
    exact ⟨rfl, not_not.mp hlength⟩

theorem staysInside : StaysInside := by
  intro frame p hchecked haccept
  obtain ⟨rfl, hlength⟩ := mbParse_accepts haccept
  simp only [modbusTcpHeaderLen, modbusTcpFrameMaxSize] at hchecked
  refine ⟨rfl, ?_, ?_⟩
  · rw [modbusTcpHeaderLen, hlength]
    omega
  · rw [modbusTcpHeaderLen, modbusTcpFrameMaxSize]
    omega

/-- `DataLength + 3` may wrap; it still is not the low byte plus 3. -/
theorem rejectsLong : RejectsLong := by
  intro buffer transactionId protocolId unitId functionCode data dataLength hlong
  have hlt := dataLength.toNat_lt
  have hne : (dataLength + 3).toNat ≠ dataLength.toNat % 256 + 3 := by
    rw [toNat_add_three]
    omega
  rw [mbParse_generate, if_pos hne]

/-- **Generator and parser agree, and parsing stays in bounds.** -/
theorem frames_agree : ParsesBack ∧ StaysInside ∧ RejectsLong :=
  ⟨parsesBack, staysInside, rejectsLong⟩

/-- A payload of two bytes, the parser on the frame it makes, and one of 256. -/
theorem frames_agree_two :
    mbParseTcpFrame (generateModbusTcpFrame (fun _ => 0) 1 0 5 1 16 [7, 8] 2) = ⟨1, 2, some 9⟩ ∧
      9 + 2 ≤ 7 + (frameLength (generateModbusTcpFrame (fun _ => 0) 1 0 5 1 16 [7, 8] 2)).toNat ∧
      (mbParseTcpFrame (generateModbusTcpFrame (fun _ => 0) 1 0 259 1 16 [] 256)).data = none :=
  ⟨(frames_agree.1 (fun _ => 0) 1 0 1 16 [7, 8] 2 (by decide) (by decide)).1,
    (frames_agree.2.1 (generateModbusTcpFrame (fun _ => 0) 1 0 5 1 16 [7, 8] 2) 9 (by decide)
      (by decide)).2.1,
    frames_agree.2.2 (fun _ => 0) 1 0 1 16 [] 256 (by decide)⟩

end Lmalloc.Modbus
