/-
  Lmalloc/Modbus/Receive.lean
  ===========================
  **Receiving a stream of Modbus frames.**

  `MbReceiveTcpFrame` and `MbRun` receive a header of seven bytes and then as many
  bytes as its `Length` field says.  The documented `Length` counts the bytes after
  the field itself, and the seventh byte of the header is one of them.  Each call
  takes one byte too many: the first frame already ends in the next one.

  The test server sends one byte behind each frame.  A stream of such frames is
  received exactly, however the network cuts it.
-/
import Lmalloc.Library.ByteStream
import Lmalloc.Modbus.Frame

namespace Lmalloc.Modbus

open Lmalloc.Library Lmalloc.Library.Bytes

/-! ### The receivers -/

/-- `MbReceiveTcpFrame`: the value returned, the buffer, and the stream it leaves. -/
def mbReceiveTcpFrame (s : ByteStream) (frame : Memory) (bufferSize : ℕ) :
    Int × Memory × ByteStream :=
  let header := s.recvLoop frame 0 modbusTcpHeaderLen
  if header.1 = false then (0, header.2)
  else
    let totalFrameSize := modbusTcpHeaderLen + (frameLength header.2.1).toNat
    if totalFrameSize > bufferSize then (-1, header.2)
    else
      let data := header.2.2.recvLoop header.2.1 modbusTcpHeaderLen totalFrameSize
      if data.1 = false then (0, data.2) else (totalFrameSize, data.2)

/-- A frame in its buffer, parsed and copied out. -/
def payload (frame : Memory) : Option (List UInt8) :=
  (mbParseTcpFrame frame).data.map fun p => frame.read p (mbParseTcpFrame frame).dataLength.toNat

/-- A round of receiving: the payload and the stream it leaves, unless it fails. -/
abbrev Receive := ByteStream → Option (List UInt8 × ByteStream)

/-- `MbReceiveTcpFrame` into a buffer of 260 bytes, and the parser. -/
def receiveAndParse : Receive := fun s =>
  let r := mbReceiveTcpFrame s (fun _ => 0) modbusTcpFrameMaxSize
  if r.1 ≤ 0 then none else (payload r.2.1).map fun data => (data, r.2.2)

/-- The same in the loop of `MbRun`, where each part has to come in one `recv`.  A
    timeout before the header leaves the stream as it is, and the round starts over. -/
def mbRunReceive : Receive := fun s =>
  let header := s.recv modbusTcpHeaderLen
  if header.1.length ≠ modbusTcpHeaderLen then none
  else
    let frame := Memory.write (fun _ => 0) 0 header.1
    let length := (frameLength frame).toNat
    if length > modbusTcpFrameMaxSize - modbusTcpHeaderLen then none
    else
      let data := header.2.recv length
      if data.1.length ≠ length then none
      else (payload (frame.write modbusTcpHeaderLen data.1)).map fun bytes => (bytes, data.2)

/-- Round by round the payloads come out in order, and each round takes the bytes of
    its frame from the stream. -/
def ReceivedExactly (receive : Receive) (wire : MbFrame → List UInt8) :
    List MbFrame → ByteStream → Prop
  | [], _ => True
  | f :: fs, s => ∃ s', receive s = some (f.data, s') ∧ s.pending = wire f ++ s'.pending ∧
      ReceivedExactly receive wire fs s'

/-! ### What a round takes -/

/-- A buffer of zeros with these bytes at its start. -/
def received (bytes : List UInt8) : Memory := Memory.write (fun _ => 0) 0 bytes

/-- What the `Length` field of the next header says. -/
def announced (s : ByteStream) : ℕ :=
  (frameLength (received (s.pending.take modbusTcpHeaderLen))).toNat

/-- A round has taken the header and as many bytes more as it announces. -/
structure Taken (s : ByteStream) (data : List UInt8) (s' : ByteStream) : Prop where
  enough : modbusTcpHeaderLen + announced s ≤ s.pending.length
  fits : modbusTcpHeaderLen + announced s ≤ modbusTcpFrameMaxSize
  rest : s'.pending = s.pending.drop (modbusTcpHeaderLen + announced s)
  payload_eq : payload (received (s.pending.take (modbusTcpHeaderLen + announced s))) = some data

section Taken

variable {s s' : ByteStream} {data : List UInt8}

/-- The header and what is received behind it are one piece of the stream. -/
theorem received_write (s : ByteStream) (n : ℕ) (h : modbusTcpHeaderLen ≤ s.pending.length) :
    (received (s.pending.take modbusTcpHeaderLen)).write modbusTcpHeaderLen
        ((s.pending.drop modbusTcpHeaderLen).take n) =
      received (s.pending.take (modbusTcpHeaderLen + n)) := by
  have hlength : (s.pending.take modbusTcpHeaderLen).length = modbusTcpHeaderLen := by
    rw [List.length_take, Nat.min_eq_left h]
  rw [List.take_add, received, received, Memory.write_append, Nat.zero_add, hlength]

theorem taken_of_receiveAndParse (h : receiveAndParse s = some (data, s')) : Taken s data s' := by
  simp only [receiveAndParse] at h
  obtain ⟨ok₁, frame₁, s₁, hheader⟩ :
      ∃ ok frame s₁, s.recvLoop (fun _ => 0) 0 modbusTcpHeaderLen = (ok, frame, s₁) :=
    ⟨_, _, _, rfl⟩
  cases ok₁ with
  | false =>
    simp only [mbReceiveTcpFrame, hheader, if_true, le_refl] at h
    cases h
  | true =>
    obtain ⟨hle₁, hframe₁, hrest₁⟩ := ByteStream.recvLoop_eq_true hheader
    rw [Nat.sub_zero] at hle₁ hframe₁ hrest₁
    have hannounced : (frameLength frame₁).toNat = announced s := by
      rw [hframe₁]
      rfl
    by_cases hbig : modbusTcpHeaderLen + announced s > modbusTcpFrameMaxSize
    · simp only [mbReceiveTcpFrame, hheader, hannounced, hbig, Bool.true_eq_false, if_false,
        if_true] at h
      exact absurd h (by simp)
    · obtain ⟨ok₂, frame₂, s₂, hdata⟩ : ∃ ok frame s₂,
          s₁.recvLoop frame₁ modbusTcpHeaderLen (modbusTcpHeaderLen + announced s) =
            (ok, frame, s₂) := ⟨_, _, _, rfl⟩
      simp only [mbReceiveTcpFrame, hheader, hannounced, hbig, hdata, Bool.true_eq_false,
        if_false] at h
      cases ok₂ with
      | false =>
        simp only [if_true, le_refl] at h
        cases h
      | true =>
        obtain ⟨hle₂, hframe₂, hrest₂⟩ := ByteStream.recvLoop_eq_true hdata
        rw [Nat.add_sub_cancel_left, hrest₁] at hle₂ hframe₂ hrest₂
        have hpos : ¬ ((modbusTcpHeaderLen + announced s : ℕ) : Int) ≤ 0 := by
          simp only [modbusTcpHeaderLen]
          omega
        simp only [Bool.true_eq_false, if_false, hpos, Option.map_eq_some_iff, Prod.mk.injEq] at h
        obtain ⟨bytes, hpayload, rfl, rfl⟩ := h
        have hframe : frame₂ = received (s.pending.take (modbusTcpHeaderLen + announced s)) := by
          rw [hframe₂, hframe₁]
          exact received_write s _ hle₁
        refine ⟨?_, Nat.le_of_not_lt hbig, ?_, hframe ▸ hpayload⟩
        · rw [List.length_drop] at hle₂
          omega
        · rw [hrest₂, List.drop_drop]

/-- **What a successful round of `MbRun` has done**: two calls that returned all they
    were asked for, the second for what the header announces. -/
theorem mbRunReceive_cases (h : mbRunReceive s = some (data, s')) :
    (s.recv modbusTcpHeaderLen).1.length = modbusTcpHeaderLen ∧
      announced s ≤ modbusTcpFrameMaxSize - modbusTcpHeaderLen ∧
      ((s.recv modbusTcpHeaderLen).2.recv (announced s)).1.length = announced s ∧
      ((s.recv modbusTcpHeaderLen).2.recv (announced s)).2 = s' ∧
      payload ((received (s.pending.take modbusTcpHeaderLen)).write modbusTcpHeaderLen
        ((s.recv modbusTcpHeaderLen).2.recv (announced s)).1) = some data := by
  simp only [mbRunReceive] at h
  split at h
  · cases h
  next hheader =>
  have hseven := not_not.mp hheader
  have hbytes : (s.recv modbusTcpHeaderLen).1 = s.pending.take modbusTcpHeaderLen := by
    rw [ByteStream.recv_bytes, hseven]
  have hannounced :
      (frameLength (Memory.write (fun _ => 0) 0 (s.recv modbusTcpHeaderLen).1)).toNat =
        announced s := by
    rw [hbytes]
    rfl
  rw [hannounced] at h
  split at h
  · cases h
  next hbig =>
  split at h
  · cases h
  next hdata =>
  simp only [Option.map_eq_some_iff, Prod.mk.injEq] at h
  obtain ⟨bytes, hpayload, rfl, hrest⟩ := h
  rw [hbytes] at hpayload
  exact ⟨hseven, Nat.le_of_not_lt hbig, not_not.mp hdata, hrest, hpayload⟩

theorem taken_of_mbRunReceive (h : mbRunReceive s = some (data, s')) : Taken s data s' := by
  obtain ⟨hseven, hchecked, hall, rfl, hpayload⟩ := mbRunReceive_cases h
  have hbytes : (s.recv modbusTcpHeaderLen).1 = s.pending.take modbusTcpHeaderLen := by
    rw [ByteStream.recv_bytes, hseven]
  have hrest₁ : (s.recv modbusTcpHeaderLen).2.pending = s.pending.drop modbusTcpHeaderLen := by
    rw [ByteStream.recv_pending, hseven]
  have hle₁ : modbusTcpHeaderLen ≤ s.pending.length := by
    have hlength := congrArg List.length hbytes
    rw [hseven, List.length_take] at hlength
    exact (Nat.le_of_eq hlength).trans (Nat.min_le_right _ _)
  have hpiece : ((s.recv modbusTcpHeaderLen).2.recv (announced s)).1 =
      (s.pending.drop modbusTcpHeaderLen).take (announced s) := by
    rw [ByteStream.recv_bytes, hall, hrest₁]
  have hrest₂ : ((s.recv modbusTcpHeaderLen).2.recv (announced s)).2.pending =
      (s.pending.drop modbusTcpHeaderLen).drop (announced s) := by
    rw [ByteStream.recv_pending, hall, hrest₁]
  have hle₂ : announced s ≤ (s.pending.drop modbusTcpHeaderLen).length := by
    have hlength := congrArg List.length hpiece
    rw [hall, List.length_take] at hlength
    exact (Nat.le_of_eq hlength).trans (Nat.min_le_right _ _)
  rw [hpiece] at hpayload
  refine ⟨?_, ?_, ?_, ?_⟩
  · rw [List.length_drop] at hle₂
    omega
  · simp only [modbusTcpHeaderLen, modbusTcpFrameMaxSize] at hchecked ⊢
    omega
  · rw [hrest₂, List.drop_drop]
  · rw [← received_write s _ hle₁]
    exact hpayload

end Taken

/-! ### Frames on the wire -/

section Wire

variable {s s' : ByteStream} {f : MbFrame} {data rest : List UInt8}

theorem length_lt (f : MbFrame) : f.length < 259 := by
  have hlt := f.data_lt
  rw [MbFrame.length]
  omega

/-- A header says how many bytes follow its `Length` field. -/
theorem announced_of_frame (h : s.pending = f.bytes ++ rest) : announced s = f.length := by
  have hlt := length_lt f
  have hfour : received (s.pending.take modbusTcpHeaderLen) 4 = UInt8.ofNat (f.length / 256) := by
    rw [h]
    rfl
  have hfive : received (s.pending.take modbusTcpHeaderLen) 5 = UInt8.ofNat f.length := by
    rw [h]
    rfl
  rw [announced, toNat_frameLength, hfour, hfive, UInt8.toNat_ofNat', UInt8.toNat_ofNat']
  omega

/-- **A round takes one byte more than a documented frame has.** -/
theorem Taken.length_eq (h : Taken s data s') (hs : s.pending = f.bytes ++ rest) :
    s'.pending.length + 1 = rest.length := by
  have henough := h.enough
  have hlength := congrArg List.length h.rest
  rw [announced_of_frame hs, MbFrame.length, modbusTcpHeaderLen] at henough hlength
  rw [List.length_drop, hs, List.length_append, MbFrame.length_bytes] at hlength
  rw [hs, List.length_append, MbFrame.length_bytes] at henough
  omega

theorem not_receivedExactly {receive : Receive}
    (hreceive : ∀ s data s', receive s = some (data, s') → Taken s data s') (fs : List MbFrame) :
    ¬ ReceivedExactly receive MbFrame.bytes (f :: fs) s := by
  rintro ⟨s', hround, hexact, _⟩
  have htaken := (hreceive _ _ _ hround).length_eq hexact
  exact Nat.succ_ne_self _ htaken

theorem receivedExactly_iff {receive : Receive}
    (hreceive : ∀ s data s', receive s = some (data, s') → Taken s data s')
    (frames : List MbFrame) (s : ByteStream) :
    ReceivedExactly receive MbFrame.bytes frames s ↔ frames = [] := by
  cases frames with
  | nil => exact ⟨fun _ => rfl, fun _ => trivial⟩
  | cons f fs =>
    exact ⟨fun h => absurd h (not_receivedExactly hreceive fs), fun h => nomatch h⟩

/-- **Of the streams of documented frames, only the one without frames is received
    exactly**, by either receiver and whatever the network returns. -/
theorem documented_received_iff (frames : List MbFrame) (picks : ℕ → ℕ) :
    (ReceivedExactly receiveAndParse MbFrame.bytes frames
        ⟨frames.flatMap MbFrame.bytes, picks⟩ ↔ frames = []) ∧
      (ReceivedExactly mbRunReceive MbFrame.bytes frames
        ⟨frames.flatMap MbFrame.bytes, picks⟩ ↔ frames = []) :=
  ⟨receivedExactly_iff (fun _ _ _ => taken_of_receiveAndParse) frames _,
    receivedExactly_iff (fun _ _ _ => taken_of_mbRunReceive) frames _⟩

/-- A frame of one data byte. -/
def oneByte : MbFrame := ⟨1, 0, 1, 3, [42], by decide⟩

/-- Two frames of one data byte, each `recv` returning all it can.  `MbRun` gets the
    first payload and leaves nine bytes of ten, which it cannot parse. -/
theorem two_frames_not_received :
    ¬ ReceivedExactly receiveAndParse MbFrame.bytes [oneByte, oneByte]
        ⟨oneByte.bytes ++ oneByte.bytes, fun _ => 260⟩ ∧
      ¬ ReceivedExactly mbRunReceive MbFrame.bytes [oneByte, oneByte]
        ⟨oneByte.bytes ++ oneByte.bytes, fun _ => 260⟩ ∧
      (mbRunReceive ⟨oneByte.bytes ++ oneByte.bytes, fun _ => 260⟩).map
        (fun r => (r.1, r.2.pending.length, (mbRunReceive r.2).isSome)) = some ([42], 9, false) :=
  ⟨not_receivedExactly (fun _ _ _ => taken_of_receiveAndParse) _,
    not_receivedExactly (fun _ _ _ => taken_of_mbRunReceive) _, by decide⟩

end Wire

/-! ### The frames of the test server -/

/-- `SendModbusData` sends `MODBUS_TCP_HEADER_LEN + Length` bytes. -/
def sentBytes (pad : UInt8) (f : MbFrame) : List UInt8 := f.bytes ++ [pad]

section Sent

variable {s : ByteStream} {f : MbFrame} {rest more : List UInt8} {pad : UInt8}

/-- A frame in the buffer parses to its payload, whatever follows. -/
theorem payload_of_frame (f : MbFrame) (more : List UInt8) :
    payload (received (f.bytes ++ more)) = some f.data := by
  have hlt := f.data_lt
  have hfour : received (f.bytes ++ more) 4 = UInt8.ofNat (f.length / 256) := rfl
  have hfive : received (f.bytes ++ more) 5 = UInt8.ofNat f.length := rfl
  have height : received (f.bytes ++ more) 8 = UInt8.ofNat f.data.length := rfl
  have hcount : (UInt8.ofNat f.data.length).toUInt16.toNat = f.data.length := by
    rw [UInt8.toNat_toUInt16, UInt8.toNat_ofNat']
    exact Nat.mod_eq_of_lt hlt
  have hlength : (frameLength (received (f.bytes ++ more))).toNat = f.data.length + 3 := by
    rw [toNat_frameLength, hfour, hfive, UInt8.toNat_ofNat', UInt8.toNat_ofNat', MbFrame.length]
    omega
  have hdata : (received (f.bytes ++ more)).read 9 f.data.length = f.data := by
    have hsplit : received (f.bytes ++ more) =
        (received f.bytes).write f.bytes.length more := by
      rw [received, received, Memory.write_append, Nat.zero_add]
    have hheader : received f.bytes = (received f.header).write 9 f.data := by
      rw [received, received, MbFrame.bytes, Memory.write_append, Nat.zero_add, f.length_header]
    rw [hsplit, Memory.read_write_of_disjoint (by rw [MbFrame.length_bytes]; omega), hheader]
    exact Memory.read_write_same _ _ _
  simp only [payload, mbParseTcpFrame, height, hcount, hlength, ne_eq, not_true_eq_false, if_false,
    Option.map_some, hdata]

/-- Header and data of a frame that fills what its header announces. -/
structure Arrived (pad : UInt8) (f : MbFrame) (rest : List UInt8) (s : ByteStream) : Prop where
  small : f.data.length ≤ 250
  pending : s.pending = sentBytes pad f ++ rest

theorem Arrived.pending_eq (h : Arrived pad f rest s) : s.pending = f.bytes ++ (pad :: rest) := by
  rw [h.pending, sentBytes, List.append_assoc]
  rfl

theorem Arrived.length_sent (h : Arrived pad f rest s) :
    (sentBytes pad f).length = modbusTcpHeaderLen + announced s := by
  rw [sentBytes, List.length_append, MbFrame.length_bytes, announced_of_frame h.pending_eq,
    MbFrame.length, modbusTcpHeaderLen, List.length_singleton]
  omega

theorem Arrived.enough (h : Arrived pad f rest s) :
    modbusTcpHeaderLen + announced s ≤ s.pending.length := by
  rw [← h.length_sent, h.pending, List.length_append]
  exact Nat.le_add_right _ _

theorem Arrived.fits (h : Arrived pad f rest s) :
    modbusTcpHeaderLen + announced s ≤ modbusTcpFrameMaxSize := by
  have hsmall := h.small
  rw [announced_of_frame h.pending_eq, MbFrame.length, modbusTcpHeaderLen, modbusTcpFrameMaxSize]
  omega

theorem Arrived.rest_eq (h : Arrived pad f rest s) :
    s.pending.drop (modbusTcpHeaderLen + announced s) = rest := by
  rw [← h.length_sent, h.pending, List.drop_left]

theorem Arrived.payload_eq (h : Arrived pad f rest s) :
    payload (received (s.pending.take (modbusTcpHeaderLen + announced s))) = some f.data := by
  rw [← h.length_sent, h.pending, List.take_left]
  exact payload_of_frame f [pad]

/-- `MbReceiveTcpFrame` takes it, however the network cuts it. -/
theorem Arrived.receiveAndParse_eq (h : Arrived pad f rest s) :
    ∃ picks, receiveAndParse s = some (f.data, ⟨rest, picks⟩) := by
  have henough := h.enough
  obtain ⟨picks₁, hheader⟩ := ByteStream.recvLoop_of_le s (fun _ => 0) 0 modbusTcpHeaderLen
    (Nat.le_of_add_right_le henough)
  rw [Nat.sub_zero] at hheader
  have hfits : ¬ modbusTcpHeaderLen + announced s > modbusTcpFrameMaxSize :=
    Nat.not_lt_of_le h.fits
  have hannounced : (frameLength (Memory.write (fun _ => 0) 0
      (s.pending.take modbusTcpHeaderLen))).toNat = announced s := rfl
  obtain ⟨picks₂, hdata⟩ := ByteStream.recvLoop_of_le
    ⟨s.pending.drop modbusTcpHeaderLen, picks₁⟩ (received (s.pending.take modbusTcpHeaderLen))
    modbusTcpHeaderLen (modbusTcpHeaderLen + announced s)
    (by rw [Nat.add_sub_cancel_left, List.length_drop]; omega)
  simp only [Nat.add_sub_cancel_left, List.drop_drop, h.rest_eq,
    received_write s _ (Nat.le_of_add_right_le henough)] at hdata
  have hpos : ¬ ((modbusTcpHeaderLen + announced s : ℕ) : Int) ≤ 0 := by
    simp only [modbusTcpHeaderLen]
    omega
  have hframe : mbReceiveTcpFrame s (fun _ => 0) modbusTcpFrameMaxSize =
      (((modbusTcpHeaderLen + announced s : ℕ) : Int),
        received (s.pending.take (modbusTcpHeaderLen + announced s)), ⟨rest, picks₂⟩) := by
    simp only [mbReceiveTcpFrame, hheader, hannounced, hfits, Bool.true_eq_false, if_false]
    rw [← received, hdata]
    rfl
  refine ⟨picks₂, ?_⟩
  simp only [receiveAndParse, hframe, hpos, if_false, h.payload_eq, Option.map_some]

/-- `MbRun` takes it if the network keeps back nothing of either part. -/
theorem Arrived.mbRunReceive_eq (h : Arrived pad f rest s)
    (hheaderPick : modbusTcpHeaderLen ≤ s.picks 0) (hdataPick : announced s ≤ s.picks 1) :
    mbRunReceive s = some (f.data, ⟨rest, fun i => s.picks (i + 2)⟩) := by
  have henough := h.enough
  have hfits := h.fits
  have hseven : modbusTcpHeaderLen ≤ s.pending.length := Nat.le_of_add_right_le henough
  have hheader := ByteStream.recv_of_pick hheaderPick hseven
  have hannounced : (frameLength (Memory.write (fun _ => 0) 0
      (s.pending.take modbusTcpHeaderLen))).toNat = announced s := rfl
  have hdata := @ByteStream.recv_of_pick
    ⟨s.pending.drop modbusTcpHeaderLen, fun i => s.picks (i + 1)⟩ (announced s)
    hdataPick (by rw [List.length_drop]; omega)
  rw [List.drop_drop, h.rest_eq] at hdata
  have hlength₁ : (s.pending.take modbusTcpHeaderLen).length = modbusTcpHeaderLen := by
    rw [List.length_take, Nat.min_eq_left hseven]
  have hlength₂ : ((s.pending.drop modbusTcpHeaderLen).take (announced s)).length = announced s := by
    rw [List.length_take, List.length_drop, Nat.min_eq_left (by omega)]
  have hchecked : ¬ announced s > modbusTcpFrameMaxSize - modbusTcpHeaderLen := by omega
  simp only [mbRunReceive, hheader, hlength₁, ne_eq, not_true_eq_false, if_false, hannounced,
    hchecked, hdata, hlength₂]
  have hpayload := h.payload_eq
  rw [← received_write s _ hseven] at hpayload
  exact congrArg (Option.map _) hpayload

/-- **Frames with a byte behind each are received exactly, in every run**, if a round
    takes one such frame. -/
theorem receivedExactly_sent {receive : Receive} {I : ByteStream → Prop}
    (hround : ∀ f rest s, Arrived pad f rest s → I s →
      ∃ s', receive s = some (f.data, s') ∧ s'.pending = rest ∧ I s') (frames : List MbFrame) :
    ∀ s : ByteStream, (∀ f ∈ frames, f.data.length ≤ 250) → I s →
      s.pending = frames.flatMap (sentBytes pad) →
      ReceivedExactly receive (sentBytes pad) frames s := by
  induction frames with
  | nil => exact fun _ _ _ _ => trivial
  | cons f fs ih =>
    intro s hsmall hok hs
    rw [List.flatMap_cons] at hs
    obtain ⟨s', hreceive, hrest, hok'⟩ :=
      hround f _ s ⟨hsmall f (List.mem_cons_self ..), hs⟩ hok
    refine ⟨s', hreceive, ?_, ?_⟩
    · rw [hrest]
      exact hs
    · exact ih s' (fun g hg => hsmall g (List.mem_cons_of_mem _ hg)) hok' hrest

/-- **The streams of the test server are received exactly**: by `MbReceiveTcpFrame`
    however they are cut, by `MbRun` if no `recv` returns less than it could. -/
theorem sent_received (frames : List MbFrame) (hsmall : ∀ f ∈ frames, f.data.length ≤ 250)
    (picks : ℕ → ℕ) :
    ReceivedExactly receiveAndParse (sentBytes pad) frames
        ⟨frames.flatMap (sentBytes pad), picks⟩ ∧
      ((∀ i, modbusTcpFrameMaxSize ≤ picks i) →
        ReceivedExactly mbRunReceive (sentBytes pad) frames
          ⟨frames.flatMap (sentBytes pad), picks⟩) := by
  constructor
  · refine receivedExactly_sent (I := fun _ => True) ?_ frames _ hsmall trivial rfl
    intro f rest s harrived _
    obtain ⟨picks', hreceive⟩ := harrived.receiveAndParse_eq
    exact ⟨_, hreceive, rfl, trivial⟩
  · intro hpicks
    refine receivedExactly_sent (I := fun s => ∀ i, modbusTcpFrameMaxSize ≤ s.picks i) ?_ frames _
      hsmall hpicks rfl
    intro f rest s harrived hok
    have hfits := harrived.fits
    exact ⟨_, harrived.mbRunReceive_eq ((Nat.le_of_add_right_le hfits).trans (hok 0))
      ((Nat.le_of_add_left_le hfits).trans (hok 1)), rfl, fun i => hok (i + 2)⟩

end Sent

end Lmalloc.Modbus
