/-
  Lmalloc/Modbus/Inline.lean
  ==========================
  **`MbRun` loses the frames that TCP delivers in pieces.**

  `MbReceiveTcpFrame` calls `recv` until a frame is complete.  The loop of `MbRun`
  has its own receive, with one `recv` for the header and one for the rest; whatever
  is missing then is a reason to reconnect.  The two store the same packets exactly
  if each part of each frame comes in one `recv` and the frames have the size of the
  pipe's packets.

  The streams are those of the test server, which sends no more than 250 data bytes
  in a frame.
-/
import Lmalloc.Modbus.Receive

namespace Lmalloc.Modbus

open Lmalloc.Library

/-! ### Rounds -/

/-- A round of `MbRun` with its last check, `DataLength != Pipe->PacketSize`. -/
def mbRunPacket (packetSize : ℕ) : Receive := fun s =>
  (mbRunReceive s).bind fun r => if r.1.length ≠ packetSize then none else some r

/-- Rounds until one fails: the payloads, and the stream before the round that failed. -/
def Receive.rounds (receive : Receive) : ℕ → ByteStream → List (List UInt8) × ByteStream
  | 0, s => ([], s)
  | n + 1, s =>
      match receive s with
      | none => ([], s)
      | some (data, s') => (data :: (rounds receive n s').1, (rounds receive n s').2)

/-- All rounds on a stream.  Each takes at least a byte, so their number is enough. -/
def Receive.packets (receive : Receive) (s : ByteStream) : List (List UInt8) × ByteStream :=
  receive.rounds s.pending.length s

section Rounds

variable {receive : Receive} {s s' : ByteStream} {data : List UInt8} {n packetSize : ℕ}

theorem rounds_of_none (h : receive s = none) : receive.rounds n s = ([], s) := by
  cases n with
  | zero => rfl
  | succ n => simp only [Receive.rounds, h]

theorem rounds_of_some (h : receive s = some (data, s')) :
    receive.rounds (n + 1) s =
      (data :: (receive.rounds n s').1, (receive.rounds n s').2) := by
  simp only [Receive.rounds, h]

theorem mbRunPacket_eq_some :
    mbRunPacket packetSize s = some (data, s') ↔
      mbRunReceive s = some (data, s') ∧ data.length = packetSize := by
  simp only [mbRunPacket, Option.bind_eq_some_iff]
  constructor
  · rintro ⟨r, hr, hsize⟩
    split at hsize
    · cases hsize
    · next hlength =>
      cases hsize
      exact ⟨hr, not_not.mp hlength⟩
  · rintro ⟨hr, hlength⟩
    exact ⟨_, hr, if_neg (not_not_intro hlength)⟩

theorem taken_of_mbRunPacket (h : mbRunPacket packetSize s = some (data, s')) :
    Taken s data s' :=
  taken_of_mbRunReceive (mbRunPacket_eq_some.mp h).1

/-- **The last round of all of them fails.** -/
theorem rounds_stop (hreceive : ∀ s data s', receive s = some (data, s') → Taken s data s') :
    ∀ (n : ℕ) (s : ByteStream), s.pending.length ≤ n → receive (receive.rounds n s).2 = none := by
  intro n
  induction n with
  | zero =>
    intro s hlength
    cases hround : receive s with
    | none => exact hround
    | some r =>
      have henough := (hreceive s r.1 r.2 hround).enough
      rw [modbusTcpHeaderLen] at henough
      omega
  | succ n ih =>
    intro s hlength
    cases hround : receive s with
    | none =>
      rw [rounds_of_none hround]
      exact hround
    | some r =>
      have htaken := hreceive s r.1 r.2 hround
      have hrest := congrArg List.length htaken.rest
      rw [List.length_drop, modbusTcpHeaderLen] at hrest
      rw [rounds_of_some hround]
      apply ih
      omega

theorem receive_nil (hreceive : ∀ s data s', receive s = some (data, s') → Taken s data s')
    (hs : s.pending = []) : receive s = none := by
  have hstop := rounds_stop hreceive 0 s (by rw [hs, List.length_nil])
  exact hstop

end Rounds

/-! ### A round on a frame -/

/-- The frame has the size of a packet, and each of its parts comes in one `recv`. -/
structure ArrivesWhole (packetSize : ℕ) (f : MbFrame) (headerPick dataPick : ℕ) : Prop where
  size : f.data.length = packetSize
  header : modbusTcpHeaderLen ≤ headerPick
  data : f.length ≤ dataPick

section Round

variable {f : MbFrame} {rest : List UInt8} {s : ByteStream} {pad : UInt8} {packetSize : ℕ}

theorem Arrived.mbRunPacket_eq (h : Arrived pad f rest s)
    (hwhole : ArrivesWhole packetSize f (s.picks 0) (s.picks 1)) :
    mbRunPacket packetSize s = some (f.data, ⟨rest, fun i => s.picks (i + 2)⟩) := by
  have hannounced := announced_of_frame h.pending_eq
  have hdata : announced s ≤ s.picks 1 := by
    rw [hannounced]
    exact hwhole.data
  exact mbRunPacket_eq_some.mpr ⟨h.mbRunReceive_eq hwhole.header hdata, hwhole.size⟩

theorem Arrived.whole_of_mbRunPacket {r : List UInt8 × ByteStream} (h : Arrived pad f rest s)
    (hround : mbRunPacket packetSize s = some r) :
    ArrivesWhole packetSize f (s.picks 0) (s.picks 1) := by
  obtain ⟨hreceive, hsize⟩ := mbRunPacket_eq_some.mp hround
  have hannounced := announced_of_frame h.pending_eq
  have hmany : 1 < announced s := by
    rw [hannounced, MbFrame.length]
    omega
  obtain ⟨hseven, -, hall, -, -⟩ := mbRunReceive_cases hreceive
  have hheader := ByteStream.pick_of_length_recv (by decide) hseven
  have hdata : announced s ≤ s.picks 1 := ByteStream.pick_of_length_recv hmany hall
  refine ⟨?_, hheader, hannounced ▸ hdata⟩
  -- the payload is that of the frame, whoever takes it
  have hpayload := (taken_of_mbRunReceive hreceive).payload_eq
  rw [h.payload_eq] at hpayload
  rw [← hsize, Option.some.inj hpayload]

end Round

/-! ### Runs on the server's frames -/

/-- The `k`-th frame takes the calls `2 * k` and `2 * k + 1`. -/
def EachArrivesWhole (packetSize : ℕ) (frames : List MbFrame) (picks : ℕ → ℕ) : Prop :=
  ∀ (k : ℕ) (f : MbFrame), frames[k]? = some f →
    ArrivesWhole packetSize f (picks (2 * k)) (picks (2 * k + 1))

section Runs

variable {frames : List MbFrame} {f : MbFrame} {fs : List MbFrame} {picks : ℕ → ℕ}
  {packetSize n : ℕ} {pad : UInt8} {s : ByteStream}

theorem eachArrivesWhole_cons :
    EachArrivesWhole packetSize (f :: fs) picks ↔
      ArrivesWhole packetSize f (picks 0) (picks 1) ∧
        EachArrivesWhole packetSize fs (fun i => picks (i + 2)) := by
  constructor
  · intro h
    refine ⟨h 0 f rfl, ?_⟩
    intro k g hg
    exact h (k + 1) g hg
  · rintro ⟨hfirst, hrest⟩ k g hg
    cases k with
    | zero =>
      cases hg
      exact hfirst
    | succ k => exact hrest k g hg

/-- `MbReceiveTcpFrame` and the parser get every payload. -/
theorem rounds_receiveAndParse (hsmall : ∀ f ∈ frames, f.data.length ≤ 250)
    (hn : frames.length ≤ n) (hs : s.pending = frames.flatMap (sentBytes pad)) :
    (receiveAndParse.rounds n s).1 = frames.map MbFrame.data := by
  induction frames generalizing n s with
  | nil =>
    have hnone := receive_nil (fun _ _ _ => taken_of_receiveAndParse) hs
    rw [rounds_of_none hnone]
    rfl
  | cons f fs ih =>
    rw [List.flatMap_cons] at hs
    obtain ⟨picks, hround⟩ := (Arrived.mk (hsmall f (List.mem_cons_self ..)) hs).receiveAndParse_eq
    obtain ⟨m, rfl⟩ : ∃ m, n = m + 1 := Nat.exists_eq_add_one_of_ne_zero (Nat.ne_zero_of_lt hn)
    rw [rounds_of_some hround, List.map_cons]
    have hmore := @ih m ⟨fs.flatMap (sentBytes pad), picks⟩
      (fun g hg => hsmall g (List.mem_cons_of_mem _ hg)) (Nat.le_of_succ_le_succ hn) rfl
    exact congrArg _ hmore

/-- `MbRun` gets every payload of frames that arrive whole, and then there is nothing left. -/
theorem rounds_mbRunPacket (hsmall : ∀ f ∈ frames, f.data.length ≤ 250)
    (hn : frames.length ≤ n) (hs : s.pending = frames.flatMap (sentBytes pad))
    (hwhole : EachArrivesWhole packetSize frames s.picks) :
    ((mbRunPacket packetSize).rounds n s).1 = frames.map MbFrame.data ∧
      ((mbRunPacket packetSize).rounds n s).2.pending = [] := by
  induction frames generalizing n s with
  | nil =>
    have hnone : mbRunPacket packetSize s = none :=
      receive_nil (fun _ _ _ => taken_of_mbRunPacket) hs
    rw [rounds_of_none hnone]
    exact ⟨rfl, hs⟩
  | cons f fs ih =>
    rw [List.flatMap_cons] at hs
    obtain ⟨hfirst, hrest⟩ := eachArrivesWhole_cons.mp hwhole
    have hround := (Arrived.mk (hsmall f (List.mem_cons_self ..)) hs).mbRunPacket_eq hfirst
    obtain ⟨m, rfl⟩ : ∃ m, n = m + 1 := Nat.exists_eq_add_one_of_ne_zero (Nat.ne_zero_of_lt hn)
    rw [rounds_of_some hround, List.map_cons]
    have hmore := @ih m ⟨fs.flatMap (sentBytes pad), fun i => s.picks (i + 2)⟩
      (fun g hg => hsmall g (List.mem_cons_of_mem _ hg)) (Nat.le_of_succ_le_succ hn) rfl hrest
    exact ⟨congrArg _ hmore.1, hmore.2⟩

/-- Who gets every payload has made every call in one piece. -/
theorem eachArrivesWhole_of_rounds (hsmall : ∀ f ∈ frames, f.data.length ≤ 250)
    (hs : s.pending = frames.flatMap (sentBytes pad))
    (hrounds : ((mbRunPacket packetSize).rounds n s).1 = frames.map MbFrame.data) :
    EachArrivesWhole packetSize frames s.picks := by
  induction frames generalizing n s with
  | nil =>
    intro k f hf
    cases hf
  | cons f fs ih =>
    rw [List.flatMap_cons] at hs
    have harrived := Arrived.mk (hsmall f (List.mem_cons_self ..)) hs
    cases n with
    | zero => cases hrounds
    | succ n =>
      cases hround : mbRunPacket packetSize s with
      | none =>
        rw [rounds_of_none hround] at hrounds
        cases hrounds
      | some r =>
        have hfirst := harrived.whole_of_mbRunPacket hround
        have hnext := harrived.mbRunPacket_eq hfirst
        rw [rounds_of_some hnext, List.map_cons] at hrounds
        have hrest := @ih n ⟨fs.flatMap (sentBytes pad), fun i => s.picks (i + 2)⟩
          (fun g hg => hsmall g (List.mem_cons_of_mem _ hg)) rfl (List.cons.inj hrounds).2
        exact eachArrivesWhole_cons.mpr ⟨hfirst, hrest⟩

/-- `MbRun` on one splitting of a stream and the helper on another store the same
    packets, and `MbRun` does not reconnect while there are bytes to come. -/
structure Agrees (packetSize : ℕ) (s t : ByteStream) : Prop where
  packets : ((mbRunPacket packetSize).packets s).1 = (receiveAndParse.packets t).1
  noReconnect : ((mbRunPacket packetSize).packets s).2.pending = []

theorem length_le_sent (pad : UInt8) (frames : List MbFrame) :
    frames.length ≤ (frames.flatMap (sentBytes pad)).length := by
  induction frames with
  | nil => exact Nat.le_refl 0
  | cons f fs ih =>
    rw [List.flatMap_cons, List.length_append, List.length_cons, sentBytes, List.length_append,
      List.length_singleton]
    omega

/-- **The inline receive agrees with the helper exactly if every part comes in one
    piece.** -/
theorem mbRun_agrees_iff (frames : List MbFrame) (hsmall : ∀ f ∈ frames, f.data.length ≤ 250)
    (pad : UInt8) (packetSize : ℕ) (picks picks' : ℕ → ℕ) :
    Agrees packetSize ⟨frames.flatMap (sentBytes pad), picks⟩
        ⟨frames.flatMap (sentBytes pad), picks'⟩ ↔
      EachArrivesWhole packetSize frames picks := by
  have hn := length_le_sent pad frames
  have hhelper : (receiveAndParse.packets ⟨frames.flatMap (sentBytes pad), picks'⟩).1 =
      frames.map MbFrame.data := rounds_receiveAndParse hsmall hn rfl
  constructor
  · intro h
    have hrounds := h.packets.trans hhelper
    exact eachArrivesWhole_of_rounds hsmall rfl hrounds
  · intro hwhole
    have hmbRun := @rounds_mbRunPacket frames packetSize _ pad
      ⟨frames.flatMap (sentBytes pad), picks⟩ hsmall hn rfl hwhole
    exact ⟨hmbRun.1.trans hhelper.symm, hmbRun.2⟩

/-- Two frames of one data byte, each call returning all it is asked for. -/
theorem mbRun_agrees_iff_two :
    Agrees 1 ⟨[oneByte, oneByte].flatMap (sentBytes 0), fun _ => 260⟩
      ⟨[oneByte, oneByte].flatMap (sentBytes 0), fun _ => 1⟩ := by
  refine (mbRun_agrees_iff [oneByte, oneByte] (by decide) 0 1 (fun _ => 260) (fun _ => 1)).mpr ?_
  apply eachArrivesWhole_cons.mpr
  refine ⟨⟨rfl, by decide, by decide⟩, eachArrivesWhole_cons.mpr ⟨⟨rfl, by decide, by decide⟩, ?_⟩⟩
  intro k f hf
  cases hf

/-- **One frame whose header comes in pieces of three bytes.**  The helper gets its
    payload; `MbRun` gets nothing and reconnects with eleven bytes to come. -/
theorem split_header_reconnects :
    (∀ picks', ¬ Agrees 1 ⟨sentBytes 0 oneByte, fun _ => 3⟩ ⟨sentBytes 0 oneByte, picks'⟩) ∧
      (mbRunPacket 1).packets ⟨sentBytes 0 oneByte, fun _ => 3⟩ =
        ([], ⟨sentBytes 0 oneByte, fun _ => 3⟩) ∧
      ∀ picks', (receiveAndParse.packets ⟨sentBytes 0 oneByte, picks'⟩).1 = [oneByte.data] := by
  have hnone : mbRunPacket 1 ⟨sentBytes 0 oneByte, fun _ => 3⟩ = none := rfl
  have hmbRun : (mbRunPacket 1).packets ⟨sentBytes 0 oneByte, fun _ => 3⟩ =
      ([], ⟨sentBytes 0 oneByte, fun _ => 3⟩) := rounds_of_none hnone
  refine ⟨?_, hmbRun, ?_⟩
  · intro picks' h
    have hleft := h.noReconnect
    rw [hmbRun] at hleft
    cases hleft
  · intro picks'
    have hsmall : ∀ f ∈ [oneByte], f.data.length ≤ 250 := by decide
    have hlength : (sentBytes 0 oneByte).length = 11 := rfl
    exact rounds_receiveAndParse hsmall (by rw [hlength]; decide) (List.flatMap_singleton ..).symm

end Runs

end Lmalloc.Modbus
