/-
# Standard PTP/IP framing

A packet is a `u32` total length (header included), a `u32` packet type and
the body. `PtpIpPacket.decode` checks the declared length against the number
of bytes it was given before it looks at the type, so the packets are jointly
unambiguous under the one length word: the bytes of one accepted packet are
never a proper prefix of the bytes of another (`decode_prefixFree`), whatever
their kinds. With the round trip of the thirteen bodies this makes the
encoding exact (`packet_roundTrip_exact`).
-/
import Ptpsim.Core.Codes
import Ptpsim.Core.Container

namespace Ptpsim.Core

open Codec

/-- One PTP/IP packet in the standard framing. -/
inductive PtpIpPacket where
  | initCommandRequest (p : InitCommandRequest)
  | initCommandAck (p : InitCommandAck)
  | initEventRequest (p : InitEventRequest)
  | initEventAck (p : InitEventAck)
  | initFail (p : InitFail)
  | operationRequest (p : OperationRequest)
  | operationResponse (p : OperationResponse)
  | event (p : EventPacket)
  | startData (p : StartData)
  | data (p : DataBlock)
  | endData (p : DataBlock)
  | probeRequest (p : ProbeRequest)
  | probeResponse (p : ProbeResponse)
deriving DecidableEq, Repr

namespace PtpIpPacket

def packetType : PtpIpPacket → PacketType
  | initCommandRequest _ => .initCommandRequest
  | initCommandAck _ => .initCommandAck
  | initEventRequest _ => .initEventRequest
  | initEventAck _ => .initEventAck
  | initFail _ => .initFail
  | operationRequest _ => .operationRequest
  | operationResponse _ => .operationResponse
  | event _ => .event
  | startData _ => .startData
  | data _ => .data
  | endData _ => .endData
  | probeRequest _ => .probeRequest
  | probeResponse _ => .probeResponse

def encodeBody : PtpIpPacket → Encoder
  | initCommandRequest p => p.encodeBody
  | initCommandAck p => p.encodeBody
  | initEventRequest p => p.encodeBody
  | initEventAck p => p.encodeBody
  | initFail p => p.encodeBody
  | operationRequest p => p.encodeBody
  | operationResponse p => p.encodeBody
  | event p => p.encodeBody
  | startData p => p.encodeBody
  | data p => p.encodeBody
  | endData p => p.encodeBody
  | probeRequest p => p.encodeBody
  | probeResponse p => p.encodeBody

/-- The body decoder `decode` selects by the packet type. The `Cancel` tag is
known but has no packet, and is refused like an unknown one. -/
def decodeBody : PacketType → Decoder PtpIpPacket
  | .initCommandRequest => initCommandRequest <$> InitCommandRequest.decodeBody
  | .initCommandAck => initCommandAck <$> InitCommandAck.decodeBody
  | .initEventRequest => initEventRequest <$> InitEventRequest.decodeBody
  | .initEventAck => initEventAck <$> InitEventAck.decodeBody
  | .initFail => initFail <$> InitFail.decodeBody
  | .operationRequest => operationRequest <$> OperationRequest.decodeBody
  | .operationResponse => operationResponse <$> OperationResponse.decodeBody
  | .event => event <$> EventPacket.decodeBody
  | .startData => startData <$> StartData.decodeBody
  | .data => data <$> DataBlock.decodeBody
  | .cancel => throw (.unknownPacketType PacketType.cancel.toU32)
  | .endData => endData <$> DataBlock.decodeBody
  | .probeRequest => probeRequest <$> ProbeRequest.decodeBody
  | .probeResponse => probeResponse <$> ProbeResponse.decodeBody

/-- The body of `decode` after the two header words are read. -/
def decodePayload (length typeRaw : UInt32) (actual : ℕ) : Decoder PtpIpPacket :=
  if length.toNat ≠ actual then throw (.lengthMismatch length.toNat actual)
  else
    match PacketType.fromU32 typeRaw with
    | none => throw (.unknownPacketType typeRaw)
    | some ptype => do
      let packet ← decodeBody ptype
      Reader.finish
      pure packet

/-- The packet of one whole frame. -/
def decode (bytes : List UInt8) : Except DecodeError PtpIpPacket :=
  StateT.run' (do
    let length ← Reader.u32
    let typeRaw ← Reader.u32
    decodePayload length typeRaw bytes.length) (Reader.new bytes)

/-- Header with a length placeholder, then the body. -/
def encodeUnpatched (p : PtpIpPacket) : Encoder := do
  Writer.u32 0
  Writer.u32 p.packetType.toU32
  p.encodeBody

/-- Appends the packet to `out`; a failure leaves `out` as it was. -/
def encode (p : PtpIpPacket) : Encoder := fun out =>
  match p.encodeUnpatched [] with
  | .ok () w => .ok () (out ++ Writer.patchU32 0 (UInt32.ofNat w.length) w)
  | .error e _ => .error e out

end PtpIpPacket

/-- Encode to a fresh `Vec`. -/
def Framing.encode (p : PtpIpPacket) : Except EncodeError (List UInt8) := Writer.intoVec p.encode

/-! ### The body is read back -/

/-- Whatever the kind, the decoder chosen by the packet's own type undoes the
packet's body encoder. -/
theorem PtpIpPacket.roundTripsToEnd : ∀ p : PtpIpPacket,
    RoundTripsToEnd Reader.unread p.encodeBody (decodeBody p.packetType) p
  | initCommandRequest p => p.roundTripsToEnd.map initCommandRequest
  | initCommandAck p => p.roundTripsToEnd.map initCommandAck
  | initEventRequest p => p.roundTripsToEnd.map initEventRequest
  | initEventAck p => (roundTripsToEnd_empty p).map initEventAck
  | initFail p => p.roundTripsToEnd.map initFail
  | operationRequest p => p.roundTripsToEnd.map operationRequest
  | operationResponse p => p.roundTripsToEnd.map operationResponse
  | event p => p.roundTripsToEnd.map event
  | startData p => p.roundTripsToEnd.map startData
  | data p => p.roundTripsToEnd.map data
  | endData p => p.roundTripsToEnd.map endData
  | probeRequest p => (roundTripsToEnd_empty p).map probeRequest
  | probeResponse p => (roundTripsToEnd_empty p).map probeResponse

variable {p : PtpIpPacket} {bs : List UInt8}

/-- What `encode` produced: the header words of this packet, then a body that
its decoder reads to the end. -/
theorem PtpIpPacket.encode_ok (h : Framing.encode p = .ok bs) :
    ∃ body, bs = leBytes 4 (UInt32.ofNat bs.length).toNat ++
        (leBytes 4 p.packetType.toU32.toNat ++ body) ∧
      Exhausts Reader.unread (decodeBody p.packetType) body p := by
  have h := Writer.intoVec_ok h
  unfold PtpIpPacket.encode at h
  cases hw : p.encodeUnpatched [] with
  | error e w => simp [hw] at h
  | ok u w =>
    simp only [hw, List.nil_append, EStateM.Result.ok.injEq, true_and] at h
    obtain ⟨w₁, h₁, hw₁⟩ := bind_write_ok hw
    obtain ⟨w₂, h₂, hw₂⟩ := bind_write_ok hw₁
    cases h₁
    cases h₂
    obtain ⟨body, rfl, hb⟩ := p.roundTripsToEnd _ w hw₂
    -- the four placeholder bytes are what `patchU32` replaces
    refine ⟨body, ?_, hb⟩
    rw [← h]
    congr 3

theorem PtpIpPacket.decode_encode (h : Framing.encode p = .ok bs) (hlen : bs.length < 2 ^ 32) :
    decode bs = .ok p := by
  obtain ⟨body, hbs, hb⟩ := encode_ok h
  have hd : (UInt32.ofNat bs.length).toNat = bs.length := by
    rw [UInt32.toNat_ofNat', Nat.mod_eq_of_lt hlen]
  have hpay : Exhausts Reader.unread
      (decodePayload (UInt32.ofNat bs.length) p.packetType.toU32 bs.length) body p := by
    unfold decodePayload
    rw [if_neg (by simp only [hd, ne_eq, not_true_eq_false, not_false_eq_true])]
    rw [PacketType.fromU32_toU32]
    intro r hr
    obtain ⟨r', h₁, hr'⟩ := hb r hr
    refine ⟨r', ?_, hr'⟩
    simp only [bind_apply, h₁, finish_unread_nil hr']
    rfl
  have hall := (consumes_u32 _).bindToEnd ((consumes_u32 p.packetType.toU32).bindToEnd hpay)
    (f := fun length => do
      let typeRaw ← Reader.u32
      decodePayload length typeRaw bs.length)
  obtain ⟨r', hr', -⟩ := hall (Reader.new bs) hbs
  exact run'_of_ok hr'

/-! ### No packet is a prefix of another -/

theorem PtpIpPacket.decode_ok_length (h : decode bs = .ok p) :
    4 ≤ bs.length ∧ leNat (bs.take 4) = bs.length := by
  obtain ⟨r, hr⟩ := run'_ok h
  obtain ⟨length, r₁, h₁, hr₁⟩ := bind_ok hr
  obtain ⟨typeRaw, r₂, -, hr₂⟩ := bind_ok hr₁
  obtain ⟨h4, hl, -⟩ := Reader.u32_ok h₁
  refine ⟨h4, ?_⟩
  by_contra hne
  unfold decodePayload at hr₂
  rw [if_pos (by rw [hl]; exact hne)] at hr₂
  cases hr₂

/-- Of two accepted packets neither is a proper prefix of the other: they
share the length word. -/
theorem decode_prefixFree : PrefixFree PtpIpPacket.decode := by
  intro xs ys p q hpre hx hy
  obtain ⟨hx4, hxl⟩ := PtpIpPacket.decode_ok_length hx
  obtain ⟨-, hyl⟩ := PtpIpPacket.decode_ok_length hy
  obtain ⟨tail, rfl⟩ := hpre
  rw [List.take_append_of_le_length hx4, hxl, List.length_append] at hyl
  have : tail = [] := List.length_eq_zero_iff.mp (by omega)
  rw [this, List.append_nil]

/-- A packet that encodes to fewer than `2 ^ 32` bytes is decoded from
exactly those bytes: every proper prefix and every proper extension is an
error. -/
theorem packet_roundTrip_exact (p : PtpIpPacket) (bs : List UInt8)
    (h : Framing.encode p = .ok bs) (hlen : bs.length < 2 ^ 32) :
    Exact PtpIpPacket.decode bs p :=
  Exact.of_prefixFree decode_prefixFree (PtpIpPacket.decode_encode h hlen)

/-- `GetDeviceInfo` as an operation request without parameters. -/
theorem packet_roundTrip_exact_getDeviceInfo :
    PtpIpPacket.decode [18, 0, 0, 0, 6, 0, 0, 0, 1, 0, 0, 0, 1, 0x10, 7, 0, 0, 0] =
      .ok (.operationRequest ⟨1, Op.getDeviceInfo, 7, []⟩) :=
  (packet_roundTrip_exact (.operationRequest ⟨1, Op.getDeviceInfo, 7, []⟩)
    [18, 0, 0, 0, 6, 0, 0, 0, 1, 0, 0, 0, 1, 0x10, 7, 0, 0, 0] (by decide) (by decide)).1

end Ptpsim.Core
