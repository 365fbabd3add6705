/-
# The frames of a command channel

A command channel speaks one of three framings. Whichever it is, a packet that
is decoded from some bytes is decoded from a whole length-prefixed frame
(`isFrame_of_decode`), so a stream of frames is cut where its packets begin.
A data phase is one frame, or two in the standard framing, and its payload is
twelve bytes shorter than the frame that carries it (`length_of_payload`);
what does not fit into a frame with a 32-bit length word is in no frame.
-/
import Ptpsim.Lib.LengthPrefixed
import Ptpsim.Primitives.ContainerFraming
import Ptpsim.Sim.Fault
import Ptpsim.Store.MediaStore

namespace Ptpsim.Service

open Codec Ptpsim.Core Primitives LengthPrefixed List PtpIpPacket
open Sim (WireFraming)

/-- Why nothing more is written to the channel: an error, or a panic where a
length does not fit. -/
inductive WireError where
  | encode (e : EncodeError)
  | framing (e : FramingError)
  | media (e : Store.MediaError)
  | io (message : String)
  | panicked
deriving DecidableEq

def decodeCommandFrame : WireFraming → List UInt8 → Except DecodeError PtpIpPacket
  | .standard => PtpIpPacket.decode
  | .compressed => FujiFraming.decode
  | .usb => UsbPtp.decode

variable (framing : WireFraming)

def encodeControlFrame (packet : PtpIpPacket) : Except WireError (List UInt8) :=
  match framing with
  | .standard => (Framing.encode packet).mapError .encode
  | .compressed => (FujiFraming.encode packet).mapError .framing
  | .usb => (UsbPtp.encode packet).mapError .framing

/-- A data phase at once: StartData and EndData, or one data container. -/
def encodeDataFrame (op : UInt16) (transactionId : UInt32) (payload : List UInt8) :
    Except WireError (List UInt8) :=
  match framing with
  | .standard => do
    let start ← (Framing.encode (.startData
      ⟨transactionId, UInt64.ofNat payload.length⟩)).mapError .encode
    let last ← (Framing.encode (.endData ⟨transactionId, payload⟩)).mapError .encode
    pure (start ++ last)
  | .compressed =>
    match FujiFraming.encodeData op transactionId payload with
    | some bytes => .ok bytes
    | none => .error .panicked
  | .usb => .ok (UsbPtp.encodeData op transactionId payload)

/-- The packets of a data phase. -/
def dataPhase (transactionId : UInt32) (payload : List UInt8) : List PtpIpPacket :=
  match framing with
  | .standard => [.startData ⟨transactionId, UInt64.ofNat payload.length⟩,
      .endData ⟨transactionId, payload⟩]
  | .compressed | .usb => [.data ⟨transactionId, payload⟩]

/-- The frames carry the packets, one each. -/
def CarryPackets (frames : List (List UInt8)) (packets : List PtpIpPacket) : Prop :=
  frames.map (decodeCommandFrame framing) = packets.map .ok

/-! ### A packet is a whole frame -/

variable {p : PtpIpPacket} {framing : WireFraming} {packets : List PtpIpPacket} {block : DataBlock}
  {tid : UInt32} {payload : List UInt8} {bytes : List UInt8} {frames : List (List UInt8)}

theorem standard_decode_ok (h : decode bytes = .ok p) :
    ∃ type r r', decodeBody type r = .ok (p, r') ∧
      bytes.length = 8 + r.unread.length ∧ r'.unread = [] := by
  obtain ⟨r, hr⟩ := run'_ok h
  obtain ⟨length, r₁, h₁, hr₁⟩ := bind_ok hr
  obtain ⟨typeRaw, r₂, h₂, hr₂⟩ := bind_ok hr₁
  have hlen₁ := spends_u32 _ _ _ h₁
  have hlen₂ := spends_u32 _ _ _ h₂
  rw [Reader.unread_new] at hlen₁
  unfold decodePayload at hr₂
  split at hr₂
  · cases hr₂
  · rcases ht : PacketType.fromU32 typeRaw with _ | type
    · rw [ht] at hr₂
      cases hr₂
    · rw [ht] at hr₂
      obtain ⟨packet, r₃, h₃, hr₃⟩ := bind_ok hr₂
      obtain ⟨_, r₄, h₄, hr₄⟩ := bind_ok hr₃
      cases hr₄
      exact ⟨type, r₂, r₃, h₃, by omega, ((Reader.finish_ok_iff _ _).mp h₄).1⟩

theorem container_decode_ok {body : UInt16 → UInt16 → UInt32 → Decoder PtpIpPacket}
    (h : decodeFrame body bytes = .ok p) :
    (∃ type code tid r r', body type code tid r = .ok (p, r') ∧
      bytes.length = 12 + r.unread.length) ∧ leNat (bytes.take 4) = bytes.length := by
  obtain ⟨r, hr⟩ := run'_ok h
  obtain ⟨length, r₁, h₁, hr₁⟩ := bind_ok hr
  obtain ⟨-, hl, -⟩ := Reader.u32_ok h₁
  have hlen₁ := spends_u32 _ _ _ h₁
  rw [Reader.unread_new] at hlen₁ hl
  unfold decodeContents at hr₁
  split at hr₁
  · cases hr₁
  · rename_i hd
    obtain ⟨type, r₂, h₂, hr₂⟩ := bind_ok hr₁
    obtain ⟨code, r₃, h₃, hr₃⟩ := bind_ok hr₂
    obtain ⟨tid, r₄, h₄, hr₄⟩ := bind_ok hr₃
    obtain ⟨packet, r₅, h₅, hr₅⟩ := bind_ok hr₄
    obtain ⟨_, r₆, -, hr₆⟩ := bind_ok hr₅
    cases hr₆
    have hlen₂ := spends_u16 _ _ _ h₂
    have hlen₃ := spends_u16 _ _ _ h₃
    have hlen₄ := spends_u32 _ _ _ h₄
    refine ⟨⟨type, code, tid, r₄, r₅, h₅, by omega⟩, ?_⟩
    rw [← hl]
    exact not_not.mp hd

theorem word_lt (bytes : List UInt8) : declared bytes < 2 ^ 32 := by
  have hle : (bytes.take 4).length ≤ 4 := length_take_le 4 bytes
  calc declared bytes < 256 ^ (bytes.take 4).length := leNat_lt _
    _ ≤ 256 ^ 4 := Nat.pow_le_pow_right (by omega) hle
    _ = 2 ^ 32 := by norm_num

/-- What a packet is decoded from is a frame. -/
theorem isFrame_of_decode (h : decodeCommandFrame framing bytes = .ok p) :
    IsFrame (2 ^ 32) bytes := by
  have hf : 8 ≤ bytes.length ∧ leNat (bytes.take 4) = bytes.length := by
    match framing with
    | .standard =>
      obtain ⟨_, r, _, -, hlen, -⟩ := standard_decode_ok h
      exact ⟨by omega, (decode_ok_length h).2⟩
    | .compressed | .usb =>
      obtain ⟨⟨_, _, _, r, _, -, hlen⟩, hw⟩ := container_decode_ok h
      exact ⟨by omega, hw⟩
  have hlt := word_lt bytes
  have hd : declared bytes = bytes.length := hf.2
  exact ⟨⟨by omega, by omega⟩, hd.symm⟩

theorem CarryPackets.split_flatten (h : CarryPackets framing frames packets) :
    split (2 ^ 32) frames.flatten = (frames, .closed) := by
  apply LengthPrefixed.split_flatten
  intro frame hmem
  have hmem' : decodeCommandFrame framing frame ∈ packets.map Except.ok := by
    rw [← h]
    exact mem_map_of_mem hmem
  obtain ⟨p, -, hp⟩ := mem_map.mp hmem'
  exact isFrame_of_decode hp.symm

theorem CarryPackets.append {frames' : List (List UInt8)} {packets' : List PtpIpPacket}
    (h : CarryPackets framing frames packets) (h' : CarryPackets framing frames' packets') :
    CarryPackets framing (frames ++ frames') (packets ++ packets') := by
  unfold CarryPackets at *
  rw [map_append, map_append, h, h']

/-! ### The payload of a frame -/

theorem dataBlock_length {r r' : Reader} (h : DataBlock.decodeBody r = .ok (block, r')) :
    r.unread.length = 4 + block.payload.length := by
  obtain ⟨tid, r₁, h₁, hr₁⟩ := bind_ok h
  obtain ⟨payload, r₂, h₂, hr₂⟩ := bind_ok hr₁
  have hlen := spends_u32 _ _ _ h₁
  cases hr₂
  cases h₂
  exact hlen

theorem startData_length {start : StartData} (h : decode bytes = .ok (.startData start)) :
    bytes.length = 20 := by
  obtain ⟨type, r, r', hb, hlen, hend⟩ := standard_decode_ok h
  cases type with
  | startData =>
    obtain ⟨u, hu, -⟩ := map_ok hb
    obtain ⟨tid, r₁, h₁, hr₁⟩ := bind_ok hu
    obtain ⟨total, r₂, h₂, hr₂⟩ := bind_ok hr₁
    cases hr₂
    have hlen₁ := spends_u32 _ _ _ h₁
    have hlen₂ := spends_u64 _ _ _ h₂
    rw [hend, length_nil] at hlen₂
    omega
  | cancel => cases hb
  | _ =>
    obtain ⟨u, -, hv⟩ := map_ok hb
    cases hv

theorem endData_length (h : decode bytes = .ok (.endData block)) :
    bytes.length = 12 + block.payload.length := by
  obtain ⟨type, r, r', hb, hlen, -⟩ := standard_decode_ok h
  cases type with
  | endData =>
    obtain ⟨u, hu, hv⟩ := map_ok hb
    cases hv
    have := dataBlock_length hu
    omega
  | cancel => cases hb
  | _ =>
    obtain ⟨u, -, hv⟩ := map_ok hb
    cases hv

theorem container_body_cases {type code : UInt16} {r r' : Reader}
    (h : UsbPtp.decodeBody type code tid r = .ok (p, r') ∨
      FujiFraming.decodeBody type code tid r = .ok (p, r')) :
    (∃ q, p = .operationRequest q) ∨ (∃ q, p = .operationResponse q) ∨ (∃ q, p = .event q) ∨
      dataBody tid r = .ok (p, r') := by
  have hp : ∀ g : List UInt32 → PtpIpPacket,
      (do let params ← remainingParams; pure (g params)) r = .ok (p, r') →
        ∃ params, p = g params := by
    intro g hg
    obtain ⟨params, r₁, -, hr₁⟩ := bind_ok hg
    have hpa : (g params, r₁) = (p, r') := Except.ok.inj hr₁
    exact ⟨params, (congrArg Prod.fst hpa).symm⟩
  have hr : requestBody code tid r = .ok (p, r') → ∃ q, p = .operationRequest q := fun h => by
    obtain ⟨params, rfl⟩ := hp _ h
    exact ⟨_, rfl⟩
  have hre : responseBody code tid r = .ok (p, r') → ∃ q, p = .operationResponse q :=
    fun h => by
      obtain ⟨params, rfl⟩ := hp _ h
      exact ⟨_, rfl⟩
  have he : eventBody code tid r = .ok (p, r') → ∃ q, p = .event q := fun h => by
    obtain ⟨params, rfl⟩ := hp _ h
    exact ⟨_, rfl⟩
  unfold UsbPtp.decodeBody FujiFraming.decodeBody at h
  rcases h with h | h
  · split_ifs at h
    · exact .inl (hr h)
    · exact .inr (.inl (hre h))
    · exact .inr (.inr (.inl (he h)))
    · exact .inr (.inr (.inr h))
    · cases h
  · split_ifs at h
    · exact .inl (hr h)
    · exact .inr (.inl (hre h))
    · exact .inr (.inr (.inr h))
    · cases h

theorem container_packet_cases (hf : framing ≠ .standard)
    (h : decodeCommandFrame framing bytes = .ok p) :
    (∃ q, p = .operationRequest q) ∨ (∃ q, p = .operationResponse q) ∨ (∃ q, p = .event q) ∨
      ∃ block, p = .data block ∧ bytes.length = 12 + block.payload.length := by
  have hb : ∃ type code tid r r', (UsbPtp.decodeBody type code tid r = .ok (p, r') ∨
      FujiFraming.decodeBody type code tid r = .ok (p, r')) ∧
      bytes.length = 12 + r.unread.length := by
    match framing with
    | .compressed =>
      obtain ⟨⟨type, code, tid, r, r', hr, hlen⟩, -⟩ := container_decode_ok h
      exact ⟨type, code, tid, r, r', .inr hr, hlen⟩
    | .usb =>
      obtain ⟨⟨type, code, tid, r, r', hr, hlen⟩, -⟩ := container_decode_ok h
      exact ⟨type, code, tid, r, r', .inl hr, hlen⟩
    | .standard => exact absurd rfl hf
  obtain ⟨type, code, tid, r, r', hr, hlen⟩ := hb
  rcases container_body_cases hr with hreq | hre | he | hd
  · exact .inl hreq
  · exact .inr (.inl hre)
  · exact .inr (.inr (.inl he))
  · cases hd
    exact .inr (.inr (.inr ⟨_, rfl, hlen⟩))

theorem container_data_length (hf : framing ≠ .standard)
    (h : decodeCommandFrame framing bytes = .ok (.data block)) :
    bytes.length = 12 + block.payload.length := by
  rcases container_packet_cases hf h with ⟨_, hq⟩ | ⟨_, hq⟩ | ⟨_, hq⟩ | ⟨_, hq, hlen⟩
  · cases hq
  · cases hq
  · cases hq
  · cases hq
    exact hlen

/-- **A payload that is carried fits its frame.** -/
theorem length_of_payload
    (h : CarryPackets framing frames (dataPhase framing tid payload ++ packets)) :
    12 + payload.length < 2 ^ 32 := by
  have hf : ∃ bytes : List UInt8, bytes.length = 12 + payload.length ∧
      ∃ p, decodeCommandFrame framing bytes = .ok p := by
    match framing with
    | .standard =>
      obtain ⟨start, rest, rfl, -, hr⟩ := map_eq_cons_iff.mp h
      obtain ⟨last, rest', rfl, hl, -⟩ := map_eq_cons_iff.mp hr
      exact ⟨last, endData_length hl, _, hl⟩
    | .compressed | .usb =>
      obtain ⟨bytes, rest, rfl, hd, -⟩ := map_eq_cons_iff.mp h
      exact ⟨bytes, container_data_length (by simp) hd, _, hd⟩
  obtain ⟨bytes, hlen, p, hp⟩ := hf
  have hde := (isFrame_of_decode hp).length_eq
  have hlt := word_lt bytes
  omega

/-! ### What the encoders write -/

/-- The bytes of StartData. -/
def startDataBytes (tid : UInt32) (total : UInt64) : List UInt8 :=
  leBytes 4 20 ++ (leBytes 4 9 ++ (leBytes 4 tid.toNat ++ leBytes 8 total.toNat))

/-- The bytes of EndData. -/
def endDataBytes (tid : UInt32) (payload : List UInt8) : List UInt8 :=
  leBytes 4 (UInt32.ofNat (12 + payload.length)).toNat ++
    (leBytes 4 12 ++ (leBytes 4 tid.toNat ++ payload))

theorem encode_startData (tid : UInt32) (total : UInt64) :
    Framing.encode (.startData ⟨tid, total⟩) = .ok (startDataBytes tid total) := rfl

variable (tid payload) in
theorem encode_endData :
    Framing.encode (.endData ⟨tid, payload⟩) = .ok (endDataBytes tid payload) := by
  have hw : (endData ⟨tid, payload⟩).encodeUnpatched [] =
      .ok () (leBytes 4 (0 : UInt32).toNat ++ leBytes 4 12 ++ leBytes 4 tid.toNat ++ payload) := rfl
  have hlen : (leBytes 4 (0 : UInt32).toNat ++ leBytes 4 12 ++ leBytes 4 tid.toNat ++
      payload).length = 12 + payload.length := by
    simp only [length_append, length_leBytes]
  unfold Framing.encode Writer.intoVec encode
  rw [hw]
  dsimp only
  rw [hlen, nil_append]
  simp only [append_assoc, patchU32_placeholder, endDataBytes]

theorem writeAll_params (params : List UInt32) (w : Writer) :
    ∃ body, writeAll Writer.u32 params w = .ok () (w ++ body) ∧
      body.length = 4 * params.length := by
  obtain ⟨w', hw⟩ := Succeeds.writeAll params (fun p _ => Writer.succeeds_word 4 p.toNat) w
  obtain ⟨body, rfl, -⟩ := roundTripsToEnd_params params w w' hw
  have hlen := length_writeAll length_writeU32 params w _ hw
  rw [length_append] at hlen
  exact ⟨body, hw, by omega⟩

theorem length_patched_control (type code : UInt16) (tid : UInt32) (params : List UInt32) :
    (lengthPatched (control type code tid params)).length = 12 + 4 * params.length := by
  obtain ⟨body, hw, hlen⟩ := writeAll_params params (leBytes 4 (0 : UInt32).toNat ++
    leBytes 2 type.toNat ++ leBytes 2 code.toNat ++ leBytes 4 tid.toNat)
  have hrun : control type code tid params [] = .ok () (leBytes 4 (0 : UInt32).toNat ++
      leBytes 2 type.toNat ++ leBytes 2 code.toNat ++ leBytes 4 tid.toNat ++ body) := hw
  unfold lengthPatched
  rw [hrun]
  simp only [append_assoc, patchU32_placeholder, length_append, length_leBytes, hlen]
  omega

theorem encode_operationResponse (r : OperationResponse) :
    ∃ bytes, Framing.encode (.operationResponse r) = .ok bytes ∧
      bytes.length = 14 + 4 * r.params.length := by
  obtain ⟨body, hw, hlen⟩ := writeAll_params r.params (leBytes 4 (0 : UInt32).toNat ++
    leBytes 4 7 ++ leBytes 2 r.code.toNat ++ leBytes 4 r.transactionId.toNat)
  have hwr : (operationResponse r).encodeUnpatched [] =
      .ok () (leBytes 4 (0 : UInt32).toNat ++ leBytes 4 7 ++ leBytes 2 r.code.toNat ++
        leBytes 4 r.transactionId.toNat ++ body) := hw
  unfold Framing.encode Writer.intoVec encode
  rw [hwr]
  refine ⟨_, rfl, ?_⟩
  simp only [append_assoc, patchU32_placeholder, nil_append, length_append, length_leBytes, hlen]
  omega

/-- A response is written as a frame that is read back, if it has few enough
parameters. -/
theorem encodeControlFrame_response (framing : WireFraming) {r : OperationResponse}
    (hp : r.params.length ≤ 5) :
    ∃ bytes, encodeControlFrame framing (.operationResponse r) = .ok bytes ∧
      decodeCommandFrame framing bytes = .ok (.operationResponse r) := by
  match framing with
  | .standard =>
    obtain ⟨bytes, hb, hlen⟩ := encode_operationResponse r
    refine ⟨bytes, ?_, decode_encode hb (by omega)⟩
    rw [encodeControlFrame, hb]
    rfl
  | .compressed =>
    have hlen := length_patched_control FujiFraming.opResponse r.code r.transactionId r.params
    have hd := FujiFraming.decode_encode (p := .operationResponse r) rfl (by omega)
    exact ⟨_, rfl, hd⟩
  | .usb =>
    have hlen := length_patched_control UsbPtp.response r.code r.transactionId r.params
    have hd := UsbPtp.decode_encode (p := .operationResponse r) rfl (by omega)
    exact ⟨_, rfl, hd⟩

/-- The encoder of a data phase only ever fails by panicking. -/
theorem encodeDataFrame_error {op : UInt16} {e : WireError}
    (h : encodeDataFrame framing op tid payload = .error e) :
    e = .panicked := by
  match framing with
  | .standard =>
    cases h
  | .compressed =>
    rw [encodeDataFrame] at h
    split at h
    · cases h
    · exact (Except.error.inj h).symm
  | .usb => cases h

/-- The frames of a data phase. -/
def dataFrames (framing : WireFraming) (op : UInt16) (tid : UInt32) (payload : List UInt8) :
    List (List UInt8) :=
  match framing with
  | .standard => [startDataBytes tid (UInt64.ofNat payload.length), endDataBytes tid payload]
  | .compressed | .usb => [UsbPtp.encodeData op tid payload]

/-- **A data phase that fits is carried by its frames.** -/
theorem dataFrames_carries (framing : WireFraming) (op : UInt16) (tid : UInt32)
    (hf : 12 + payload.length < 2 ^ 32) :
    CarryPackets framing (dataFrames framing op tid payload) (dataPhase framing tid payload) := by
  match framing with
  | .standard =>
    have hs := decode_encode
      (encode_startData tid (UInt64.ofNat payload.length)) (by simp [startDataBytes])
    have hl := decode_encode (encode_endData tid payload) (by
      simp only [endDataBytes, length_append, length_leBytes]
      omega)
    simp only [CarryPackets, dataFrames, map_cons, map_nil, decodeCommandFrame, dataPhase, hs, hl]
  | .compressed =>
    have hd : FujiFraming.decode (UsbPtp.encodeData op tid payload) = .ok (.data ⟨tid, payload⟩) :=
      decodeFrame_data rfl hf
    simp only [CarryPackets, dataFrames, map_cons, map_nil, decodeCommandFrame, hd, dataPhase]
  | .usb =>
    have hd : UsbPtp.decode (UsbPtp.encodeData op tid payload) = .ok (.data ⟨tid, payload⟩) :=
      decodeFrame_data rfl hf
    simp only [CarryPackets, dataFrames, map_cons, map_nil, decodeCommandFrame, hd, dataPhase]

theorem encodeDataFrame_fits (framing : WireFraming) (op : UInt16) (tid : UInt32)
    (hf : 12 + payload.length < 2 ^ 32) :
    encodeDataFrame framing op tid payload = .ok (dataFrames framing op tid payload).flatten := by
  match framing with
  | .standard =>
    rw [encodeDataFrame, encode_startData, encode_endData, dataFrames, flatten_cons,
      flatten_singleton]
    rfl
  | .compressed => rw [encodeDataFrame, encodeData_fits hf, dataFrames, flatten_singleton]
  | .usb => rw [encodeDataFrame, dataFrames, flatten_singleton]

end Ptpsim.Service
