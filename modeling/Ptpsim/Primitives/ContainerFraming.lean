/-
# The two single-container framings

After the init exchange a Fuji command channel (`FujiFraming`) and PTP over USB
(`UsbPtp`) carry containers of one shape: a `u32` total length, a `u16` type, a
`u16` code, a `u32` transaction id, then parameters or a data payload. The two
codecs are written apart. The compressed channel has no event type, and its data
frame panics when the length overflows, where the USB one truncates it.

Both put the same bytes on the wire (`encodeData_eq`) and accept the same bytes
apart from events (`decodeFrame_congr`). A decoder undoes its encoder up to what
a container does not carry: the data-phase word of a request (`onContainer`) and
the operation code of a data frame.
-/
import Ptpsim.Core.Framing

namespace Ptpsim.Primitives

open Codec Ptpsim.Core Reader

inductive FramingError where
  | notOnCompressedChannel
  | unsupportedPacket
deriving DecidableEq, Repr

/-! ### Writing a container -/

/-- The bytes of a container: header words, then what follows them. -/
def container (length : UInt32) (type code : UInt16) (transactionId : UInt32)
    (payload : List UInt8) :
    List UInt8 :=
  leBytes 4 length.toNat ++ (leBytes 2 type.toNat ++ (leBytes 2 code.toNat ++
    (leBytes 4 transactionId.toNat ++ payload)))

/-- One control container as both encoders write it: a length placeholder, the
header, then the parameters. -/
def control (type code : UInt16) (transactionId : UInt32) (params : List UInt32) : Encoder := do
  Writer.u32 0
  Writer.u16 type
  Writer.u16 code
  Writer.u32 transactionId
  writeAll Writer.u32 params

/-- `patch_u32(0, w.len() as u32)` and `into_vec` on a finished writer. None
of the writer calls of `control` can fail. -/
def lengthPatched (m : Encoder) : List UInt8 :=
  match m [] with
  | .ok () w | .error _ w => Writer.patchU32 0 (UInt32.ofNat w.length) w

namespace FujiFraming

def opRequest : UInt16 := 1
def data : UInt16 := 2
def opResponse : UInt16 := 3

/-- A data phase needs the opcode and is written by `encodeData`; init packets
are standard-framed and events ride their own socket. -/
def encode : PtpIpPacket → Except FramingError (List UInt8)
  | .operationRequest p => .ok (lengthPatched (control opRequest p.code p.transactionId p.params))
  | .operationResponse p => .ok (lengthPatched (control opResponse p.code p.transactionId p.params))
  | _ => .error .notOnCompressedChannel

/-- The header of a data frame; `none` is the panic of
`payload_len.checked_add(12).expect(..)`. -/
def dataFrameHeader (op : UInt16) (txn payloadLen : UInt32) : Option (List UInt8) :=
  if payloadLen.toNat + 12 < 2 ^ 32 then
    some (leBytes 4 (payloadLen + 12).toNat ++ leBytes 2 data.toNat ++ leBytes 2 op.toNat ++
      leBytes 4 txn.toNat)
  else none

/-- The whole data phase in one frame. The payload length is cut to a `u32`
before the header length is added to it. -/
def encodeData (op : UInt16) (txn : UInt32) (payload : List UInt8) : Option (List UInt8) := do
  let header ← dataFrameHeader op txn (UInt32.ofNat payload.length)
  pure (header ++ payload)

end FujiFraming

namespace UsbPtp

def command : UInt16 := 1
def data : UInt16 := 2
def response : UInt16 := 3
def event : UInt16 := 4

def encode : PtpIpPacket → Except FramingError (List UInt8)
  | .operationRequest p => .ok (lengthPatched (control command p.code p.transactionId p.params))
  | .operationResponse p => .ok (lengthPatched (control response p.code p.transactionId p.params))
  | .event p => .ok (lengthPatched (control event p.code p.transactionId p.params))
  | _ => .error .unsupportedPacket

/-- The container length is `(12 + payload.len()) as u32`. -/
def encodeData (code : UInt16) (transactionId : UInt32) (payload : List UInt8) : List UInt8 :=
  container (UInt32.ofNat (12 + payload.length)) data code transactionId payload

end UsbPtp

/-! ### Reading a container -/

/-- The decoder behind the length word, with the body its type selects. -/
def decodeContents (body : UInt16 → UInt16 → UInt32 → Decoder PtpIpPacket) (length : UInt32)
    (actual : ℕ) : Decoder PtpIpPacket :=
  if length.toNat ≠ actual then throw (.lengthMismatch length.toNat actual)
  else do
    let type ← Reader.u16
    let code ← Reader.u16
    let tid ← Reader.u32
    let packet ← body type code tid
    Reader.finish
    pure packet

/-- The decoder of both framings, for the body of either. -/
def decodeFrame (body : UInt16 → UInt16 → UInt32 → Decoder PtpIpPacket) (bytes : List UInt8) :
    Except DecodeError PtpIpPacket :=
  StateT.run' (do
    let length ← Reader.u32
    decodeContents body length bytes.length) (Reader.new bytes)

variable (code : UInt16) (tid : UInt32)

/-- A decoded request; no container carries the data-phase word. -/
def requestBody : Decoder PtpIpPacket := do
  let params ← remainingParams
  pure (.operationRequest ⟨1, code, tid, params⟩)

def responseBody : Decoder PtpIpPacket := do
  let params ← remainingParams
  pure (.operationResponse ⟨code, tid, params⟩)

def eventBody : Decoder PtpIpPacket := do
  let params ← remainingParams
  pure (.event ⟨code, tid, params⟩)

def dataBody : Decoder PtpIpPacket := do
  let payload ← Reader.rest
  pure (.data ⟨tid, payload⟩)

namespace FujiFraming

def decodeBody (type code : UInt16) (tid : UInt32) : Decoder PtpIpPacket :=
  if type = opRequest then requestBody code tid
  else if type = opResponse then responseBody code tid
  else if type = data then dataBody tid
  else throw (.unknownPacketType type.toUInt32)

def decode : List UInt8 → Except DecodeError PtpIpPacket := decodeFrame decodeBody

end FujiFraming

namespace UsbPtp

def decodeBody (type code : UInt16) (tid : UInt32) : Decoder PtpIpPacket :=
  if type = command then requestBody code tid
  else if type = response then responseBody code tid
  else if type = event then eventBody code tid
  else if type = data then dataBody tid
  else throw (.unknownPacketType type.toUInt32)

def decode : List UInt8 → Except DecodeError PtpIpPacket := decodeFrame decodeBody

end UsbPtp

/-! ### The bytes of a container -/

theorem patchU32_placeholder (v : UInt32) (t : List UInt8) :
    Writer.patchU32 0 v (leBytes 4 (0 : UInt32).toNat ++ t) = leBytes 4 v.toNat ++ t := by
  simp [Writer.patchU32]

/-- What a control container looks like: its length, its header and the words
of its parameters, which `remainingParams` reads back. -/
theorem frame_control (type code : UInt16) (tid : UInt32) (params : List UInt32) :
    ∃ body, lengthPatched (control type code tid params) =
        container (UInt32.ofNat (12 + body.length)) type code tid body ∧
      Exhausts unread remainingParams body params := by
  have hwr : Succeeds (writeAll Writer.u32 params) :=
    Succeeds.writeAll params fun p _ => Writer.succeeds_word 4 p.toNat
  obtain ⟨w, hw⟩ := hwr (leBytes 4 (0 : UInt32).toNat ++ leBytes 2 type.toNat ++
    leBytes 2 code.toNat ++ leBytes 4 tid.toNat)
  obtain ⟨body, rfl, hb⟩ := roundTripsToEnd_params params _ w hw
  refine ⟨body, ?_, hb⟩
  have hrun : control type code tid params [] = .ok () (leBytes 4 (0 : UInt32).toNat ++
      leBytes 2 type.toNat ++ leBytes 2 code.toNat ++ leBytes 4 tid.toNat ++ body) := hw
  have hlen : (leBytes 4 (0 : UInt32).toNat ++ leBytes 2 type.toNat ++ leBytes 2 code.toNat ++
      leBytes 4 tid.toNat ++ body).length = 12 + body.length := by
    simp only [List.length_append, length_leBytes]
  unfold lengthPatched
  rw [hrun]
  show Writer.patchU32 0 (UInt32.ofNat _) _ = _
  rw [hlen]
  rfl

variable {payload : List UInt8} {txn : UInt32} {op : UInt16} {bytes : List UInt8}
  {body : UInt16 → UInt16 → UInt32 → Decoder PtpIpPacket} {type : UInt16}

open FujiFraming

/-- Whenever the compressed framing's length check passes, both framings build
the same data container. -/
theorem encodeData_eq (h : encodeData op txn payload = some bytes) :
    bytes = UsbPtp.encodeData op txn payload := by
  have hc : UInt32.ofNat payload.length + 12 = UInt32.ofNat (12 + payload.length) := by
    rw [Nat.add_comm, UInt32.ofNat_add]
    rfl
  unfold encodeData dataFrameHeader at h
  by_cases hf : (UInt32.ofNat payload.length).toNat + 12 < 2 ^ 32
  · rw [if_pos hf, hc] at h
    simp only [Option.bind_eq_bind, Option.bind_some, Option.pure_def, Option.some.injEq] at h
    rw [← h]
    rfl
  · rw [if_neg hf] at h
    simp at h

theorem encodeData_fits (h : 12 + payload.length < 2 ^ 32) :
    encodeData op txn payload = some (UsbPtp.encodeData op txn payload) := by
  have hcut : (UInt32.ofNat payload.length).toNat = payload.length := by
    rw [UInt32.toNat_ofNat', Nat.mod_eq_of_lt (by omega)]
  have hs : ∃ bytes, encodeData op txn payload = some bytes := by
    unfold encodeData dataFrameHeader
    rw [hcut, if_pos (by omega)]
    exact ⟨_, rfl⟩
  obtain ⟨bytes, hb⟩ := hs
  rw [hb, encodeData_eq hb]

/-! ### Each decoder undoes its encoder -/

theorem decodeFrame_frame {code : UInt16} {tid : UInt32} {packet : PtpIpPacket}
    (hfi : 12 + payload.length < 2 ^ 32)
    (hb : Exhausts unread (body type code tid) payload packet) :
    decodeFrame body (container (UInt32.ofNat (12 + payload.length)) type code tid payload) =
      .ok packet := by
  have hl : (container (UInt32.ofNat (12 + payload.length)) type code tid payload).length =
      12 + payload.length := by
    simp only [container, List.length_append, length_leBytes]
    omega
  have hd : (UInt32.ofNat (12 + payload.length)).toNat = 12 + payload.length := by
    rw [UInt32.toNat_ofNat', Nat.mod_eq_of_lt hfi]
  have hf : Exhausts unread (do
      let packet ← body type code tid
      finish
      pure packet) payload packet := by
    intro r hr
    obtain ⟨r', h₁, hr'⟩ := hb r hr
    refine ⟨r', ?_, hr'⟩
    simp only [bind_apply, h₁, finish_unread_nil hr']
    rfl
  have hc : Exhausts unread
      (decodeContents body (UInt32.ofNat (12 + payload.length)) (12 + payload.length))
      (leBytes 2 type.toNat ++ (leBytes 2 code.toNat ++ (leBytes 4 tid.toNat ++ payload)))
      packet := by
    unfold decodeContents
    rw [if_neg (by rw [hd]; simp)]
    exact (consumes_u16 type).bindToEnd ((consumes_u16 code).bindToEnd
      ((consumes_u32 tid).bindToEnd hf))
  have hall := (consumes_u32 (UInt32.ofNat (12 + payload.length))).bindToEnd hc
    (f := fun length => decodeContents body length (12 + payload.length))
  unfold decodeFrame
  rw [hl]
  obtain ⟨r, hr, -⟩ :=
    hall (Reader.new (container (UInt32.ofNat (12 + payload.length)) type code tid payload)) rfl
  exact run'_of_ok hr

/-- The packet a container of `p` can give back: the data-phase word of a
request is not on the wire and reads as 1. -/
def onContainer : PtpIpPacket → PtpIpPacket
  | .operationRequest p => .operationRequest { p with dataPhaseInfo := 1 }
  | p => p

theorem exhausts_params {body : List UInt8} {params : List UInt32}
    (h : Exhausts unread remainingParams body params) (g : List UInt32 → PtpIpPacket) :
    Exhausts unread (do let params ← remainingParams; pure (g params)) body (g params) := by
  intro r hr
  obtain ⟨r', h₁, hr'⟩ := h r hr
  refine ⟨r', ?_, hr'⟩
  rw [bind_apply, h₁]
  rfl

theorem exhausts_dataBody (tid : UInt32) (payload : List UInt8) :
    Exhausts unread (dataBody tid) payload (.data ⟨tid, payload⟩) := by
  intro r hr
  refine ⟨⟨r.buf, r.buf.length, le_rfl⟩, ?_, by simp [unread]⟩
  rw [dataBody, bind_apply, Reader.rest, hr]
  rfl

/-- A decoder whose body reads the parameters of a control container back
undoes the container, if the length word holds its length. -/
theorem decodeFrame_control {code : UInt16} {tid : UInt32} {params : List UInt32}
    (g : List UInt32 → PtpIpPacket)
    (hbo : body type code tid = do let params ← remainingParams; pure (g params))
    (hf : (lengthPatched (control type code tid params)).length < 2 ^ 32) :
    decodeFrame body (lengthPatched (control type code tid params)) = .ok (g params) := by
  obtain ⟨bytes, hb, hp⟩ := frame_control type code tid params
  have hlen : (lengthPatched (control type code tid params)).length = 12 + bytes.length := by
    rw [hb]
    simp only [container, List.length_append, length_leBytes]
    omega
  rw [hb]
  apply decodeFrame_frame
  · rwa [hlen] at hf
  · rw [hbo]
    exact exhausts_params hp g

theorem FujiFraming.decode_encode {p : PtpIpPacket} (h : encode p = .ok bytes)
    (hf : bytes.length < 2 ^ 32) : decode bytes = .ok (onContainer p) := by
  cases p with
  | operationRequest p =>
    cases h
    exact decodeFrame_control (fun params => .operationRequest ⟨1, p.code, p.transactionId, params⟩)
      rfl hf
  | operationResponse p =>
    cases h
    exact decodeFrame_control (fun params => .operationResponse ⟨p.code, p.transactionId, params⟩)
      rfl hf
  | _ => cases h

theorem UsbPtp.decode_encode {p : PtpIpPacket} (h : encode p = .ok bytes)
    (hf : bytes.length < 2 ^ 32) : decode bytes = .ok (onContainer p) := by
  cases p with
  | operationRequest p =>
    cases h
    exact decodeFrame_control (fun params => .operationRequest ⟨1, p.code, p.transactionId, params⟩)
      rfl hf
  | operationResponse p =>
    cases h
    exact decodeFrame_control (fun params => .operationResponse ⟨p.code, p.transactionId, params⟩)
      rfl hf
  | event p =>
    cases h
    exact decodeFrame_control (fun params => .event ⟨p.code, p.transactionId, params⟩) rfl hf
  | _ => cases h

theorem decodeFrame_data (hb : body UsbPtp.data op txn = dataBody txn)
    (hf : 12 + payload.length < 2 ^ 32) :
    decodeFrame body (UsbPtp.encodeData op txn payload) = .ok (.data ⟨txn, payload⟩) := by
  apply decodeFrame_frame hf
  rw [hb]
  exact exhausts_dataBody txn payload

/-! ### The two decoders agree off the event type -/

/-- The type field of a container, if the bytes reach that far. -/
def containerType (bytes : List UInt8) : Option UInt16 :=
  if 6 ≤ bytes.length then some (UInt16.ofNat (leNat ((bytes.drop 4).take 2))) else none

/-- Two decoders whose bodies agree at the bytes' own type agree on the
bytes: whatever fails before the type is read fails alike. -/
theorem decodeFrame_congr {body' : UInt16 → UInt16 → UInt32 → Decoder PtpIpPacket}
    (h : ∀ type, containerType bytes = some type → body type = body' type) :
    decodeFrame body bytes = decodeFrame body' bytes := by
  unfold decodeFrame StateT.run'
  congr 1
  rw [bind_apply, bind_apply]
  cases hl : Reader.u32 (Reader.new bytes) with
  | error e => rfl
  | ok q =>
    obtain ⟨length, r⟩ := q
    obtain ⟨h4, -, hr⟩ := u32_ok hl
    rw [unread_new] at hr
    show decodeContents body length bytes.length r = decodeContents body' length bytes.length r
    unfold decodeContents
    by_cases hd : length.toNat ≠ bytes.length
    · rw [if_pos hd, if_pos hd]
    · rw [if_neg hd, if_neg hd, bind_apply, bind_apply]
      cases ht : Reader.u16 r with
      | error e => rfl
      | ok q =>
        obtain ⟨type, r'⟩ := q
        obtain ⟨h2, hv⟩ := u16_ok ht
        rw [hr] at h2 hv
        have hf : containerType bytes = some type := by
          rw [List.length_drop] at h2
          rw [containerType, if_pos (by omega), hv]
        dsimp only
        rw [h type hf]

theorem decodeBody_eq (h : type ≠ UsbPtp.event) :
    decodeBody type = UsbPtp.decodeBody type := by
  funext code tid
  unfold decodeBody UsbPtp.decodeBody
  rw [if_neg h]
  rfl

/-! ### The comparison -/

/-- **The two framings agree.** Requests and responses become the same bytes,
and so does every data block the compressed framing's length check lets
through; off the event type both decoders give the same answer; and each
decoder undoes its own encoder on frames of fewer than `2 ^ 32` bytes, up to
the data-phase word that a container does not carry. -/
theorem containers_agree :
    (∀ p, FujiFraming.encode (.operationRequest p) = UsbPtp.encode (.operationRequest p)) ∧
    (∀ p, FujiFraming.encode (.operationResponse p) = UsbPtp.encode (.operationResponse p)) ∧
    (∀ op txn payload bytes, FujiFraming.encodeData op txn payload = some bytes →
      bytes = UsbPtp.encodeData op txn payload) ∧
    (∀ bytes, containerType bytes ≠ some UsbPtp.event →
      FujiFraming.decode bytes = UsbPtp.decode bytes) ∧
    (∀ p bytes, FujiFraming.encode p = .ok bytes → bytes.length < 2 ^ 32 →
      FujiFraming.decode bytes = .ok (onContainer p)) ∧
    (∀ p bytes, UsbPtp.encode p = .ok bytes → bytes.length < 2 ^ 32 →
      UsbPtp.decode bytes = .ok (onContainer p)) ∧
    ∀ op txn payload, 12 + payload.length < 2 ^ 32 →
      FujiFraming.encodeData op txn payload = some (UsbPtp.encodeData op txn payload) ∧
      FujiFraming.decode (UsbPtp.encodeData op txn payload) = .ok (.data ⟨txn, payload⟩) ∧
      UsbPtp.decode (UsbPtp.encodeData op txn payload) = .ok (.data ⟨txn, payload⟩) := by
  refine ⟨fun _ => rfl, fun _ => rfl, fun _ _ _ _ h => encodeData_eq h, ?_,
    fun _ _ => decode_encode, fun _ _ => UsbPtp.decode_encode, ?_⟩
  · intro bytes he
    apply decodeFrame_congr
    intro type ht
    apply decodeBody_eq
    rintro rfl
    exact he ht
  · intro op txn payload hf
    exact ⟨encodeData_fits hf, decodeFrame_data rfl hf, decodeFrame_data rfl hf⟩

/-- The container of `OpenSession` in session 1, of the empty data phase of
transaction 7, and a container with an unknown type. -/
theorem containers_agree_openSession :
    FujiFraming.decode [16, 0, 0, 0, 1, 0, 2, 0x10, 7, 0, 0, 0, 1, 0, 0, 0] =
      .ok (.operationRequest ⟨1, Op.openSession, 7, [1]⟩) ∧
    UsbPtp.decode [16, 0, 0, 0, 1, 0, 2, 0x10, 7, 0, 0, 0, 1, 0, 0, 0] =
      .ok (.operationRequest ⟨1, Op.openSession, 7, [1]⟩) ∧
    FujiFraming.decode (UsbPtp.encodeData 0x1009 7 []) = .ok (.data ⟨7, []⟩) ∧
    FujiFraming.decode [12, 0, 0, 0, 9, 0, 2, 0x10, 7, 0, 0, 0] =
      UsbPtp.decode [12, 0, 0, 0, 9, 0, 2, 0x10, 7, 0, 0, 0] :=
  have h := containers_agree
  ⟨h.2.2.2.2.1 (.operationRequest ⟨1, Op.openSession, 7, [1]⟩)
      [16, 0, 0, 0, 1, 0, 2, 0x10, 7, 0, 0, 0, 1, 0, 0, 0] rfl (by decide),
    h.2.2.2.2.2.1 (.operationRequest ⟨1, Op.openSession, 7, [1]⟩)
      [16, 0, 0, 0, 1, 0, 2, 0x10, 7, 0, 0, 0, 1, 0, 0, 0] rfl (by decide),
    (h.2.2.2.2.2.2 0x1009 7 [] (by decide)).2.1,
    h.2.2.2.1 [12, 0, 0, 0, 9, 0, 2, 0x10, 7, 0, 0, 0] (by decide)⟩

/-- The data-phase word is lost: a request that announces a data-out phase
comes back as one that does not. -/
theorem dataPhase_not_on_container :
    ∃ p bytes, FujiFraming.encode p = .ok bytes ∧ UsbPtp.encode p = .ok bytes ∧
      FujiFraming.decode bytes ≠ .ok p ∧ UsbPtp.decode bytes ≠ .ok p :=
  ⟨.operationRequest ⟨2, 0x1016, 7, [0x5001]⟩,
    [16, 0, 0, 0, 1, 0, 0x16, 0x10, 7, 0, 0, 0, 1, 0x50, 0, 0], rfl, rfl, by decide, by decide⟩

end Ptpsim.Primitives
