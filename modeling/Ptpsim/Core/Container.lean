/-
# The PTP/IP packet bodies

The framing-independent payloads of the thirteen packet kinds, each with the
body decoder and encoder of `ptp-core`'s container module. A body that ends
in a parameter list or in raw data takes all that is left of the packet; the
others have a word of their own. Each encoder is undone by its decoder when
the body ends the packet (`roundTripsToEnd_*`).
-/
import Mathlib.Data.List.TakeDrop
import Ptpsim.Core.Datatype

namespace Ptpsim.Core

open Codec Reader

/-- A sixteen-byte identifier. -/
structure Guid where
  bytes : List UInt8
  length_eq : bytes.length = 16
deriving DecidableEq, Repr

/-- `[0; 16]` overwritten by the bytes read. -/
def Guid.copyFrom (v : List UInt8) : Guid := ⟨v.takeD 16 0, List.takeD_length ..⟩

/-- Opens a command connection. -/
structure InitCommandRequest where
  initiatorGuid : Guid
  friendlyName : String
  protocolVersion : UInt32
deriving DecidableEq, Repr

/-- Accepts a command connection. -/
structure InitCommandAck where
  connectionNumber : UInt32
  responderGuid : Guid
  friendlyName : String
  protocolVersion : UInt32
deriving DecidableEq, Repr

/-- Opens an event connection. -/
structure InitEventRequest where
  connectionNumber : UInt32
deriving DecidableEq, Repr

/-- Accepts an event connection. -/
structure InitEventAck where
deriving DecidableEq, Repr

/-- Refuses a connection. -/
structure InitFail where
  reason : UInt32
deriving DecidableEq, Repr

/-- Asks whether the peer is alive. -/
structure ProbeRequest where
deriving DecidableEq, Repr

/-- Answers a probe. -/
structure ProbeResponse where
deriving DecidableEq, Repr

/-- An operation with its parameters. -/
structure OperationRequest where
  dataPhaseInfo : UInt32
  code : UInt16
  transactionId : UInt32
  params : List UInt32
deriving DecidableEq, Repr

/-- The answer to an operation. -/
structure OperationResponse where
  code : UInt16
  transactionId : UInt32
  params : List UInt32
deriving DecidableEq, Repr

/-- An event with its parameters. -/
structure EventPacket where
  code : UInt16
  transactionId : UInt32
  params : List UInt32
deriving DecidableEq, Repr

/-- Announces a data phase and its length. -/
structure StartData where
  transactionId : UInt32
  totalLength : UInt64
deriving DecidableEq, Repr

/-- One block of a data phase. -/
structure DataBlock where
  transactionId : UInt32
  payload : List UInt8
deriving DecidableEq, Repr

/-! ### The body codecs -/

/-- The sixteen bytes of a `Guid`. -/
def guid : Decoder Guid := Guid.copyFrom <$> Reader.bytes 16

/-- The remaining body as complete little-endian `u32` parameters; a partial
parameter is rejected first. The source's loop then runs `remaining / 4`
times. -/
def remainingParams : Decoder (List UInt32) := fun r =>
  if r.remaining % 4 ≠ 0 then .error (.unexpectedEof r.pos (4 - r.remaining % 4))
  else (do
    let params ← times Reader.u32 (r.remaining / 4)
    Reader.finish
    pure params : Decoder (List UInt32)) r

namespace InitCommandRequest

def decodeBody : Decoder InitCommandRequest := do
  let initiatorGuid ← guid
  let friendlyName ← Reader.ptpString
  let protocolVersion ← Reader.u32
  pure ⟨initiatorGuid, friendlyName, protocolVersion⟩

def encodeBody (p : InitCommandRequest) : Encoder := do
  Writer.bytes p.initiatorGuid.bytes
  Writer.ptpString p.friendlyName
  Writer.u32 p.protocolVersion

end InitCommandRequest

namespace InitCommandAck

def decodeBody : Decoder InitCommandAck := do
  let connectionNumber ← Reader.u32
  let responderGuid ← guid
  let friendlyName ← Reader.ptpString
  let protocolVersion ← Reader.u32
  pure ⟨connectionNumber, responderGuid, friendlyName, protocolVersion⟩

def encodeBody (p : InitCommandAck) : Encoder := do
  Writer.u32 p.connectionNumber
  Writer.bytes p.responderGuid.bytes
  Writer.ptpString p.friendlyName
  Writer.u32 p.protocolVersion

end InitCommandAck

namespace InitEventRequest

def decodeBody : Decoder InitEventRequest := do
  let connectionNumber ← Reader.u32
  Reader.finish
  pure ⟨connectionNumber⟩

def encodeBody (p : InitEventRequest) : Encoder := Writer.u32 p.connectionNumber

end InitEventRequest

def InitEventAck.decodeBody : Decoder InitEventAck := do
  Reader.finish
  pure ⟨⟩

def InitEventAck.encodeBody (_ : InitEventAck) : Encoder := pure ()

def InitFail.decodeBody : Decoder InitFail := do
  let reason ← Reader.u32
  pure ⟨reason⟩

def InitFail.encodeBody (p : InitFail) : Encoder := Writer.u32 p.reason

def ProbeRequest.decodeBody : Decoder ProbeRequest := do
  Reader.finish
  pure ⟨⟩

def ProbeRequest.encodeBody (_ : ProbeRequest) : Encoder := pure ()

def ProbeResponse.decodeBody : Decoder ProbeResponse := do
  Reader.finish
  pure ⟨⟩

def ProbeResponse.encodeBody (_ : ProbeResponse) : Encoder := pure ()

namespace OperationRequest

def decodeBody : Decoder OperationRequest := do
  let dataPhaseInfo ← Reader.u32
  let code ← Reader.u16
  let transactionId ← Reader.u32
  let params ← remainingParams
  pure ⟨dataPhaseInfo, code, transactionId, params⟩

def encodeBody (p : OperationRequest) : Encoder := do
  Writer.u32 p.dataPhaseInfo
  Writer.u16 p.code
  Writer.u32 p.transactionId
  writeAll Writer.u32 p.params

end OperationRequest

namespace OperationResponse

def decodeBody : Decoder OperationResponse := do
  let code ← Reader.u16
  let transactionId ← Reader.u32
  let params ← remainingParams
  pure ⟨code, transactionId, params⟩

def encodeBody (p : OperationResponse) : Encoder := do
  Writer.u16 p.code
  Writer.u32 p.transactionId
  writeAll Writer.u32 p.params

end OperationResponse

namespace EventPacket

def decodeBody : Decoder EventPacket := do
  let code ← Reader.u16
  let transactionId ← Reader.u32
  let params ← remainingParams
  pure ⟨code, transactionId, params⟩

def encodeBody (p : EventPacket) : Encoder := do
  Writer.u16 p.code
  Writer.u32 p.transactionId
  writeAll Writer.u32 p.params

end EventPacket

namespace StartData

def decodeBody : Decoder StartData := do
  let transactionId ← Reader.u32
  let totalLength ← Reader.u64
  pure ⟨transactionId, totalLength⟩

def encodeBody (p : StartData) : Encoder := do
  Writer.u32 p.transactionId
  Writer.u64 p.totalLength

end StartData

namespace DataBlock

def decodeBody : Decoder DataBlock := do
  let transactionId ← Reader.u32
  let payload ← Reader.rest
  pure ⟨transactionId, payload⟩

def encodeBody (p : DataBlock) : Encoder := do
  Writer.u32 p.transactionId
  Writer.bytes p.payload

end DataBlock

/-! ### Each body is read back -/

theorem Guid.copyFrom_bytes (g : Guid) : Guid.copyFrom g.bytes = g := by
  obtain ⟨bs, h⟩ := g
  simp only [Guid.copyFrom, Guid.mk.injEq]
  rw [List.takeD_eq_take _ h.ge, List.take_of_length_le h.le]

theorem roundTrips_guid (g : Guid) : RoundTrips unread (Writer.bytes g.bytes) guid g := by
  have := (roundTrips_bytes g.bytes).map Guid.copyFrom
  rwa [g.length_eq, Guid.copyFrom_bytes] at this

theorem exhausts_finish {α : Type} (v : α) :
    Exhausts unread (do finish; pure v) [] v := by
  intro r hr
  refine ⟨r, ?_, hr⟩
  rw [bind_apply, finish_unread_nil hr]
  rfl

theorem length_writeU32 (v : UInt32) (w w' : Writer) (h : Writer.u32 v w = .ok () w') :
    w'.length = w.length + 4 := by
  cases h
  rw [List.length_append, length_leBytes]

/-- Parameters written one after the other are what `remainingParams` finds:
their number is the number of bytes left over four. -/
theorem roundTripsToEnd_params (ps : List UInt32) :
    RoundTripsToEnd unread (writeAll Writer.u32 ps) remainingParams ps := by
  intro w w' hw
  have hlen := length_writeAll length_writeU32 ps w w' hw
  obtain ⟨bs, rfl, hc⟩ := RoundTrips.writeAll (g := id) ps (fun p _ => roundTrips_u32 p) w w' hw
  rw [List.map_id] at hc
  refine ⟨bs, rfl, fun r hr => ?_⟩
  have hrem : r.remaining = 4 * ps.length := by
    rw [← length_unread, hr]
    rw [List.length_append] at hlen
    omega
  have hexh := hc.bindToEnd (f := fun params => do finish; pure params) (exhausts_finish ps)
  rw [List.append_nil] at hexh
  unfold remainingParams
  rw [if_neg (by omega), show r.remaining / 4 = ps.length by omega]
  exact hexh r hr

theorem roundTripsToEnd_rest (bs : List UInt8) :
    RoundTripsToEnd unread (Writer.bytes bs) Reader.rest bs := by
  intro w w' h
  simp only [Writer.bytes, EStateM.Result.ok.injEq, true_and] at h
  refine ⟨bs, h.symm, fun r hr => ⟨_, by rw [Reader.rest, hr], ?_⟩⟩
  simp [unread]

theorem InitCommandRequest.roundTripsToEnd (p : InitCommandRequest) :
    RoundTripsToEnd unread p.encodeBody decodeBody p :=
  ((roundTrips_guid _).bind ((roundTrips_ptpString _).bind
    ((roundTrips_u32 _).andThen (Consumes.pure p)))).toEnd

theorem InitCommandAck.roundTripsToEnd (p : InitCommandAck) :
    RoundTripsToEnd unread p.encodeBody decodeBody p :=
  ((roundTrips_u32 _).bind ((roundTrips_guid _).bind ((roundTrips_ptpString _).bind
    ((roundTrips_u32 _).andThen (Consumes.pure p))))).toEnd

theorem InitEventRequest.roundTripsToEnd (p : InitEventRequest) :
    RoundTripsToEnd unread p.encodeBody decodeBody p :=
  (roundTrips_u32 _).toEnd.andThen (exhausts_finish p)

theorem roundTripsToEnd_empty {α : Type} (v : α) :
    RoundTripsToEnd unread (pure () : Encoder) (do finish; pure v) v := by
  intro w w' h
  cases h
  exact ⟨[], (List.append_nil w).symm, exhausts_finish v⟩

theorem InitFail.roundTripsToEnd (p : InitFail) :
    RoundTripsToEnd unread p.encodeBody decodeBody p :=
  ((roundTrips_u32 _).andThen (Consumes.pure p)).toEnd

theorem OperationRequest.roundTripsToEnd (p : OperationRequest) :
    RoundTripsToEnd unread p.encodeBody decodeBody p :=
  (roundTrips_u32 _).bindToEnd ((roundTrips_u16 _).bindToEnd ((roundTrips_u32 _).bindToEnd
    ((roundTripsToEnd_params _).andThen (Consumes.pure p).exhausts)))

theorem OperationResponse.roundTripsToEnd (p : OperationResponse) :
    RoundTripsToEnd unread p.encodeBody decodeBody p :=
  (roundTrips_u16 _).bindToEnd ((roundTrips_u32 _).bindToEnd
    ((roundTripsToEnd_params _).andThen (Consumes.pure p).exhausts))

theorem EventPacket.roundTripsToEnd (p : EventPacket) :
    RoundTripsToEnd unread p.encodeBody decodeBody p :=
  (roundTrips_u16 _).bindToEnd ((roundTrips_u32 _).bindToEnd
    ((roundTripsToEnd_params _).andThen (Consumes.pure p).exhausts))

theorem StartData.roundTripsToEnd (p : StartData) :
    RoundTripsToEnd unread p.encodeBody decodeBody p :=
  ((roundTrips_u32 _).bind ((roundTrips_u64 _).andThen (Consumes.pure p))).toEnd

theorem DataBlock.roundTripsToEnd (p : DataBlock) :
    RoundTripsToEnd unread p.encodeBody decodeBody p :=
  (roundTrips_u32 _).bindToEnd ((roundTripsToEnd_rest _).andThen (Consumes.pure p).exhausts)

end Ptpsim.Core
