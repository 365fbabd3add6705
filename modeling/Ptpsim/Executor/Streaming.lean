/-
# Whole objects as a stream

An object that is too large to be taken as one frame is read piece by piece: a
command goes out, the header of the data frame comes in, then the payload,
which is passed on to a sink in chunks, then the response. The host reads as
much as it likes at a time, up to what it was asked for. A guard is armed before
the command is sent and disarmed when the response is in; if it is dropped while
it is armed, in whatever way the run ends, the session is invalidated.
-/
import Ptpsim.Executor.Ctx

namespace Ptpsim.Executor

open Codec Ptpsim.Core Primitives Service
open Interrupt hiding Exec
open Sim (WireFraming)

def headerBytes : ℕ := 12
def maxStreamChunk : ℕ := 1024 * 1024
def maxResponseBytes : ℕ := 12 + 5 * 4

inductive StreamFramingError where
  | encode (e : WireError)
  | shortDataFrame (length : ℕ)
  | responseLength (length : ℕ)
  /-- The response is OK and there was no data phase. -/
  | noDataPhase
  | unexpectedHeader (packetType operation : UInt16) (transactionId : UInt32)
  | payloadLength (total expected : ℕ)
  | notResponse (packet : PtpIpPacket)
  | decode (e : DecodeError)
  | responseTransaction (expected got : UInt32)
  | oversizedPiece (got max : ℕ)
deriving DecidableEq

inductive StreamingError where
  | unsupportedPlan (detail : String)
  | transport (e : TransportError)
  /-- The command stream reached its end. -/
  | eof (stage : String)
  | deadlineExceeded (stage : String)
  | framing (e : StreamFramingError)
  | sink (detail : String)
  | response (responseCode : UInt16) (transactionId : UInt32) (responseParams : List UInt32)
deriving DecidableEq

structure StreamingOutcome where
  operation : UInt16
  transactionId : UInt32
  totalBytes : ℕ
  responseParams : List UInt32
deriving DecidableEq

/-! ### The host -/

inductive StreamRequest where
  | reserveTransactionId
  | sendCommandFrame (frame : List UInt8)
  | receiveCommandBytes (maxBytes : UInt32)
deriving DecidableEq

@[reducible] def StreamRequest.Reply : StreamRequest → Type
  | reserveTransactionId => UInt32
  | sendCommandFrame _ => Unit
  | receiveCommandBytes _ => List UInt8

/-- The transport of a streamed operation. -/
structure StreamTransport (τ : Type) where
  answer : (r : StreamRequest) → τ → HostAnswer (Except TransportError r.Reply) × τ

/-- A call of the sink. -/
inductive SinkCall where
  | begin (totalBytes : ℕ)
  | write (chunk : List UInt8)
deriving DecidableEq

/-- The receiver of a streamed operation. -/
structure StreamSink (ρ : Type) where
  answer : SinkCall → ρ → HostAnswer (Except String Unit) × ρ

/-- `asked` and `consumed` keep what was asked of the transport and which bytes
were taken from it. -/
structure StreamCtx (τ ρ : Type) where
  transport : τ
  sink : ρ
  armed : Bool := false
  invalidated : Bool := false
  asked : List StreamRequest := []
  consumed : List UInt8 := []

abbrev StreamExec (τ ρ : Type) :=
  Interrupt.Exec StreamingError (Except TransportError Unit) (StreamCtx τ ρ)

section Run

variable {τ ρ : Type} (transport : StreamTransport τ) (sink : StreamSink ρ)

def stop {α : Type} (e : StreamingError) : StreamExec τ ρ α := throw (.failed e)

def ask (r : StreamRequest) : StreamExec τ ρ (Except TransportError r.Reply) := fun c =>
  let c := { c with asked := c.asked ++ [r] }
  match transport.answer r c.transport with
  | (.reply a, next) => .ok a { c with transport := next }
  | (.clock level result, next) => .error (.dropped level result) { c with transport := next }

def answered {α : Type} : Except TransportError α → StreamExec τ ρ α
  | .ok a => pure a
  | .error e => stop (.transport e)

def ranOut {α : Type} (stage : String) : Except TransportError Unit → StreamExec τ ρ α
  | .ok () => stop (.deadlineExceeded stage)
  | .error e => stop (.transport e)

def withDeadline (r : StreamRequest) (stage : String) : StreamExec τ ρ r.Reply :=
  race (do answered (← ask transport r)) (ranOut stage)

/-- No clock runs against the sink. -/
def tell (call : SinkCall) : StreamExec τ ρ Unit := fun c =>
  match sink.answer call c.sink with
  | (.reply (.ok ()), next) => .ok () { c with sink := next }
  | (.reply (.error detail), next) => .error (.failed (.sink detail)) { c with sink := next }
  | (.clock level result, next) => .error (.dropped level result) { c with sink := next }

/-! ### Reading -/

/-- What is still to be read, added to what was read. Every piece has at least
one byte, so as many pieces as there are bytes to read are enough. -/
def readPieces (stage : String) : ℕ → ℕ → List UInt8 → StreamExec τ ρ (List UInt8)
  | _, 0, bytes | 0, _ + 1, bytes => pure bytes
  | fuel + 1, remaining + 1, bytes => do
    let chunk ← withDeadline transport (.receiveCommandBytes (UInt32.ofNat (remaining + 1))) stage
    if chunk.isEmpty then stop (.eof stage)
    else if remaining + 1 < chunk.length then
      stop (.framing (.oversizedPiece chunk.length (remaining + 1)))
    else do
      modify fun c => { c with consumed := c.consumed ++ chunk }
      readPieces stage fuel (remaining + 1 - chunk.length) (bytes ++ chunk)

def readExact (length : ℕ) (stage : String) : StreamExec τ ρ (List UInt8) :=
  readPieces transport stage length length []

/-- The payload, chunk by chunk. -/
def streamBody : ℕ → ℕ → StreamExec τ ρ Unit
  | _, 0 | 0, _ + 1 => pure ()
  | fuel + 1, remaining + 1 => do
    let requested := min (remaining + 1) maxStreamChunk
    let chunk ← readExact transport requested "data body"
    tell sink (.write chunk)
    streamBody fuel (remaining + 1 - requested)

/-! ### The transaction -/

def validResponseLength (length : ℕ) : Bool :=
  decide (headerBytes ≤ length ∧ length ≤ maxResponseBytes ∧ (length - headerBytes) % 4 = 0)

variable (framing : WireFraming) (operation : UInt16) (transactionId : UInt32) (header : List UInt8)

def decodeResponse (frame : List UInt8) (transactionId : UInt32) :
    Except StreamingError OperationResponse :=
  match frameDecode framing frame with
  | .ok (.operationResponse response) =>
    if response.transactionId ≠ transactionId then
      .error (.framing (.responseTransaction transactionId response.transactionId))
    else .ok response
  | .ok other => .error (.framing (.notResponse other))
  | .error e => .error (.framing (.decode e))

/-- The response has been read to its end. -/
def takeResponse (frame : List UInt8) (transactionId : UInt32) : StreamExec τ ρ OperationResponse :=
  match decodeResponse framing frame transactionId with
  | .error e => stop e
  | .ok response => do
    modify fun c => { c with armed := false }
    if response.code ≠ Resp.ok then
      stop (.response response.code transactionId response.params)
    else pure response

def declaredLength : ℕ := leNat (header.take 4)
def packetType : UInt16 := UInt16.ofNat (leNat ((header.drop 4).take 2))
def echoedOperation : UInt16 := UInt16.ofNat (leNat ((header.drop 6).take 2))
def echoedTransaction : UInt32 :=
  UInt32.ofNat (leNat ((header.drop 8).take 4))

/-- A response where the data frame was expected. -/
def earlyResponse : StreamExec τ ρ StreamingOutcome :=
  if !validResponseLength (declaredLength header) then
    stop (.framing (.responseLength (declaredLength header)))
  else do
    let body ← readExact transport (declaredLength header - headerBytes) "early response body"
    let _ ← takeResponse framing (header ++ body) transactionId
    stop (.framing .noDataPhase)

/-- The response after the data frame. -/
def lateResponse (totalBytes : ℕ) : StreamExec τ ρ StreamingOutcome := do
  let lengthBytes ← readExact transport 4 "response header"
  let length := leNat lengthBytes
  if !validResponseLength length then stop (.framing (.responseLength length))
  else do
    let body ← readExact transport (length - 4) "response body"
    let response ← takeResponse framing (lengthBytes ++ body) transactionId
    pure ⟨operation, transactionId, totalBytes, response.params⟩

/-- A data frame, of which the header has been read. -/
def onDataHeader (expected : Option ℕ) (header : List UInt8) : StreamExec τ ρ StreamingOutcome :=
  let totalBytes := declaredLength header - headerBytes
  if packetType header ≠ 2 ∨ echoedOperation header ≠ operation ∨
      echoedTransaction header ≠ transactionId then
    stop (.framing (.unexpectedHeader (packetType header) (echoedOperation header)
      (echoedTransaction header)))
  else if expected.any (· ≠ totalBytes) then
    stop (.framing (.payloadLength totalBytes (expected.getD 0)))
  else do
    tell sink (.begin totalBytes)
    streamBody transport sink totalBytes totalBytes
    lateResponse transport framing operation transactionId totalBytes

def onHeader (expected : Option ℕ) (header : List UInt8) : StreamExec τ ρ StreamingOutcome :=
  if declaredLength header < headerBytes then
    stop (.framing (.shortDataFrame (declaredLength header)))
  else if packetType header = 3 then earlyResponse transport framing transactionId header
  else onDataHeader transport sink framing operation transactionId expected header

/-- From the moment on that the guard is armed. -/
def streamTransaction (expected : Option ℕ) (frame : List UInt8) :
    StreamExec τ ρ StreamingOutcome := do
  modify fun c => { c with armed := true }
  withDeadline transport (.sendCommandFrame frame) "command write"
  let header ← readExact transport headerBytes "data header"
  onHeader transport sink framing operation transactionId expected header

/-- The guard is dropped. -/
def StreamCtx.dropGuard (c : StreamCtx τ ρ) : StreamCtx τ ρ :=
  if c.armed then { c with invalidated := true } else c

/-- Sends one operation and streams its data. -/
def runStreamingOperation (params : List UInt32) (expected : Option ℕ) :
    StreamExec τ ρ StreamingOutcome :=
  if framing = .standard then
    stop (.unsupportedPlan "whole-object streaming requires compressed or USB framing")
  else do
    let transactionId ← withDeadline transport .reserveTransactionId "transaction reservation"
    match frameEncode framing (.operationRequest ⟨1, operation, transactionId, params⟩) with
    | .error e => stop (.framing (.encode e))
    | .ok frame =>
      ensuring (streamTransaction transport sink framing operation transactionId expected frame)
        StreamCtx.dropGuard

end Run

end Ptpsim.Executor
