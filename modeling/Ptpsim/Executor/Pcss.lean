/-
# PCSS rendezvous

The PCSS executor finds a camera and opens a command connection to it. It sends
discovery datagrams, by broadcast or to a known address, until the camera calls
back; it looks at the callback, acknowledges and closes it; and then it connects
to the endpoint the camera advertised and sends an Init, which may be repeated
for some reasons of refusal. When the first endpoint of a broadcast, or the
first Init on it, cannot be reached, the manifest may permit one more
rendezvous with the address that was learned.

The host's replies are arbitrary. What the executor keeps is stated about its
log of calls: two connections that are opened and closed in turn (`wireMove`), a
callback behind every outcome (`Acknowledged`), and one recovery (`Recovered`).
-/
import Ptpsim.Ble.Transport
import Ptpsim.Core.Framing
import Ptpsim.Lib.Dialogue
import Ptpsim.Lib.Fallible
import Ptpsim.Primitives.PcssMessages

namespace Ptpsim.Pcss

open Ble Ptpsim.Core Dialogue Primitives List Fallible

/-! ### The configuration -/

/-- What was wrong with an Init or with the response to it. -/
inductive InitDetail where
  | guidLength (n : ℕ)
  | message (e : PcssInitError)
  | packet (packet : PtpIpPacket)
  | ack (e : PcssInitAckError)
deriving DecidableEq

inductive PcssExecutorError where
  | unknownPlan (detail : String)
  | invalidAddress (value : String)
  | discoveryTimedOut
  | unrecognizedCamera
  | identityMismatch (model : String)
  | initRejected (reason : UInt32)
  | invalidInitResponse (detail : InitDetail)
  | transport (e : TransportError)
  | deadlineExceeded (stage : String)
deriving DecidableEq

inductive TimedIoError where
  | operation (e : TransportError)
  | deadline
  | clock (e : TransportError)
deriving DecidableEq

namespace TimedIoError

end TimedIoError

/-! ### The host -/

structure PcssCallback where
  peerIpv4 : String
  payload : List UInt8

/-- The calls to the host. Those with a number of milliseconds race the host's
clock. -/
inductive Call where
  | bindCallbackListener (port : UInt16)
  | sendDiscovery (destination : Ipv4Addr) (port : UInt16) (payload : List UInt8)
  | nextCallback (ms : UInt32)
  | sendCallbackReply (payload : List UInt8)
  | closeCallbackConnection
  | connectCommand (camera : Ipv4Addr) (port : UInt16) (ms : UInt32)
  | sendCommandFrame (frame : List UInt8) (ms : UInt32)
  | nextCommandFrame (ms : UInt32)
  | closeCommandConnection
  | sleep (ms : UInt32)

/-- `with_deadline_source` makes a call fail on its own account or the clock's. -/
def Call.Reply : Call → Type
  | nextCallback _ => Except TimedIoError PcssCallback
  | connectCommand _ _ _ => Except TimedIoError Unit
  | sendCommandFrame _ _ => Except TimedIoError Unit
  | nextCommandFrame _ => Except TimedIoError (List UInt8)
  | _ => Except TransportError Unit

abbrev PcssHost := Host Call.Reply
abbrev Log := List (Event Call.Reply)
def parseIpv4 (value : String) : Except PcssExecutorError Ipv4Addr :=
  match Ipv4Addr.parse value.toList with
  | some ip => .ok ip
  | none => .error (.invalidAddress value)

def callbackAckMessage : List UInt8 := textBytes "HTTP/1.1 200 OK\r\n\x00".toList

structure PcssEstablishmentOutcome where
  model : String
  connection : String
  cameraIpv4 : Ipv4Addr
  cameraName : String
  commandPort : UInt16
  service : String
  connectionNumber : UInt32
  responderGuid : Primitives.Guid
  responderName : String

/-- A failure, and whether another endpoint may help. -/
structure EndpointAttemptError where
  error : PcssExecutorError
  recoveryEligible : Bool

variable (host : PcssHost)

/-- The callback connection is open or not; an open command connection has a
number of Inits that may still be sent on it. -/
structure Wire where
  callback : Bool
  command : Option ℕ
deriving DecidableEq

def Wire.idle : Wire := ⟨false, none⟩

/-- What the log may say next. Callbacks are open one at a time, until each is
closed once; a command connection is closed as well, and carries one Init and
the permitted retries. -/
def wireMove (retries : ℕ) (wire : Wire) : Event Call.Reply → Option Wire
  | ⟨.nextCallback _, .ok _⟩ => if wire.callback then none else some { wire with callback := true }
  | ⟨.closeCallbackConnection, _⟩ =>
    if wire.callback then some { wire with callback := false } else none
  | ⟨.connectCommand _ _ _, _⟩ =>
    match wire.command with
    | none => some { wire with command := some (retries + 1) }
    | some _ => none
  | ⟨.sendCommandFrame _ _, _⟩ =>
    match wire.command with
    | some (left + 1) => some { wire with command := some left }
    | _ => none
  | ⟨.closeCommandConnection, _⟩ =>
    match wire.command with
    | some _ => some { wire with command := none }
    | none => none
  | _ => some wire

/-- The log leads from one state of the connections to another. -/
def Leads (retries : ℕ) (wire : Wire) (log : Log) (wire' : Wire) : Prop :=
  log.foldlM (wireMove retries) wire = some wire'

variable {log : Log}

theorem Leads.append {retries : ℕ} {w₁ w₂ w₃ : Wire} {log' : Log} (h : Leads retries w₁ log w₂)
    (h' : Leads retries w₂ log' w₃) : Leads retries w₁ (log ++ log') w₃ := by
  unfold Leads at h h' ⊢
  rw [foldlM_append, h]
  exact h'

/-- The log ends in a callback of the protocol that was accepted, acknowledged
and closed, and that came from the address it advertised. -/
def Acknowledged (protocol : String) (notify : PcssNotify) (log : Log) : Prop :=
  ∃ front ms accepted, log = front ++ [⟨.nextCallback ms, .ok accepted⟩,
      ⟨.sendCallbackReply callbackAckMessage, .ok ()⟩, ⟨.closeCallbackConnection, .ok ()⟩] ∧
    parseNotify accepted.payload protocol = .ok notify ∧
    parseIpv4 accepted.peerIpv4 = .ok notify.cameraAddress

/-- A call for a rendezvous by discoveries of the destination. -/
def isRendezvous (destination : Ipv4Addr) : Event Call.Reply → Bool
  | ⟨.bindCallbackListener _, _⟩ => true
  | ⟨.sendDiscovery goal _ _, _⟩ => goal = destination
  | ⟨.nextCallback _, _⟩ => true
  | ⟨.sendCallbackReply _, _⟩ => true
  | ⟨.closeCallbackConnection, _⟩ => true
  | _ => false

section Specs

variable {host : PcssHost} {retries : ℕ} {protocol : String} {log : Log} {camera : Ipv4Addr}
  {First : Log → Prop} {callback : Ipv4Addr} {init : List UInt8} {notify : PcssNotify} {added : Log}
  {model connection : String}

theorem Acknowledged.append (front : Log) (h : Acknowledged protocol notify log) :
    Acknowledged protocol notify (front ++ log) := by
  obtain ⟨front', ms, accepted, rfl, hp⟩ := h
  exact ⟨front ++ front', ms, accepted, by rw [append_assoc], hp⟩

/-- A rendezvous with a known address: every callback is closed, and the one
returned was acknowledged and came from there. -/
structure Acquired (retries : ℕ) (protocol : String) (camera : Ipv4Addr) (added : Log)
    (result : Except PcssExecutorError PcssNotify) : Prop where
  leads : Leads retries .idle added .idle
  rendezvous : added.all (isRendezvous camera) = true
  acknowledged : ∀ notify, result = .ok notify →
    Acknowledged protocol notify added ∧ notify.cameraAddress = camera

theorem Acquired.error {e : PcssExecutorError} (hl : Leads retries .idle added .idle)
    (hadded : added.all (isRendezvous camera) = true) :
    Acquired retries protocol camera added (.error e) :=
  ⟨hl, hadded, by simp⟩

variable {store : ConfigStore}

/-- What is said on a command connection from `wire` on, by calls that are as
`Calls` says. It is closed before an error; an outcome is for the camera it was
opened to; and only what `First` says can be recovered from. -/
structure Endpoint (retries : ℕ) (wire : Wire) (camera : Ipv4Addr) (Calls First : Log → Prop)
    (added : Log) (result : Except EndpointAttemptError PcssEstablishmentOutcome) : Prop where
  calls : Calls added
  error : ∀ e, result = .error e → Leads retries wire added .idle ∧
    (e.recoveryEligible = true → First added)
  ok : ∀ outcome, result = .ok outcome →
    (∃ left, Leads retries wire added ⟨false, some left⟩) ∧ outcome.cameraIpv4 = camera

variable {wire : Wire} {Calls : Log → Prop}

theorem Endpoint.closed {e : PcssExecutorError} (hl : Leads retries wire added .idle)
    (hadded : Calls added) :
    Endpoint retries wire camera Calls First added (.error ⟨e, false⟩) := by
  refine ⟨hadded, ?_, by simp⟩
  rintro _ ⟨⟩
  exact ⟨hl, by simp⟩

end Specs

/-! ### Whole runs -/

variable (host : PcssHost) (store : ConfigStore) (callbackIpv4 : String)
    (initiatorGuid : List UInt8)
  (friendlyName : String)

end Ptpsim.Pcss
