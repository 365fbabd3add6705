/-
# Writing a reply

`write_reply` puts a reply on the wire: a data phase if there is one, then the
response. Data that is at hand is encoded at once. A stream is announced by a
header with its declared length and copied chunk by chunk
(`stream_data_phase`), without ever holding all of it.

The length word of a frame has 32 bits and counts twelve bytes of header with
the payload. A stream of `2 ^ 32` bytes or more is refused before anything is
written, but the header length is added without a check: for the last twelve
lengths below `2 ^ 32` the sum wraps around, or panics in a build that checks
for overflow (`reply_written_iff`).
-/
import Ptpsim.Service.WireFrames
import Ptpsim.Sim.Frame

namespace Ptpsim.Service

open Codec Ptpsim.Core Primitives Store LengthPrefixed List Option FujiFraming ByteSource
open Sim (WireFraming WirePlan Reply StreamCompletion Engine)

/-- A writer on the command socket; the state is what has been written. -/
abbrev Send := EStateM WireError (List UInt8)

namespace Send

def writeAll (bytes : List UInt8) : Send Unit := fun written => .ok () (written ++ bytes)

def ofExcept {α : Type} : Except WireError α → Send α
  | .ok a => pure a
  | .error e => throw e

end Send

/-! ### The data phase of a stream -/

def dataChunkBytes : ℕ := 1024 * 1024

/-- The copy loop of `stream_data_phase`, with the offset it stops at. -/
def copyChunks (disk : Disk) (source : ByteSource) (offset : ℕ) (written : List UInt8) :
    EStateM.Result WireError (List UInt8) ℕ :=
  if _hgoes : offset < source.len.toNat then
    match source.readChunk disk offset (min (source.len.toNat - offset) dataChunkBytes) with
    | .error e => .error (.media e) written
    | .ok chunk =>
      if _hempty : chunk.length = 0 then .ok offset written
      else copyChunks disk source (offset + chunk.length) (written ++ chunk)
  else .ok offset written
termination_by source.len.toNat - offset

variable (overflowChecks : Bool) (disk : Disk) (framing : WireFraming) (wire : WirePlan)

def copyAll (source : ByteSource) : Send ℕ := fun written =>
  copyChunks disk source 0 written

/-- The header of the payload's frame. The standard framing adds the header
length with `+`: a sum that does not fit panics with overflow checks, and wraps
without them. -/
def dataHeader (op : UInt16) (transactionId payloadLen : UInt32) : Except WireError (List UInt8) :=
  match framing with
  | .standard =>
    if overflowChecks = true ∧ 2 ^ 32 ≤ payloadLen.toNat + 12 then .error .panicked
    else .ok (leBytes 4 (payloadLen + 12).toNat ++ (leBytes 4 12 ++ leBytes 4 transactionId.toNat))
  | .compressed | .usb =>
    match FujiFraming.dataFrameHeader op transactionId payloadLen with
    | some header => .ok header
    | none => .error .panicked

/-- StartData goes out first in the standard framing. -/
def announce (transactionId : UInt32) (totalLength : UInt64) : Send Unit :=
  match framing with
  | .standard => do
    let start ← Send.ofExcept ((Framing.encode (.startData ⟨transactionId, totalLength⟩)).mapError
      .encode)
    Send.writeAll start
  | .compressed | .usb => pure ()

def streamDataPhase (op : UInt16) (transactionId : UInt32) (source : ByteSource) : Send Unit :=
  let totalLength := source.len
  if 2 ^ 32 ≤ totalLength.toNat then
    throw (.io "data-phase payload exceeds a single frame (u32)")
  else do
    announce framing transactionId totalLength
    let header ← Send.ofExcept
      (dataHeader overflowChecks framing op transactionId totalLength.toUInt32)
    Send.writeAll header
    let offset ← copyAll disk source
    if offset ≠ totalLength.toNat then
      throw (.io "stream source ended before its declared length")
    else pure ()

/-! ### The reply -/

inductive TransactionOutcome where
  | ok
  | nonOk
  | timeout
  | transportAbort
deriving DecidableEq

/-- What is reported of a written reply: its response, if one was sent, and
what became of the transaction. -/
structure WrittenReply where
  response : Option (UInt16 × List UInt32) := none
  outcome : TransactionOutcome
  completion : Option StreamCompletion := none
  closed : Bool := false
  wireOutcome : Option String

def responseOutcome (code : UInt16) : TransactionOutcome :=
  if code = Resp.ok then .ok else .nonOk

def appliedWireOutcome (hasDataPhase hasResponsePhase : Bool) : Option String :=
  match wire with
  | .closeBeforeData => some (if hasDataPhase then "closedBeforeData" else "noDataPhase")
  | .closeBeforeResponse =>
    some (if hasResponsePhase then "closedBeforeResponse" else "noResponsePhase")
  | .delayData _ => some (if hasDataPhase then "delayedData" else "noDataPhase")
  | .delayResponse _ => some (if hasResponsePhase then "delayedResponse" else "noResponsePhase")
  | .suppressData => some (if hasDataPhase then "suppressedData" else "noDataPhase")
  | .suppressResponse =>
    some (if hasResponsePhase then "suppressedResponse" else "noResponsePhase")
  | .replaceTransactionId _ =>
    some (if hasDataPhase || hasResponsePhase then "replacedTransactionId" else "noWirePhase")
  | .dataFraming _ => some (if hasDataPhase then "changedDataFraming" else "noDataPhase")
  | .none => none

def wireTransactionId (sessionId : UInt32) : UInt32 :=
  match wire with
  | .replaceTransactionId transactionId => transactionId
  | _ => sessionId

def replaceResponseTransactionId (response : OperationResponse) : OperationResponse :=
  { response with transactionId := wireTransactionId wire response.transactionId }

def wireDataFraming (sessionFraming : WireFraming) : WireFraming :=
  match wire with
  | .dataFraming framing => framing
  | _ => sessionFraming

/-- The response phase, the same after every kind of data phase. -/
def respond (response : OperationResponse) (completion : Option StreamCompletion)
    (wireOutcome : Option String) : Send WrittenReply :=
  if wire = .closeBeforeResponse then
    pure { outcome := .transportAbort, closed := true, wireOutcome }
  else if wire = .suppressResponse then pure { outcome := .timeout, wireOutcome }
  else do
    let bytes ← Send.ofExcept (encodeControlFrame framing
      (.operationResponse (replaceResponseTransactionId wire response)))
    Send.writeAll bytes
    pure { response := some (response.code, response.params)
           outcome := responseOutcome response.code, completion, wireOutcome }

/-- Writes a reply as the fault in force has it. -/
def writeReply (req : OperationRequest) (reply : Reply) : Send WrittenReply :=
  let transactionId := wireTransactionId wire req.transactionId
  match reply with
  | .response response => respond framing wire response none (appliedWireOutcome wire false true)
  | .data data response =>
    let wireOutcome := appliedWireOutcome wire true true
    if wire = .closeBeforeData then
      pure { outcome := .transportAbort, closed := true, wireOutcome }
    else if wire = .suppressData then respond framing wire response none wireOutcome
    else do
      let bytes ← Send.ofExcept
        (encodeDataFrame (wireDataFraming wire framing) req.code transactionId data)
      Send.writeAll bytes
      respond framing wire response none wireOutcome
  | .dataStream source response completion =>
    let wireOutcome := appliedWireOutcome wire true true
    if wire = .closeBeforeData then
      pure { outcome := .transportAbort, closed := true, wireOutcome }
    else if wire = .suppressData then respond framing wire response none wireOutcome
    else do
      streamDataPhase overflowChecks disk (wireDataFraming wire framing) req.code
        transactionId source
      respond framing wire response completion wireOutcome
  | .noResponse =>
    pure { outcome := .timeout, wireOutcome := appliedWireOutcome wire false false }
  | .close =>
    pure { outcome := .transportAbort, closed := true
           wireOutcome := appliedWireOutcome wire false false }

/-! ### The copy loop -/

open Send

theorem ofExcept_ok {α : Type} (a : α) (w : List UInt8) : ofExcept (.ok a) w = .ok a w := rfl

theorem ofExcept_error {α : Type} (e : WireError) (w : List UInt8) :
    (Send.ofExcept (.error e) : Send α) w = .error e w := rfl

theorem writeAll_ok (bytes w : List UInt8) : writeAll bytes w = .ok () (w ++ bytes) := rfl

section Copying

variable {disk : Disk} {source : ByteSource}

/-- The source is copied up to its declared length or to its end, unless
reading at the end fails. -/
theorem copyChunks_cases : ∀ (n offset : ℕ) (written : List UInt8), source.len.toNat - offset = n →
    offset ≤ source.len.toNat → offset ≤ (source.content disk).length →
    copyChunks disk source offset written = .ok (min source.len.toNat (source.content disk).length)
        (written ++ ((source.content disk).take source.len.toNat).drop offset) ∨
      (source.content disk).length < source.len.toNat ∧ ∃ more,
        copyChunks disk source offset written = .error (.media .io) (written ++ more) := by
  intro n
  induction n using Nat.strong_induction_on with
  | _ n ih =>
    intro offset written hn ho ho'
    rw [copyChunks]
    by_cases hg : offset < source.len.toNat
    · rw [dif_pos hg]
      by_cases hm : offset < (source.content disk).length
      · have hmax : 0 < min (source.len.toNat - offset) dataChunkBytes := by
          have hpos : 0 < dataChunkBytes := by decide
          omega
        have hr := readChunk_content hm hg hmax
        set count := min (source.len.toNat - offset)
          (min (source.len.toNat - offset) dataChunkBytes) with hc
        -- the chunk and the rest make up what was left
        obtain ⟨rest, hrest⟩ : ((source.content disk).drop offset).take count <+:
            ((source.content disk).take source.len.toNat).drop offset := by
          rw [drop_take]
          exact take_prefix_take_left (by omega)
        set chunk := ((source.content disk).drop offset).take count with hch
        have hlen : chunk.length = min count ((source.content disk).length - offset) := by
          rw [hch, length_take, length_drop]
        have hdrop : ((source.content disk).take source.len.toNat).drop (offset + chunk.length) =
            rest := by rw [← drop_drop, ← hrest, drop_left]
        have hpos : ¬ chunk.length = 0 := by omega
        simp only [hr, dif_neg hpos]
        rcases ih (source.len.toNat - (offset + chunk.length)) (by omega) (offset + chunk.length)
          (written ++ chunk) rfl (by omega) (by omega) with h | ⟨hs, more, h⟩
        · left
          rw [h, hdrop, append_assoc, hrest]
        · exact .inr ⟨hs, chunk ++ more, by rw [h, append_assoc]⟩
      · have hend : offset = (source.content disk).length := by omega
        have hs : (source.content disk).length < source.len.toNat := by omega
        set count := min (source.len.toNat - offset) dataChunkBytes
        have hr : source.readChunk disk offset count = .ok [] ∨ _ :=
          readChunk_end (Nat.le_of_eq hend.symm)
        rcases hr with hr | hr
        · left
          simp only [hr]
          simp [hend, hs.le]
        · exact .inr ⟨hs, [], by simp [hr]⟩
    · left
      have hend : offset = source.len.toNat := by omega
      rw [dif_neg hg, hend, Nat.min_eq_left (by omega)]
      simp [drop_eq_nil_of_le]

theorem copyAll_full (hf : source.len.toNat ≤ (source.content disk).length) (written : List UInt8) :
    copyAll disk source written = .ok source.len.toNat
      (written ++ (source.content disk).take source.len.toNat) := by
  rcases copyChunks_cases _ 0 written rfl (Nat.zero_le _) (Nat.zero_le _) with h | ⟨hs, -⟩
  · rw [Nat.min_eq_left hf] at h
    exact h
  · omega

end Copying

/-! ### The data phase -/

section Streaming

variable (overflowChecks : Bool) {disk : Disk} (framing : WireFraming) (op : UInt16)
  (tid : UInt32) {source : ByteSource}

/-- What goes out before the header. -/
def announcement (total : UInt64) : List UInt8 :=
  match framing with
  | .standard => startDataBytes tid total
  | .compressed | .usb => []

theorem announce_ok (total : UInt64) (written : List UInt8) :
    announce framing tid total written = .ok () (written ++ announcement framing tid total) := by
  match framing with
  | .standard => rfl
  | .compressed | .usb =>
    rw [announcement, append_nil]
    rfl

theorem dataHeader_cases (payloadLen : UInt32) :
    dataHeader overflowChecks framing op tid payloadLen = .error .panicked ∨
      ∃ header, header ≠ [] ∧ dataHeader overflowChecks framing op tid payloadLen = .ok header := by
  match framing with
  | .standard =>
    by_cases ho : overflowChecks = true ∧ 2 ^ 32 ≤ payloadLen.toNat + 12
    · exact .inl (if_pos ho)
    · exact .inr ⟨_, by simp [leBytes], if_neg ho⟩
  | .compressed | .usb =>
    by_cases hf : payloadLen.toNat + 12 < 2 ^ 32
    · refine .inr ⟨_, ?_, by rw [dataHeader, dataFrameHeader, if_pos hf]⟩
      simp [leBytes]
    · left
      rw [dataHeader, dataFrameHeader, if_neg hf]

theorem dataHeader_fits {payload : List UInt8} (hf : 12 + payload.length < 2 ^ 32) :
    ∃ header, dataHeader overflowChecks framing op tid (UInt32.ofNat payload.length) = .ok header ∧
      encodeDataFrame framing op tid payload =
        .ok (announcement framing tid (UInt64.ofNat payload.length) ++ (header ++ payload)) := by
  have hcut : (UInt32.ofNat payload.length).toNat = payload.length := by
    rw [UInt32.toNat_ofNat', Nat.mod_eq_of_lt (by omega)]
  have hsum : UInt32.ofNat payload.length + 12 = UInt32.ofNat (12 + payload.length) := by
    rw [Nat.add_comm, UInt32.ofNat_add]
    rfl
  match framing with
  | .standard =>
    have ho : ¬ (overflowChecks = true ∧
        2 ^ 32 ≤ (UInt32.ofNat payload.length).toNat + 12) := by omega
    refine ⟨_, if_neg ho, ?_⟩
    rw [encodeDataFrame, encode_startData, encode_endData, hsum]
    rfl
  | .compressed =>
    obtain ⟨header, hh⟩ : ∃ header, dataFrameHeader op tid
        (UInt32.ofNat payload.length) = some header := ⟨_, if_pos (by omega)⟩
    refine ⟨header, by rw [dataHeader, hh], ?_⟩
    rw [encodeDataFrame, encodeData, hh]
    rfl
  | .usb =>
    obtain ⟨header, hh⟩ : ∃ header, dataFrameHeader op tid
        (UInt32.ofNat payload.length) = some header := ⟨_, if_pos (by omega)⟩
    have he : encodeData op tid payload = some (header ++ payload) := by
      rw [encodeData, hh]
      rfl
    refine ⟨header, by rw [dataHeader, hh], ?_⟩
    rw [encodeDataFrame, ← encodeData_eq he]
    rfl

/-- **A stream is written as the encoder would write its content.** -/
theorem streamDataPhase_full (hfi : 12 + source.len.toNat < 2 ^ 32)
    (hf : (source.content disk).length = source.len.toNat) (written : List UInt8) :
    ∃ bytes, encodeDataFrame framing op tid (source.content disk) = .ok bytes ∧
      streamDataPhase overflowChecks disk framing op tid source written =
        .ok () (written ++ bytes) := by
  have hlen : UInt64.ofNat (source.content disk).length = source.len := by
    rw [hf, UInt64.ofNat_toNat]
  have hlen32 : UInt32.ofNat (source.content disk).length = source.len.toUInt32 := by
    rw [hf]
    exact UInt32.ofNat_uInt64ToNat _
  have hr : 12 + (source.content disk).length < 2 ^ 32 := by omega
  obtain ⟨header, hh, he⟩ := dataHeader_fits overflowChecks framing op tid hr
  refine ⟨_, he, ?_⟩
  have hs : ¬ 2 ^ 32 ≤ source.len.toNat := by omega
  have hc := copyAll_full (Nat.le_of_eq hf.symm)
    (written ++ announcement framing tid source.len ++ header)
  rw [take_of_length_le (Nat.le_of_eq hf)] at hc
  rw [hlen32] at hh
  unfold streamDataPhase
  simp only [if_neg hs, hh]
  rw [bind_run_ok (announce_ok framing tid source.len written), bind_run_ok (ofExcept_ok header _),
    bind_run_ok (writeAll_ok header _), bind_run_ok hc, hlen, if_neg (not_not.mpr rfl)]
  simp only [append_assoc]
  rfl

theorem streamDataPhase_long (hl : 2 ^ 32 ≤ source.len.toNat) (written : List UInt8) :
    streamDataPhase overflowChecks disk framing op tid source written =
      .error (.io "data-phase payload exceeds a single frame (u32)") written := by
  unfold streamDataPhase
  rw [if_pos hl]
  rfl

/-- Apart from that it fails with something written, or succeeds with as many
bytes as were declared. -/
theorem streamDataPhase_cases (hsh : source.len.toNat < 2 ^ 32) (written : List UInt8) :
    (∃ written', streamDataPhase overflowChecks disk framing op tid source written =
      .error .panicked written') ∨
    (∃ e written', written' ≠ [] ∧ streamDataPhase overflowChecks disk framing op tid source
      written = .error e written') ∨
    ((∃ written', streamDataPhase overflowChecks disk framing op tid source written =
      .ok () written') ∧ source.len.toNat ≤ (source.content disk).length) := by
  have hs : ¬ 2 ^ 32 ≤ source.len.toNat := by omega
  unfold streamDataPhase
  simp only [if_neg hs]
  rw [bind_run_ok (announce_ok framing tid source.len written)]
  rcases dataHeader_cases overflowChecks framing op tid source.len.toUInt32 with
    hp | ⟨header, hne, hh⟩
  · left
    rw [hp]
    exact ⟨_, bind_run_error (ofExcept_error .panicked _)⟩
  · right
    rw [hh, bind_run_ok (ofExcept_ok header _), bind_run_ok (writeAll_ok header _)]
    have hw : ∀ more, written ++ announcement framing tid source.len ++ header ++ more ≠ [] := by
      simp [hne]
    by_cases hf : source.len.toNat ≤ (source.content disk).length
    · right
      rw [bind_run_ok (copyAll_full hf _), if_neg (not_not.mpr rfl)]
      exact ⟨⟨_, rfl⟩, hf⟩
    · left
      rcases copyChunks_cases _ 0 (written ++ announcement framing tid source.len ++ header) rfl
        (Nat.zero_le _) (Nat.zero_le _) with hc | ⟨-, more, hc⟩
      · have hl : min source.len.toNat (source.content disk).length ≠ source.len.toNat := by omega
        rw [bind_run_ok (m := copyAll disk source) hc, if_pos hl]
        exact ⟨_, _, hw _, rfl⟩
      · rw [bind_run_error (m := copyAll disk source) hc]
        exact ⟨_, _, hw more, rfl⟩

end Streaming

/-! ### The answers of the engine -/

/-- The response is one to the transaction, with at most one parameter. -/
def RespondsTo (tid : UInt32) : Reply → Prop
  | .response r | .data _ r | .dataStream _ r _ => r.transactionId = tid ∧ r.params.length ≤ 1
  | .noResponse | .close => True

variable {tid : UInt32} {reply : Reply} {req : OperationRequest}

theorem respondsTo_of_plain (h : Engine.Plain tid reply) : RespondsTo tid reply := by
  cases h <;> simp [RespondsTo, Reply.err, Reply.ofData, Reply.ofStream]

theorem camera_respondsTo {e e' : Engine}
    (h : e.cameraInitiatedOperationReply req = some (reply, e')) :
    RespondsTo req.transactionId reply := by
  obtain ⟨transfer, -, h⟩ := bind_eq_some_iff.mp h
  rcases or_eq_some_iff.mp h with h | ⟨-, h⟩
  · obtain ⟨-, ⟨⟩⟩ := ite_none_right_eq_some.mp h
    exact respondsTo_of_plain Engine.cameraInitiatedMetadataReply_isPlain
  · obtain ⟨-, ⟨⟩⟩ := ite_none_right_eq_some.mp h
    unfold Engine.cameraInitiatedDataReply
    repeat' split
    all_goals exact ⟨rfl, by simp⟩

theorem mutateReply_respondsTo {manifest : Config.CameraManifest} {mutation : Sim.FaultMutation}
    (h : RespondsTo tid reply) :
    RespondsTo tid (Engine.mutateReply manifest req mutation reply) := by
  cases mutation with
  | truncateData keep => cases reply <;> exact h
  | replaceData bytes => cases reply <;> exact h
  | suppress stage => cases stage <;> cases reply <;> first | exact h | trivial
  | propertyReadback value =>
    change RespondsTo tid (Engine.replacePropertyReadback manifest req reply value)
    unfold Engine.replacePropertyReadback
    dsimp only
    split
    · split <;> exact h
    · exact h
  | _ => exact h

theorem preempted_respondsTo {mutation : Sim.FaultMutation}
    (h : Engine.preempted tid mutation = some reply) : RespondsTo tid reply := by
  cases mutation with
  | failResponse response =>
    cases h
    exact ⟨rfl, Nat.zero_le 1⟩
  | close stage =>
    cases stage <;> cases h
    trivial
  | _ => cases h

/-- Whatever the engine answers, it answers the request. -/
theorem onOperation_respondsTo (e : Engine) (req : OperationRequest)
    (dataIn : Option (List UInt8)) : RespondsTo req.transactionId (e.onOperation req dataIn).1 := by
  have hd : RespondsTo req.transactionId (e.dispatched req dataIn).1 := by
    unfold Engine.dispatched
    split
    · rename_i reply hr
      obtain ⟨mutation, -, hp⟩ := bind_eq_some_iff.mp hr
      exact preempted_respondsTo hp
    · rw [Engine.dispatchOperation_eq]
      apply Engine.route_cases (P := fun r => RespondsTo req.transactionId r.1.reply)
      case hcamera => exact fun _ _ hr => camera_respondsTo hr
      case hhandle => exact fun _ _ _ => respondsTo_of_plain Engine.handle_isPlain
      case hgate => trivial
      all_goals intros; exact ⟨rfl, Nat.zero_le 1⟩
  rw [Engine.onOperation_eq]
  split
  · exact mutateReply_respondsTo hd
  · exact hd

/-! ### What is on the wire -/

/-- The packets of a reply. -/
def replyPackets (tid : UInt32) : Reply → List PtpIpPacket
  | .response response => [.operationResponse response]
  | .data data response => dataPhase framing tid data ++ [.operationResponse response]
  | .dataStream source response _ =>
    dataPhase framing tid (source.content disk) ++ [.operationResponse response]
  | .noResponse | .close => []

/-- What was written splits into frames that carry the packets, or there was
an error before anything was written. -/
def WrittenInFull (packets : List PtpIpPacket) :
    EStateM.Result WireError (List UInt8) WrittenReply → Prop
  | .ok _ written =>
    ∃ frames, split (2 ^ 32) written = (frames, .closed) ∧ CarryPackets framing frames packets
  | .error e written => e ≠ .panicked ∧ written = []

/-- The payload leaves room for the header in a length word, and a source
holds what it declares; a source that declares `2 ^ 32` bytes or more is
refused. -/
def FitsFrame : Reply → Prop
  | .data data _ => 12 + data.length < 2 ^ 32
  | .dataStream source _ _ => 2 ^ 32 ≤ source.len.toNat ∨
      (12 + source.len.toNat < 2 ^ 32 ∧ (source.content disk).length = source.len.toNat)
  | .response _ | .noResponse | .close => True

section Replies

variable (overflowChecks : Bool) (disk : Disk) (framing : WireFraming) (req : OperationRequest)
  {response : OperationResponse}

theorem respond_ok (hb : response.params.length ≤ 1) (completion : Option StreamCompletion)
    (outcome : Option String) (written : List UInt8) :
    ∃ report bytes, respond framing .none response completion outcome written =
        .ok report (written ++ bytes) ∧
      CarryPackets framing [bytes] [.operationResponse response] := by
  obtain ⟨bytes, he, hd⟩ := encodeControlFrame_response framing (r := response) (by omega)
  refine ⟨{ response := some (response.code, response.params)
            outcome := responseOutcome response.code, completion, wireOutcome := outcome },
    bytes, ?_, ?_⟩
  · change (do
      let bytes ← Send.ofExcept (encodeControlFrame framing (.operationResponse response))
      writeAll bytes
      pure _ : Send WrittenReply) written = _
    rw [he, bind_run_ok (ofExcept_ok bytes _), bind_run_ok (writeAll_ok bytes _)]
    rfl
  · simp only [CarryPackets, map_cons, map_nil, hd]

theorem written_of_phase {frames : List (List UInt8)} {tid : UInt32} {payload : List UInt8}
    (hp : CarryPackets framing frames (dataPhase framing tid payload))
    (hb : response.params.length ≤ 1) (completion : Option StreamCompletion)
    (outcome : Option String) :
    WrittenInFull framing (dataPhase framing tid payload ++ [.operationResponse response])
      (respond framing .none response completion outcome frames.flatten) := by
  obtain ⟨report, bytes, hr, hc⟩ := respond_ok framing hb completion outcome frames.flatten
  have hall := hp.append hc
  have hf : frames.flatten ++ bytes = (frames ++ [bytes]).flatten := by simp
  rw [hr, hf]
  exact ⟨_, hall.split_flatten, hall⟩

theorem fits_of_written {tid : UInt32} {payload : List UInt8} {packets : List PtpIpPacket}
    {report : WrittenReply} {written : List UInt8}
    (h : WrittenInFull framing (dataPhase framing tid payload ++ packets) (.ok report written)) :
    12 + payload.length < 2 ^ 32 := by
  obtain ⟨frames, -, hc⟩ := h
  exact length_of_payload hc

theorem data_written_iff {data : List UInt8} (hb : response.params.length ≤ 1) :
    WrittenInFull framing (replyPackets disk framing req.transactionId (.data data response))
      (writeReply overflowChecks disk framing .none req (.data data response) []) ↔
      12 + data.length < 2 ^ 32 := by
  change WrittenInFull framing (dataPhase framing req.transactionId data ++ _)
    ((do
      let bytes ← Send.ofExcept (encodeDataFrame framing req.code req.transactionId data)
      writeAll bytes
      respond framing .none response none none : Send WrittenReply) []) ↔ _
  constructor
  · intro hw
    rcases he : encodeDataFrame framing req.code req.transactionId data with e | bytes
    · rw [he, bind_run_error (ofExcept_error e _)] at hw
      exact absurd (encodeDataFrame_error he) hw.1
    · rw [he, bind_run_ok (ofExcept_ok bytes _), bind_run_ok (writeAll_ok bytes _)] at hw
      obtain ⟨report, bytes', hr, -⟩ := respond_ok framing hb none none ([] ++ bytes)
      rw [hr] at hw
      exact fits_of_written framing hw
  · intro hf
    have hc := dataFrames_carries framing req.code req.transactionId hf
    rw [encodeDataFrame_fits framing req.code req.transactionId hf,
      bind_run_ok (ofExcept_ok _ _), bind_run_ok (writeAll_ok _ _), nil_append]
    exact written_of_phase framing hc hb none none

theorem stream_written_iff {source : ByteSource} (hb : response.params.length ≤ 1)
    (completion : Option StreamCompletion) :
    WrittenInFull framing
        (replyPackets disk framing req.transactionId (.dataStream source response completion))
        (writeReply overflowChecks disk framing .none req
          (.dataStream source response completion) []) ↔
      2 ^ 32 ≤ source.len.toNat ∨
        (12 + source.len.toNat < 2 ^ 32 ∧ (source.content disk).length = source.len.toNat) := by
  change WrittenInFull framing (dataPhase framing req.transactionId (source.content disk) ++ _)
    ((do
      streamDataPhase overflowChecks disk framing req.code req.transactionId source
      respond framing .none response completion none : Send WrittenReply) []) ↔ _
  by_cases hl : 2 ^ 32 ≤ source.len.toNat
  · rw [bind_run_error
      (streamDataPhase_long overflowChecks framing req.code req.transactionId hl [])]
    exact ⟨fun _ => .inl hl, fun _ => ⟨by simp, rfl⟩⟩
  constructor
  · intro hw
    right
    have hca := @streamDataPhase_cases overflowChecks disk framing req.code req.transactionId
      source (Nat.lt_of_not_le hl) []
    rcases hca with ⟨written, hp⟩ | ⟨e, written, hne, her⟩ | ⟨⟨written, hok⟩, hfu⟩
    · rw [bind_run_error hp] at hw
      exact absurd rfl hw.1
    · rw [bind_run_error her] at hw
      exact absurd hw.2 hne
    · obtain ⟨report, bytes, hre, -⟩ := respond_ok framing hb completion none written
      rw [bind_run_ok hok, hre] at hw
      have hf := fits_of_written framing hw
      have hso : (source.content disk).length < 2 ^ 64 := by omega
      have hle : (source.content disk).length ≤ source.len.toNat :=
        content_length_le (fits_of_content hso)
      exact ⟨by omega, by omega⟩
  · rintro (h | ⟨hf, hfu⟩)
    · exact absurd h hl
    · obtain ⟨bytes, he, hs⟩ := streamDataPhase_full overflowChecks framing req.code
        req.transactionId hf hfu []
      have hr : 12 + (source.content disk).length < 2 ^ 32 := by omega
      have hc := dataFrames_carries framing req.code req.transactionId hr
      rw [encodeDataFrame_fits framing req.code req.transactionId hr] at he
      rw [bind_run_ok hs, nil_append, ← Except.ok.inj he]
      exact written_of_phase framing hc hb completion none

theorem writeReply_iff {tid : UInt32} {reply : Reply} (hb : RespondsTo tid reply) :
    WrittenInFull framing (replyPackets disk framing req.transactionId reply)
      (writeReply overflowChecks disk framing .none req reply []) ↔ FitsFrame disk reply := by
  match reply with
  | .response response =>
    obtain ⟨report, bytes, hr, hc⟩ := respond_ok framing hb.2 none none []
    refine iff_of_true ?_ trivial
    change WrittenInFull framing [.operationResponse response]
      (respond framing .none response none none [])
    rw [hr]
    have hby : [] ++ bytes = [bytes].flatten := by simp
    rw [hby]
    exact ⟨_, hc.split_flatten, hc⟩
  | .data data response => exact data_written_iff overflowChecks disk framing req hb.2
  | .dataStream source response completion =>
    exact stream_written_iff overflowChecks disk framing req hb.2 completion
  | .noResponse => exact iff_of_true ⟨[], split_nil _, rfl⟩ trivial
  | .close => exact iff_of_true ⟨[], split_nil _, rfl⟩ trivial

end Replies

/-- **When a reply is written as its packets.** For every engine and request,
every framing and whatever the files hold: without a wire fault the answer is
on the wire as its data phase and its response, frame by frame, or it is
refused before anything is written, if and only if its payload leaves room for
the header in a length word, and a source that is streamed holds what it
declares; a source that declares `2 ^ 32` bytes or more is among the refused
ones. -/
theorem reply_written_iff (e : Engine) (req : OperationRequest) (dataIn : Option (List UInt8))
    (overflowChecks : Bool) (disk : Disk) (framing : WireFraming) :
    let reply := (e.onOperation req dataIn).1
    WrittenInFull framing (replyPackets disk framing req.transactionId reply)
      (writeReply overflowChecks disk framing .none req reply []) ↔ FitsFrame disk reply :=
  writeReply_iff overflowChecks disk framing req (onOperation_respondsTo e req dataIn)

/-- A card with one object of `2 ^ 32 - 1` bytes, all of them zero. -/
def largeCard : MediaStore where
  entries := [⟨1, ["large.mov"], 0, false, 0xffffffff, Fmt.mov⟩]
  rafThumbnail := fun _ => .error .noPreview
  ordered := by decide

def largeDisk : Disk := fun _ => some (List.replicate 0xffffffff 0)

def largeEngine : Engine :=
  (Engine.onOperation (Engine.new { camera := ⟨"", "", "", []⟩ } largeCard)
    ⟨1, Op.openSession, 1, [1]⟩ none).2

def getLarge : OperationRequest := ⟨1, Op.getObject, 2, [1]⟩

/-- The largest object that `GetObject` serves is not written: with overflow
checks the service panics after StartData, and without them the length word of
EndData wraps around to 11. -/
theorem largest_object_not_written :
    let reply := (largeEngine.onOperation getLarge none).1
    reply = .ofStream 2 (.fileRange ["large.mov"] 0 0xffffffff) ∧
    (content largeDisk (.fileRange ["large.mov"] 0 0xffffffff)).length = 0xffffffff ∧
    (∀ overflowChecks,
      ¬ WrittenInFull .standard (replyPackets largeDisk .standard 2 reply)
        (writeReply overflowChecks largeDisk .standard .none getLarge reply [])) ∧
    dataHeader true .standard Op.getObject 2 0xffffffff = .error .panicked ∧
    dataHeader false .standard Op.getObject 2 0xffffffff =
      .ok [11, 0, 0, 0, 12, 0, 0, 0, 2, 0, 0, 0] := by
  have hr : (largeEngine.onOperation getLarge none).1 =
      .ofStream 2 (.fileRange ["large.mov"] 0 0xffffffff) := by decide +kernel
  have hlen : (fileRange ["large.mov"] 0 0xffffffff).len.toNat = 0xffffffff := rfl
  refine ⟨hr, ?_, fun overflowChecks hw => ?_, by decide, by decide⟩
  · have hf : (largeDisk ["large.mov"]).getD [] = List.replicate 0xffffffff 0 := rfl
    rw [content, hf, length_take, length_drop, length_replicate]
    rfl
  · rw [hr] at hw
    have hb : (⟨Resp.ok, 2, []⟩ : OperationResponse).params.length ≤ 1 := Nat.zero_le 1
    have hfi := (stream_written_iff overflowChecks largeDisk .standard getLarge hb none).mp hw
    omega

end Ptpsim.Service
