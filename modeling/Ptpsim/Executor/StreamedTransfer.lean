/-
# What a streamed transfer leaves behind

Which bytes a run has taken from the command stream decides everything that
can be said about its end. If they are a data frame and a response, or a
response alone, the session is in order; in every other case in which the
command was on its way, it is invalidated (`invalidated_iff`). How the bytes
were cut into pieces makes no difference (`agree_run`), since every read asks
for a number of bytes and gets as many pieces as it takes (`readExact_cases`,
`readExact_delivers`).
-/
import Ptpsim.Executor.Streaming

namespace Ptpsim.Executor

open Codec Ptpsim.Core Primitives Service List
open Interrupt hiding Exec
open Sim (WireFraming)

/-! ### Frames -/

structure IsDataFrame (operation : UInt16) (transactionId : UInt32) (frame : List UInt8) :
    Prop where
  header : headerBytes ≤ frame.length
  length : declaredLength frame = frame.length
  type : packetType frame = 2
  operation : echoedOperation frame = operation
  transaction : echoedTransaction frame = transactionId

/-- A complete response of the transaction. -/
def IsResponse (framing : WireFraming) (transactionId : UInt32) (frame : List UInt8) : Prop :=
  validResponseLength frame.length = true ∧
    ∃ response, decodeResponse framing frame transactionId = .ok response

/-- The bytes are a response, perhaps with a data frame before it. -/
def Complete (framing : WireFraming) (operation : UInt16) (transactionId : UInt32)
    (bytes : List UInt8) : Prop :=
  ∃ data frame, bytes = data ++ frame ∧
    (data = [] ∨ IsDataFrame operation transactionId data) ∧ IsResponse framing transactionId frame

variable {response : OperationResponse}

theorem decodeResponse_ok {framing : WireFraming} {frame : List UInt8} {transactionId : UInt32}
    (h : decodeResponse framing frame transactionId = .ok response) :
    frameDecode framing frame = .ok (.operationResponse response) ∧
      response.transactionId = transactionId := by
  unfold decodeResponse at h
  split at h
  case h_1 response' hd =>
    split at h
    · cases h
    case isFalse htid =>
      cases h
      exact ⟨hd, not_not.mp htid⟩
  · cases h
  · cases h

theorem containerType_of_response {body : UInt16 → UInt16 → UInt32 → Decoder PtpIpPacket}
    {bytes : List UInt8}
    (hb : ∀ type code tid r r', body type code tid r = .ok (.operationResponse response, r') →
      type = 3) (h : decodeFrame body bytes = .ok (.operationResponse response)) :
    containerType bytes = some 3 := by
  by_contra hty
  let body' : UInt16 → UInt16 → UInt32 → Decoder PtpIpPacket := fun type code tid =>
    if type = 3 then throw (.unknownPacketType 3) else body type code tid
  have hc : decodeFrame body bytes = decodeFrame body' bytes := by
    refine decodeFrame_congr fun type hf => ?_
    have hne : type ≠ 3 := by
      rintro rfl
      exact hty hf
    simp [body', hne]
  rw [hc] at h
  obtain ⟨⟨type, code, tid, r, r', hrun, -⟩, -⟩ := container_decode_ok h
  by_cases ht : type = 3
  · simp only [body', ht, if_pos] at hrun
    cases hrun
  · simp only [body', ht, if_false] at hrun
    exact ht (hb type code tid r r' hrun)

theorem paramsBody_ok {g : List UInt32 → PtpIpPacket} {r r' : Reader} {packet : PtpIpPacket}
    (h : (do let params ← remainingParams; pure (g params) : Decoder PtpIpPacket) r =
      .ok (packet, r')) : ∃ params, packet = g params := by
  obtain ⟨params, r₁, -, h⟩ := bind_ok h
  cases h
  exact ⟨params, rfl⟩

theorem dataBody_ok {tid : UInt32} {r r' : Reader} {packet : PtpIpPacket}
    (h : dataBody tid r = .ok (packet, r')) : ∃ payload, packet = .data ⟨tid, payload⟩ := by
  obtain ⟨payload, r₁, -, h⟩ := bind_ok h
  cases h
  exact ⟨payload, rfl⟩

theorem packetType_of_containerType {bytes : List UInt8} (h : containerType bytes = some 3) :
    packetType bytes = 3 := by
  unfold containerType at h
  split at h
  · exact Option.some.inj h
  · cases h

theorem response_facts {framing : WireFraming} (hf : framing ≠ .standard) {frame : List UInt8}
    (h : frameDecode framing frame = .ok (.operationResponse response)) :
    declaredLength frame = frame.length ∧ packetType frame = 3 := by
  cases framing with
  | standard => exact absurd rfl hf
  | compressed =>
    refine ⟨(container_decode_ok h).2, packetType_of_containerType
      (containerType_of_response (fun type code tid r r' hrun => ?_) h)⟩
    unfold FujiFraming.decodeBody at hrun
    split at hrun
    · obtain ⟨params, hp⟩ := paramsBody_ok hrun
      cases hp
    split at hrun
    · assumption
    split at hrun
    · obtain ⟨payload, hpa⟩ := dataBody_ok hrun
      cases hpa
    · cases hrun
  | usb =>
    refine ⟨(container_decode_ok h).2, packetType_of_containerType
      (containerType_of_response (fun type code tid r r' hrun => ?_) h)⟩
    unfold UsbPtp.decodeBody at hrun
    split at hrun
    · obtain ⟨params, hp⟩ := paramsBody_ok hrun
      cases hp
    split at hrun
    · assumption
    split at hrun
    · obtain ⟨params, hp⟩ := paramsBody_ok hrun
      cases hp
    split at hrun
    · obtain ⟨payload, hpa⟩ := dataBody_ok hrun
      cases hpa
    · cases hrun

section Frames

variable {framing : WireFraming} {operation : UInt16} {tid : UInt32}
    {bytes data frame rest : List UInt8}

theorem validResponseLength_iff {n : ℕ} : validResponseLength n = true ↔
    headerBytes ≤ n ∧ n ≤ maxResponseBytes ∧ (n - headerBytes) % 4 = 0 := by
  simp [validResponseLength]

theorem IsResponse.facts (hf : framing ≠ .standard) (h : IsResponse framing tid frame) :
    headerBytes ≤ frame.length ∧ declaredLength frame = frame.length ∧ packetType frame = 3 := by
  obtain ⟨hv, response, hd⟩ := h
  exact ⟨(validResponseLength_iff.mp hv).1, response_facts hf (decodeResponse_ok hd).1⟩

theorem header_append {start n : ℕ} (hf : start + n ≤ headerBytes)
    (h : headerBytes ≤ data.length) (rest : List UInt8) :
    ((data ++ rest).drop start).take n = (data.drop start).take n := by
  rw [drop_append_of_le_length (by omega), take_append_of_le_length (by rw [length_drop]; omega)]

theorem declaredLength_append (h : headerBytes ≤ data.length) (rest : List UInt8) :
    declaredLength (data ++ rest) = declaredLength data := by
  unfold declaredLength
  rw [take_append_of_le_length (by unfold headerBytes at h; omega)]

theorem packetType_append (h : headerBytes ≤ data.length) (rest : List UInt8) :
    packetType (data ++ rest) = packetType data := by
  unfold packetType
  rw [header_append (by decide) h]

theorem isDataFrame_append (h : data.length = headerBytes)
    (hl : declaredLength data = headerBytes + rest.length) (ht : packetType data = 2)
    (ho : echoedOperation data = operation) (htid : echoedTransaction data = tid) :
    IsDataFrame operation tid (data ++ rest) where
  header := by rw [length_append]; omega
  length := by rw [declaredLength_append h.ge, hl, length_append, h]
  type := by rw [packetType_append h.ge, ht]
  operation := by rw [← ho, echoedOperation, header_append (by decide) h.ge, echoedOperation]
  transaction := by
    rw [← htid, echoedTransaction, header_append (by decide) h.ge, echoedTransaction]

/-- Bytes that begin like a response are complete as one only. -/
theorem complete_bare (ht : packetType bytes = 3) :
    Complete framing operation tid bytes ↔ IsResponse framing tid bytes := by
  constructor
  · rintro ⟨data, frame, rfl, rfl | hd, hr⟩
    · exact hr
    · rw [packetType_append hd.header, hd.type] at ht
      cases ht
  · exact fun h => ⟨[], bytes, rfl, .inl rfl, h⟩

/-- Behind a data frame there has to be a response. -/
theorem complete_data (hf : framing ≠ .standard) (hd : IsDataFrame operation tid data) :
    Complete framing operation tid (data ++ rest) ↔ IsResponse framing tid rest := by
  constructor
  · rintro ⟨data', frame, hs, rfl | hd', hr⟩
    · have ht := (hr.facts hf).2.2
      rw [nil_append] at hs
      rw [← hs, packetType_append hd.header, hd.type] at ht
      cases ht
    · have hl : data'.length = data.length := by
        rw [← hd'.length, ← hd.length, ← declaredLength_append hd'.header frame, ← hs,
          declaredLength_append hd.header]
      rw [(append_inj hs hl.symm).2]
      exact hr
  · exact fun h => ⟨data, rest, rfl, .inr hd, h⟩

theorem not_complete_within (hf : framing ≠ .standard) (ht : packetType bytes ≠ 3)
    (hh : headerBytes ≤ bytes.length) (hs : bytes.length ≤ declaredLength bytes) :
    ¬ Complete framing operation tid bytes := by
  rintro ⟨data, frame, rfl, rfl | hd, hr⟩
  · exact ht (hr.facts hf).2.2
  · have hfr := (hr.facts hf).1
    rw [declaredLength_append hd.header, hd.length, length_append] at hs
    unfold headerBytes at hfr
    omega

theorem not_complete_short (hf : framing ≠ .standard) (hs : bytes.length < headerBytes) :
    ¬ Complete framing operation tid bytes := by
  rintro ⟨data, frame, rfl, -, hr⟩
  have hfr := (hr.facts hf).1
  rw [length_append] at hs
  omega

end Frames

/-! ### What is read -/

section Reads

variable {τ ρ : Type} {transport : StreamTransport τ} {sink : StreamSink ρ} {stage : String}

/-- The command write has been started. -/
def StreamCtx.Sent (c : StreamCtx τ ρ) : Prop := ∃ frame, .sendCommandFrame frame ∈ c.asked

/-- Bytes were taken from the command stream; the guard is as it was. -/
structure Took (part : List UInt8) (c c' : StreamCtx τ ρ) : Prop where
  consumed : c'.consumed = c.consumed ++ part
  armed : c'.armed = c.armed
  invalidated : c'.invalidated = c.invalidated
  sent : c'.Sent ↔ c.Sent

theorem Took.append {part part' : List UInt8} {c c₁ c₂ : StreamCtx τ ρ} (h : Took part c c₁)
    (h' : Took part' c₁ c₂) : Took (part ++ part') c c₂ where
  consumed := by rw [h'.consumed, h.consumed, append_assoc]
  armed := h'.armed.trans h.armed
  invalidated := h'.invalidated.trans h.invalidated
  sent := h'.sent.trans h.sent

theorem took_nil (c : StreamCtx τ ρ) : Took [] c c := ⟨by simp, rfl, rfl, Iff.rfl⟩

/-- The bytes that the transport gives on the way from one state to another. -/
inductive StreamTransport.Gives (transport : StreamTransport τ) : τ → List UInt8 → τ → Prop
  | nil (t : τ) : Gives transport t [] t
  | piece {t t' next : τ} {n : UInt32} {chunk part : List UInt8}
      (h : transport.answer (.receiveCommandBytes n) t = (.reply (.ok chunk), next))
      (rest : Gives transport next part t') : Gives transport t (chunk ++ part) t'
  | other {t t' : τ} {r : StreamRequest} {part : List UInt8}
      (h : ∀ n, r ≠ .receiveCommandBytes n)
      (rest : Gives transport (transport.answer r t).2 part t') : Gives transport t part t'

theorem StreamTransport.Gives.append {t t₁ t₂ : τ} {part part' : List UInt8}
    (h : transport.Gives t part t₁) (h' : transport.Gives t₁ part' t₂) :
    transport.Gives t (part ++ part') t₂ := by
  induction h with
  | nil => exact h'
  | piece ha _ ih =>
    rw [append_assoc]
    exact .piece ha (ih h')
  | other hr _ ih => exact .other hr (ih h')

/-- The bytes taken since are what the transport has given. -/
def Drawn (transport : StreamTransport τ) (c c' : StreamCtx τ ρ) : Prop :=
  ∃ part, c'.consumed = c.consumed ++ part ∧ transport.Gives c.transport part c'.transport

theorem Drawn.trans {c c₁ c₂ : StreamCtx τ ρ} (h : Drawn transport c c₁)
    (h' : Drawn transport c₁ c₂) : Drawn transport c c₂ := by
  obtain ⟨part, hc, hg⟩ := h
  obtain ⟨part', hc', hg'⟩ := h'
  exact ⟨part ++ part', by rw [hc', hc, append_assoc], hg.append hg'⟩

/-- The sink takes the calls one after the other, each with success. -/
def StreamSink.Takes (sink : StreamSink ρ) : List SinkCall → ρ → ρ → Prop
  | [], r, r' => r' = r
  | call :: calls, r, r' =>
    ∃ next, sink.answer call r = (.reply (.ok ()), next) ∧ sink.Takes calls next r'

/-- What the answer of the transport comes to. -/
def decided {α : Type} (stage : String) : HostAnswer (Except TransportError α) →
    Except (Stop StreamingError (Except TransportError Unit)) α
  | .reply (.ok a) => .ok a
  | .reply (.error e) => .error (.failed (.transport e))
  | .clock 0 (.ok ()) => .error (.failed (.deadlineExceeded stage))
  | .clock 0 (.error e) => .error (.failed (.transport e))
  | .clock (level + 1) result => .error (.dropped level result)

section Answer

variable {r : StreamRequest} {c : StreamCtx τ ρ}
  {answer : HostAnswer (Except TransportError r.Reply)} {next : τ}

theorem withDeadline_eq (ha : transport.answer r c.transport = (answer, next)) :
    withDeadline transport r stage c = (ofExcept (decided stage answer) : StreamExec τ ρ r.Reply)
      { c with asked := c.asked ++ [r], transport := next } := by
  rcases answer with (e | a) | ⟨_ | level, e | ⟨⟩⟩
  all_goals
    simp only [withDeadline, race, bind, EStateM.bind, ask, ha]
    rfl

variable (transport stage c) in
theorem withDeadline_meets (r : StreamRequest) :
    Meets (fun a c' => ∃ next, transport.answer r c.transport = (.reply (.ok a), next) ∧
        c' = { c with asked := c.asked ++ [r], transport := next })
      (fun c' => ∃ next, c' = { c with asked := c.asked ++ [r], transport := next })
      (withDeadline transport r stage c) := by
  rcases ha : transport.answer r c.transport with ⟨answer, next⟩
  rw [withDeadline_eq ha]
  rcases answer with (e | a) | ⟨_ | level, e | ⟨⟩⟩
  case reply.ok => exact ⟨next, rfl, rfl⟩
  all_goals exact ⟨next, rfl⟩

end Answer

theorem took_receive (maxBytes : UInt32) (c : StreamCtx τ ρ) (next : τ) : Took [] c
    { c with asked := c.asked ++ [.receiveCommandBytes maxBytes], transport := next } where
  consumed := by simp
  armed := rfl
  invalidated := rfl
  sent := by simp [StreamCtx.Sent]

theorem took_chunk (maxBytes : UInt32) (c : StreamCtx τ ρ) (next : τ) (chunk : List UInt8) :
    Took chunk c { c with
      asked := c.asked ++ [.receiveCommandBytes maxBytes]
      transport := next
      consumed := c.consumed ++ chunk } :=
  ⟨rfl, rfl, rfl, (took_receive maxBytes c next).sent⟩

/-- A read gives all that was asked for, or stops before it has it. -/
theorem readPieces_meets (transport : StreamTransport τ) (stage : String) :
    ∀ (fuel remaining : ℕ) (bytes : List UInt8) (c : StreamCtx τ ρ), remaining ≤ fuel →
      Meets (fun got c' => ∃ part, got = bytes ++ part ∧ part.length = remaining ∧ Took part c c' ∧
          c'.sink = c.sink ∧ transport.Gives c.transport part c'.transport)
        (fun c' => ∃ part, part.length < remaining ∧ Took part c c')
        (readPieces transport stage fuel remaining bytes c)
  | fuel, 0, bytes, c, _ => by
    simp only [readPieces]
    exact ⟨[], by simp, rfl, took_nil c, rfl, .nil _⟩
  | 0, remaining + 1, _, _, h => absurd h (by omega)
  | fuel + 1, remaining + 1, bytes, c, hfu => by
    unfold readPieces
    refine (withDeadline_meets transport stage c _).bind ?_ ?_
    · rintro chunk _ ⟨next, ha, rfl⟩
      split
      case isTrue => exact ⟨[], by simp, took_receive _ c next⟩
      case isFalse he =>
      split
      case isTrue => exact ⟨[], by simp, took_receive _ c next⟩
      case isFalse hf =>
        have hpos : 0 < chunk.length := length_pos_iff.mpr (by simpa using he)
        refine (readPieces_meets transport stage fuel (remaining + 1 - chunk.length)
          (bytes ++ chunk) _ (by omega)).mono ?_ ?_
        · rintro _ c' ⟨part, rfl, hl, ht, hs, hg⟩
          exact ⟨chunk ++ part, append_assoc .., by rw [length_append]; omega,
            (took_chunk _ c next chunk).append ht, hs, .piece ha hg⟩
        · rintro c' ⟨part, hl, ht⟩
          exact ⟨chunk ++ part, by rw [length_append]; omega, (took_chunk _ c next chunk).append ht⟩
    · rintro _ ⟨next, rfl⟩
      exact ⟨[], by simp, took_receive _ c next⟩

variable (transport stage) in
theorem readExact_meets (n : ℕ) (c : StreamCtx τ ρ) :
    Meets (fun part c' => part.length = n ∧ Took part c c' ∧ c'.sink = c.sink ∧
      Drawn transport c c')
      (fun c' => ∃ part, part.length < n ∧ Took part c c') (readExact transport n stage c) := by
  refine (readPieces_meets transport stage n n [] c le_rfl).mono ?_ fun _ h => h
  rintro _ c' ⟨part, rfl, hl, ht, hs, hg⟩
  exact ⟨hl, ht, hs, _, ht.consumed, hg⟩

theorem tell_meets (sink : StreamSink ρ) (call : SinkCall) (c : StreamCtx τ ρ) :
    Meets (fun _ c' => Took [] c c' ∧ sink.answer call c.sink = (.reply (.ok ()), c'.sink) ∧
        c'.transport = c.transport) (Took [] c)
      (tell sink call c) := by
  have ht : ∀ next, Took [] c { c with sink := next } := fun _ => ⟨by simp, rfl, rfl, Iff.rfl⟩
  simp only [tell]
  rcases sink.answer call c.sink with ⟨(detail | ⟨⟩) | ⟨level, clock⟩, next⟩
  · exact ht next
  · exact ⟨ht next, rfl, rfl⟩
  · exact ht next

theorem Took.drawn {c c' : StreamCtx τ ρ} (h : Took [] c c') (ht : c'.transport = c.transport) :
    Drawn transport c c' :=
  ⟨[], h.consumed, ht ▸ .nil _⟩

/-- The payload is passed on to the sink as it is read. -/
theorem streamBody_meets (transport : StreamTransport τ) (sink : StreamSink ρ) :
    ∀ (fuel remaining : ℕ) (c : StreamCtx τ ρ), remaining ≤ fuel →
      Meets (fun _ c' => ∃ chunks : List (List UInt8), chunks.flatten.length = remaining ∧
          Took chunks.flatten c c' ∧ sink.Takes (chunks.map .write) c.sink c'.sink ∧
          Drawn transport c c')
        (fun c' => ∃ part, part.length ≤ remaining ∧ Took part c c')
        (streamBody transport sink fuel remaining c)
  | fuel, 0, c, _ => by
    simp only [streamBody]
    exact ⟨[], rfl, took_nil c, rfl, (took_nil c).drawn rfl⟩
  | 0, remaining + 1, _, h => absurd h (by omega)
  | fuel + 1, remaining + 1, c, hfu => by
    have hch : 0 < maxStreamChunk := by decide
    refine (readExact_meets transport _ _ c).bind (fun chunk c₁ ⟨hl, ht, hs, hdr⟩ => ?_)
      fun c₁ ⟨part, hl, ht⟩ => ⟨part, by omega, ht⟩
    refine (tell_meets sink (.write chunk) c₁).bind (fun _ c₂ ⟨hte, hans, htr⟩ => ?_)
      fun c₂ hte => ⟨_, by simp; omega, ht.append hte⟩
    have ht₂ := ht.append hte
    rw [append_nil] at ht₂
    refine (streamBody_meets transport sink fuel _ c₂ (by omega)).mono ?_ ?_
    · rintro _ c' ⟨chunks, hl', ht', hta, hdr'⟩
      exact ⟨chunk :: chunks, by rw [flatten_cons, length_append]; omega, ht₂.append ht',
        ⟨c₂.sink, hs ▸ hans, hta⟩, (hdr.trans (hte.drawn htr)).trans hdr'⟩
    · rintro c' ⟨part, hl', ht'⟩
      exact ⟨chunk ++ part, by rw [length_append]; omega, ht₂.append ht'⟩

end Reads

/-! ### The guard -/

section Guard

variable {τ ρ : Type} {transport : StreamTransport τ} {sink : StreamSink ρ} {framing : WireFraming}
  {operation : UInt16} {tid : UInt32}

/-- The guard is disarmed just if a complete response has been read. -/
structure Settles (framing : WireFraming) (operation : UInt16) (tid : UInt32)
    (c c' : StreamCtx τ ρ) :
    Prop where
  armed : c'.armed = false ↔ Complete framing operation tid c'.consumed
  invalidated : c'.invalidated = c.invalidated
  sent : c'.Sent ↔ c.Sent

variable {c : StreamCtx τ ρ} {part : List UInt8}

theorem Took.settles {c' : StreamCtx τ ρ} (h : Took part c c') (ha : c.armed = true)
    (hnot : ¬ Complete framing operation tid c'.consumed) :
    Settles framing operation tid c c' :=
  ⟨iff_of_false (by simp [h.armed, ha]) hnot, h.invalidated, h.sent⟩

theorem Took.settled {c' : StreamCtx τ ρ} (h : Took part c c')
    (hc : Complete framing operation tid c'.consumed) :
    Settles framing operation tid c { c' with armed := false } :=
  ⟨iff_of_true rfl hc, h.invalidated, h.sent⟩

theorem not_isResponse_of_length (hf : framing ≠ .standard) {frame : List UInt8}
    (h : declaredLength frame ≠ frame.length) : ¬ IsResponse framing tid frame :=
  fun hr => h (hr.facts hf).2.1

theorem settles_takeResponse {c₁ : StreamCtx τ ρ} {frame : List UInt8} (ht : Took part c c₁)
    (ha : c.armed = true) (hv : validResponseLength frame.length = true)
    (hc : Complete framing operation tid c₁.consumed ↔ IsResponse framing tid frame) :
    Meets (fun _ c' => Settles framing operation tid c c' ∧ IsResponse framing tid frame ∧
        c' = { c₁ with armed := false })
      (Settles framing operation tid c) (takeResponse framing frame tid c₁) := by
  unfold takeResponse
  cases hd : decodeResponse framing frame tid with
  | error e =>
    refine ht.settles ha fun hco => ?_
    obtain ⟨-, response, hok⟩ := hc.mp hco
    rw [hd] at hok
    cases hok
  | ok response =>
    have hr : IsResponse framing tid frame := ⟨hv, response, hd⟩
    have hs := ht.settled (hc.mpr hr)
    by_cases hok : response.code ≠ Resp.ok
    · simp only [hok, ne_eq, not_false_eq_true, if_true]
      exact hs
    · simp only [hok, if_false]
      exact ⟨hs, hr, rfl⟩

variable {header : List UInt8}

theorem settles_earlyResponse (hf : framing ≠ .standard) (hh : header.length = headerBytes)
    (hty : packetType header = 3) (hc : c.consumed = header) (ha : c.armed = true) :
    Meets (fun _ _ => False) (Settles framing operation tid c)
      (earlyResponse transport framing tid header c) := by
  have hb : ∀ rest : List UInt8, Complete framing operation tid (header ++ rest) ↔
      IsResponse framing tid (header ++ rest) := fun rest =>
    complete_bare ((packetType_append hh.ge rest).trans hty)
  unfold earlyResponse
  split
  case isTrue hi =>
    refine (took_nil c).settles ha fun hco => ?_
    rw [hc, ← append_nil header, hb, append_nil] at hco
    obtain ⟨-, hl, -⟩ := hco.facts hf
    rw [hl, hco.1] at hi
    cases hi
  case isFalse hv =>
    have hv : validResponseLength (declaredLength header) = true := by simpa using hv
    obtain ⟨hmin, -, -⟩ := validResponseLength_iff.mp hv
    refine (readExact_meets transport _ _ c).bind (fun body c₁ ⟨hl, ht, _, _⟩ => ?_)
      fun c₁ ⟨part, hl, ht⟩ => ht.settles ha fun hco => ?_
    · have hw : (header ++ body).length = declaredLength header := by
        rw [length_append, hh, hl]
        omega
      exact (settles_takeResponse ht ha (by rwa [hw]) (by rw [ht.consumed, hc, hb])).bind
        (fun _ _ h => h.1) fun _ h => h
    · rw [ht.consumed, hc, hb] at hco
      refine not_isResponse_of_length hf ?_ hco
      rw [declaredLength_append hh.ge, length_append, hh]
      omega

/-- What a run that succeeds has read, and what it has made of the sink: the
sink was told the length of the payload, and has taken the payload. -/
structure Delivered (framing : WireFraming) (operation : UInt16) (tid : UInt32)
    (outcome : StreamingOutcome) (bytes : List UInt8) (sink : StreamSink ρ) (r r' : ρ) : Prop where
  named : outcome.operation = operation ∧ outcome.transactionId = tid
  split : ∃ (header payload frame : List UInt8) (chunks : List (List UInt8)),
    bytes = header ++ payload ++ frame ∧
    header.length = headerBytes ∧ IsDataFrame operation tid (header ++ payload) ∧
    IsResponse framing tid frame ∧ outcome.totalBytes = payload.length ∧
    sink.Takes (.begin payload.length :: chunks.map .write) r r' ∧ chunks.flatten = payload

theorem settles_lateResponse (hfr : framing ≠ .standard) {data : List UInt8}
    (hda : IsDataFrame operation tid data) (total : ℕ) (hc : c.consumed = data)
    (ha : c.armed = true) :
    Meets (fun outcome c' => Settles framing operation tid c c' ∧ c'.sink = c.sink ∧
        Drawn transport c c' ∧ (outcome.operation = operation ∧ outcome.transactionId = tid) ∧
          outcome.totalBytes = total ∧
        ∃ frame, c'.consumed = data ++ frame ∧ IsResponse framing tid frame)
      (Settles framing operation tid c) (lateResponse transport framing operation tid total c) := by
  have hbe : ∀ rest : List UInt8, Complete framing operation tid (data ++ rest) ↔
      IsResponse framing tid rest := fun rest => complete_data hfr hda
  unfold lateResponse
  refine (readExact_meets transport _ 4 c).bind (fun lengthBytes c₁ ⟨hf, ht, hsi, hdr⟩ => ?_)
    fun c₁ ⟨part, hf, ht⟩ => ht.settles ha fun hco => ?short
  case short =>
    rw [ht.consumed, hc, hbe] at hco
    have hl : 12 ≤ part.length := (hco.facts hfr).1
    omega
  split
  case isTrue hi =>
    refine ht.settles ha fun hco => ?_
    rw [ht.consumed, hc, hbe] at hco
    have hl : 12 ≤ lengthBytes.length := (hco.facts hfr).1
    omega
  case isFalse hv =>
    have hv : validResponseLength (leNat lengthBytes) = true := by simpa using hv
    have hmin : 12 ≤ leNat lengthBytes := (validResponseLength_iff.mp hv).1
    refine (readExact_meets transport _ _ c₁).bind (fun body c₂ ⟨hl, ht', hsi', hdr'⟩ => ?_)
      fun c₂ ⟨part, hl, ht'⟩ => (ht.append ht').settles ha fun hco => ?_
    · have hw : (lengthBytes ++ body).length = leNat lengthBytes := by
        rw [length_append, hf, hl]
        omega
      have hb := ht.append ht'
      have hcon : c₂.consumed = data ++ (lengthBytes ++ body) := by rw [hb.consumed, hc]
      refine (settles_takeResponse hb ha (by rwa [hw]) (by rw [hcon, hbe])).bind ?_ fun _ h => h
      rintro response _ ⟨hs, hr, rfl⟩
      exact ⟨hs, hsi'.trans hsi, hdr.trans hdr', ⟨rfl, rfl⟩, rfl, _, hcon, hr⟩
    · rw [(ht.append ht').consumed, hc, hbe] at hco
      refine not_isResponse_of_length hfr ?_ hco
      rw [declaredLength, ← hf, take_left, length_append]
      omega

theorem Took.then {c₁ c₂ : StreamCtx τ ρ} (h : Took part c c₁)
    (h' : Settles framing operation tid c₁ c₂) : Settles framing operation tid c c₂ :=
  ⟨h'.armed, h'.invalidated.trans h.invalidated, h'.sent.trans h.sent⟩

theorem settles_onDataHeader (hfr : framing ≠ .standard) (hh : header.length = headerBytes)
    (hmin : headerBytes ≤ declaredLength header) (hty : packetType header ≠ 3) (expected : Option ℕ)
    (hc : c.consumed = header) (ha : c.armed = true) :
    Meets (fun outcome c' => Settles framing operation tid c c' ∧ Drawn transport c c' ∧
        Delivered framing operation tid outcome c'.consumed sink c.sink c'.sink)
      (Settles framing operation tid c)
      (onDataHeader transport sink framing operation tid expected header c) := by
  have hs : ∀ {c' : StreamCtx τ ρ} {part : List UInt8}, Took part c c' →
      part.length ≤ declaredLength header - headerBytes → Settles framing operation tid c c' := by
    intro c' part ht hp
    refine ht.settles ha (not_complete_within hfr ?_ ?_ ?_)
    all_goals rw [ht.consumed, hc]
    · rwa [packetType_append hh.ge]
    · rw [length_append]
      omega
    · rw [declaredLength_append hh.ge, length_append, hh]
      omega
  unfold onDataHeader
  split
  case isTrue => exact hs (took_nil c) (Nat.zero_le _)
  case isFalse hf =>
  split
  case isTrue => exact hs (took_nil c) (Nat.zero_le _)
  case isFalse =>
    have hf : packetType header = 2 ∧ echoedOperation header = operation ∧
        echoedTransaction header = tid := by simpa using hf
    obtain ⟨htwo, ho, htid⟩ := hf
    refine (tell_meets sink _ c).bind (fun _ c₁ ⟨hto, hans, htr⟩ => ?_)
      fun _ hto => hs hto (Nat.zero_le _)
    refine (streamBody_meets transport sink _ _ c₁ le_rfl).bind
      (fun _ c₂ ⟨chunks, hl, ht, hta, hdr⟩ => ?_)
      fun _ ⟨part, hl, ht⟩ => hs (hto.append ht) hl
    have hd : IsDataFrame operation tid (header ++ chunks.flatten) :=
      isDataFrame_append hh (by omega) htwo ho htid
    have hbo := hto.append ht
    have hco : c₂.consumed = header ++ chunks.flatten := by
      rw [hbo.consumed, hc, nil_append]
    refine (settles_lateResponse hfr hd _ hco (hbo.armed.trans ha)).mono ?_ fun _ hse =>
      hbo.then hse
    rintro outcome c' ⟨hse, hsi, hdr', hn, htot, frame, hco', hr⟩
    refine ⟨hbo.then hse, ((hto.drawn htr).trans hdr).trans hdr', hn, header, _, frame,
      chunks, hco', hh, hd, hr, htot.trans hl.symm, ⟨c₁.sink, ?_, hsi ▸ hta⟩, rfl⟩
    rw [hl]
    exact hans

variable {c : StreamCtx τ ρ}

variable (transport sink operation tid) in
theorem settles_onHeader (hf : framing ≠ .standard) (hh : header.length = headerBytes)
    (expected : Option ℕ) (hc : c.consumed = header) (ha : c.armed = true) :
    Meets (fun outcome c' => Settles framing operation tid c c' ∧ Drawn transport c c' ∧
        Delivered framing operation tid outcome c'.consumed sink c.sink c'.sink)
      (Settles framing operation tid c)
      (onHeader transport sink framing operation tid expected header c) := by
  unfold onHeader
  split
  case isTrue hs =>
    refine (took_nil c).settles ha fun hco => ?_
    rw [hc] at hco
    -- whatever the bytes are, the first frame of them says that it is shorter than a header
    obtain ⟨data, frame, rfl, rfl | hd, hr⟩ := hco
    · obtain ⟨hlo, hl, -⟩ := hr.facts hf
      rw [nil_append, hl] at hs
      omega
    · rw [declaredLength_append hd.header, hd.length] at hs
      exact absurd hd.header (by omega)
  case isFalse hmin =>
  split
  case isTrue ht =>
    exact (settles_earlyResponse hf hh ht hc ha).mono (fun _ _ h => h.elim) fun _ h => h
  case isFalse ht =>
    exact settles_onDataHeader hf hh (by omega) ht expected hc ha

/-- The command was sent, and the guard is disarmed just if a complete response
has been read. -/
def Concludes (framing : WireFraming) (operation : UInt16) (tid : UInt32) (c c' : StreamCtx τ ρ) :
    Prop :=
  (c'.armed = false ↔ Complete framing operation tid c'.consumed) ∧
    c'.invalidated = c.invalidated ∧ c'.Sent

variable (transport sink operation tid) in
theorem concludes_transaction (hf : framing ≠ .standard) (expected : Option ℕ) (frame : List UInt8)
    (hc : c.consumed = []) :
    Meets (fun outcome c' => Concludes framing operation tid c c' ∧ Drawn transport c c' ∧
        Delivered framing operation tid outcome c'.consumed sink c.sink c'.sink)
      (Concludes framing operation tid c)
      (streamTransaction transport sink framing operation tid expected frame c) := by
  show Meets _ _ ((do
    withDeadline transport (.sendCommandFrame frame) "command write"
    let header ← readExact transport headerBytes "data header"
    onHeader transport sink framing operation tid expected header :
      StreamExec τ ρ StreamingOutcome) { c with armed := true })
  refine (withDeadline_meets transport _ _ _).bind ?_ ?_
  · rintro _ c₁ ⟨next, ha, hc₁⟩
    have hse : ∀ c', Settles framing operation tid c₁ c' → Concludes framing operation tid c c' :=
      fun c' h => ⟨h.armed, by rw [h.invalidated, hc₁], h.sent.mpr ⟨frame, by simp [hc₁]⟩⟩
    have hco : ∀ {part c₂}, Took part c₁ c₂ → c₂.consumed = part := fun ht => by
      simp [ht.consumed, hc₁, hc]
    refine (readExact_meets transport _ _ c₁).bind
      (fun header c₂ ⟨hl, ht, hsi, hdr⟩ => ?_)
      fun c₂ ⟨part, hl, ht⟩ => hse c₂ (ht.settles (by rw [hc₁])
        (not_complete_short hf (by rwa [hco ht])))
    have hsent : Drawn transport c c₁ := by
      refine ⟨[], by rw [hc₁, append_nil], .other (r := .sendCommandFrame frame) nofun ?_⟩
      rw [show transport.answer _ c.transport = _ from ha, hc₁]
      exact .nil next
    have hsi₂ : c₂.sink = c.sink := by rw [hsi, hc₁]
    refine (settles_onHeader transport sink operation tid hf hl expected (hco ht)
      (by rw [ht.armed, hc₁])).mono ?_ fun _ h => hse _ (ht.then h)
    rintro outcome c' ⟨hs, hdr', hde⟩
    exact ⟨hse _ (ht.then hs), (hsent.trans hdr).trans hdr', hsi₂ ▸ hde⟩
  · rintro _ ⟨next, rfl⟩
    refine ⟨iff_of_false (by simp) (not_complete_short hf ?_), rfl, frame, by simp⟩
    change c.consumed.length < headerBytes
    rw [hc]
    decide

theorem dropGuard_eq (c : StreamCtx τ ρ) :
    c.dropGuard = { c with invalidated := c.armed || c.invalidated } := by
  obtain ⟨_, _, _ | _, _, _, _⟩ := c
  all_goals rfl

variable (transport sink operation tid) in
theorem guarded_transaction (hf : framing ≠ .standard) (expected : Option ℕ) (frame : List UInt8)
    (hc : c.consumed = []) (hv : c.invalidated = false)
    {result : EStateM.Result (Stop StreamingError (Except TransportError Unit)) (StreamCtx τ ρ)
      StreamingOutcome}
    (hr : ensuring (streamTransaction transport sink framing operation tid expected frame)
      StreamCtx.dropGuard c = result) :
    ((final result).invalidated = true ↔
        ending result ≠ some (.halted false) ∧
          ¬ Complete framing operation tid (final result).consumed) ∧
      (final result).Sent ∧
      ∀ outcome c', result = .ok outcome c' → Drawn transport c c' ∧
        Delivered framing operation tid outcome c'.consumed sink c.sink c'.sink := by
  have h := concludes_transaction transport sink operation tid hf expected frame hc
  have hd : ∀ c', Concludes framing operation tid c c' → (c'.dropGuard.invalidated = true ↔
      ¬ Complete framing operation tid c'.dropGuard.consumed) ∧ c'.dropGuard.Sent := by
    rintro c' ⟨ha, hk, hs⟩
    rw [dropGuard_eq]
    exact ⟨by simp [← ha, hk, hv], hs⟩
  unfold ensuring at hr
  subst hr
  generalize streamTransaction transport sink framing operation tid expected frame c = r at h
  rcases r with ⟨outcome, c'⟩ | ⟨e | ⟨level, clock⟩ | _ | _, c'⟩
  case ok =>
    obtain ⟨hi, hs⟩ := hd c' h.1
    refine ⟨by simpa [ending, final] using hi, hs, ?_⟩
    rintro _ _ ⟨⟩
    rw [dropGuard_eq]
    exact h.2
  case error.halted.false => exact ⟨by simp [final, ending, h.2.1, hv], h.2.2, by rintro _ _ ⟨⟩⟩
  all_goals
    obtain ⟨hi, hs⟩ := hd c' h
    exact ⟨by simpa [ending, final] using hi, hs, by rintro _ _ ⟨⟩⟩

/-- The transaction identifier the run gets from its transport. -/
def StreamTransport.Reserves (transport : StreamTransport τ) (t : τ) (tid : UInt32) : Prop :=
  (transport.answer .reserveTransactionId t).1 = .reply (.ok tid)

theorem StreamTransport.Reserves.eq {t : τ} {tid' : UInt32} (h : transport.Reserves t tid)
    (h' : transport.Reserves t tid') : tid' = tid := by
  have heq := h'.symm.trans h
  cases heq
  rfl

/-- The transaction was left open: the command write was started, and no
complete response has been read. -/
def Unanswered (framing : WireFraming) (operation : UInt16) (transport : StreamTransport τ) (t : τ)
    (c : StreamCtx τ ρ) : Prop :=
  c.Sent ∧ ¬ ∃ tid, transport.Reserves t tid ∧ Complete framing operation tid c.consumed

variable (transport sink framing operation) in
/-- A run stops before anything is sent, with the session as it was, or it is
the guarded transaction. -/
theorem runStreamingOperation_cases (params : List UInt32) (expected : Option ℕ) (t : τ) (r : ρ) :
    (∃ e c', c'.invalidated = false ∧ ¬ c'.Sent ∧
        runStreamingOperation transport sink framing operation params expected
          { transport := t, sink := r } = .error e c') ∨
      framing ≠ .standard ∧ ∃ tid next frame,
        transport.answer .reserveTransactionId t = (.reply (.ok tid), next) ∧
        runStreamingOperation transport sink framing operation params expected
            { transport := t, sink := r } =
          ensuring (streamTransaction transport sink framing operation tid expected frame)
            StreamCtx.dropGuard
            { transport := next, sink := r, asked := [.reserveTransactionId] } := by
  unfold runStreamingOperation
  split
  case isTrue => exact .inl ⟨_, _, rfl, by simp [StreamCtx.Sent], rfl⟩
  case isFalse hf =>
  have hm := withDeadline_meets transport "transaction reservation"
    ({ transport := t, sink := r } : StreamCtx τ ρ) .reserveTransactionId
  rcases hask : withDeadline transport .reserveTransactionId "transaction reservation"
    ({ transport := t, sink := r } : StreamCtx τ ρ) with ⟨tid, c₁⟩ | ⟨e, c₁⟩
  all_goals rw [hask] at hm
  · obtain ⟨next, ha, rfl⟩ := hm
    rw [bind_ok hask]
    rcases he : frameEncode framing (.operationRequest ⟨1, operation, tid, params⟩) with e | frame
    · exact .inl ⟨_, _, rfl, by simp [StreamCtx.Sent], rfl⟩
    · exact .inr ⟨hf, tid, next, frame, ha, rfl⟩
  · obtain ⟨next, rfl⟩ := hm
    exact .inl ⟨e, _, rfl, by simp [StreamCtx.Sent], bind_error hask⟩

variable (transport sink framing operation) in
theorem invalidated_iff (params : List UInt32) (expected : Option ℕ) (t : τ) (r : ρ)
    {result : EStateM.Result (Stop StreamingError (Except TransportError Unit)) (StreamCtx τ ρ)
      StreamingOutcome}
    (hr : runStreamingOperation transport sink framing operation params expected
      { transport := t, sink := r } = result) :
    ((final result).invalidated = true ↔
        ending result ≠ some (.halted false) ∧
          Unanswered framing operation transport t (final result)) ∧
      ∀ outcome c', result = .ok outcome c' → transport.Gives t c'.consumed c'.transport ∧
        ∃ tid, transport.Reserves t tid ∧
          Delivered framing operation tid outcome c'.consumed sink r c'.sink := by
  rcases runStreamingOperation_cases transport sink framing operation params expected t r with
    ⟨e, c', hv, hu, h⟩ | ⟨hf, tid, next, frame, ha, h⟩
  · obtain rfl := h.symm.trans hr
    exact ⟨iff_of_false (by simp [final, hv]) fun h => hu h.2.1, by rintro _ _ ⟨⟩⟩
  · have hre : transport.Reserves t tid := congrArg Prod.fst ha
    obtain ⟨hi, hs, hok⟩ := guarded_transaction transport sink operation tid hf expected frame rfl
      rfl (h.symm.trans hr)
    refine ⟨hi.trans (and_congr_right fun _ => ?_), fun outcome c' hrun => ?given⟩
    case given =>
      obtain ⟨⟨part, hco, hg⟩, hde⟩ := hok outcome c' hrun
      refine ⟨.other (r := .reserveTransactionId) nofun ?_, tid, hre, hde⟩
      rw [ha, show c'.consumed = part from hco]
      exact hg
    refine ⟨fun h => ⟨hs, ?_⟩, fun h hc => h.2 ⟨tid, hre, hc⟩⟩
    rintro ⟨tid', hre', hc⟩
    rw [hre.eq hre'] at hc
    exact h hc

end Guard

/-! ### One stream in different pieces -/

section Pieces

variable {τ τ' ρ : Type}

/-- The transport has the bytes of a stream to give, in pieces of its own
choice. When there are no more its answer is always the same: nothing, a
failure, or a clock that runs out. -/
structure Delivers (transport : StreamTransport τ) (bytes : τ → List UInt8)
    (atEnd : HostAnswer (Except TransportError (List UInt8))) : Prop where
  reserve : ∀ t, bytes (transport.answer .reserveTransactionId t).2 = bytes t
  send : ∀ t frame, bytes (transport.answer (.sendCommandFrame frame) t).2 = bytes t
  piece : ∀ t (n : UInt32), 0 < n.toNat → bytes t ≠ [] → ∃ piece next,
    transport.answer (.receiveCommandBytes n) t = (.reply (.ok piece), next) ∧
      piece ≠ [] ∧ piece.length ≤ n.toNat ∧ bytes t = piece ++ bytes next
  last : ∀ t n, bytes t = [] → ∃ next,
    transport.answer (.receiveCommandBytes n) t = (atEnd, next) ∧ bytes next = []
  nothing : ∀ piece, atEnd = .reply (.ok piece) → piece = []

/-- How a read stops at the end of the stream. -/
def endOfStream (stage : String) (atEnd : HostAnswer (Except TransportError (List UInt8))) :
    Stop StreamingError (Except TransportError Unit) :=
  match decided stage atEnd with
  | .ok _ => .failed (.eof stage)
  | .error e => e

/-- The contexts differ in the transport only. -/
structure SameRun (bytes : τ → List UInt8) (bytes' : τ' → List UInt8) (c : StreamCtx τ ρ)
    (c' : StreamCtx τ' ρ) : Prop where
  stream : bytes c.transport = bytes' c'.transport
  sink : c.sink = c'.sink
  armed : c.armed = c'.armed
  invalidated : c.invalidated = c'.invalidated
  consumed : c.consumed = c'.consumed

section Transport

variable {transport : StreamTransport τ} {bytes : τ → List UInt8}
  {atEnd : HostAnswer (Except TransportError (List UInt8))}

theorem readPieces_piece {stage : String} {fuel remaining : ℕ} {got piece : List UInt8}
    {c : StreamCtx τ ρ} {next : τ}
    (ha : transport.answer (.receiveCommandBytes (UInt32.ofNat (remaining + 1))) c.transport =
      (.reply (.ok piece), next)) (hp : piece ≠ []) (hf : piece.length ≤ remaining + 1) :
    readPieces transport stage (fuel + 1) (remaining + 1) got c =
      readPieces transport stage fuel (remaining + 1 - piece.length) (got ++ piece) { c with
        asked := c.asked ++ [.receiveCommandBytes (UInt32.ofNat (remaining + 1))]
        transport := next
        consumed := c.consumed ++ piece } := by
  rw [readPieces, bind_ok (withDeadline_eq ha), if_neg (by simpa using hp), if_neg (by omega)]
  rfl

/-- A read takes the next bytes of the stream, however they come. -/
theorem readPieces_delivers (h : Delivers transport bytes atEnd) (stage : String) :
    ∀ (fuel remaining : ℕ) (got : List UInt8) (c : StreamCtx τ ρ), remaining ≤ fuel →
      remaining < 2 ^ 32 → ∃ next asked,
        (remaining ≤ (bytes c.transport).length ∧
            bytes next = (bytes c.transport).drop remaining ∧
            readPieces transport stage fuel remaining got c =
              .ok (got ++ (bytes c.transport).take remaining) { c with
                transport := next
                asked := asked
                consumed := c.consumed ++ (bytes c.transport).take remaining }) ∨
          (bytes c.transport).length < remaining ∧ bytes next = [] ∧
            readPieces transport stage fuel remaining got c =
              .error (endOfStream stage atEnd) { c with
                transport := next
                asked := asked
                consumed := c.consumed ++ bytes c.transport }
  | fuel, 0, got, c, _, _ => by
    refine ⟨c.transport, c.asked, .inl ⟨Nat.zero_le _, rfl, ?_⟩⟩
    rw [take_zero, append_nil, append_nil]
    simp only [readPieces]
    rfl
  | 0, remaining + 1, _, _, hfu, _ => absurd hfu (by omega)
  | fuel + 1, remaining + 1, got, c, hfu, hb => by
    have hmax : (UInt32.ofNat (remaining + 1)).toNat = remaining + 1 := UInt32.toNat_ofNat_of_lt' hb
    by_cases he : bytes c.transport = []
    · obtain ⟨next, ha, hl⟩ := h.last c.transport (UInt32.ofNat (remaining + 1)) he
      refine ⟨next, c.asked ++ [.receiveCommandBytes (UInt32.ofNat (remaining + 1))],
        .inr ⟨by simp [he], hl, ?_⟩⟩
      rw [he, append_nil, readPieces]
      have hw : withDeadline transport _ stage c = _ := withDeadline_eq ha
      rcases atEnd with (e | piece) | ⟨_ | level, e | ⟨⟩⟩
      case reply.ok =>
        obtain rfl := h.nothing piece rfl
        exact bind_ok hw
      all_goals exact bind_error hw
    · obtain ⟨piece, next, ha, hp, hf, hs⟩ :=
        h.piece c.transport (UInt32.ofNat (remaining + 1)) (by omega) he
      rw [hmax] at hf
      have hpos : 0 < piece.length := length_pos_iff.mpr hp
      let c₁ : StreamCtx τ ρ := { c with
        asked := c.asked ++ [.receiveCommandBytes (UInt32.ofNat (remaining + 1))]
        transport := next
        consumed := c.consumed ++ piece }
      obtain ⟨next', asked, hr⟩ := readPieces_delivers h stage fuel
        (remaining + 1 - piece.length) (got ++ piece) c₁ (by omega) (by omega)
      rw [readPieces_piece ha hp hf]
      refine ⟨next', asked, ?_⟩
      have hle : (bytes c.transport).length = piece.length + (bytes next).length := by
        rw [hs, length_append]
      rcases hr with ⟨hen, hdr, hrun⟩ | ⟨hsh, hdr, hrun⟩
      · have hen : remaining + 1 - piece.length ≤ (bytes next).length := hen
        have ht : (bytes c.transport).take (remaining + 1) =
            piece ++ (bytes next).take (remaining + 1 - piece.length) := by
          rw [hs, take_append, take_of_length_le hf]
        refine .inl ⟨by omega, ?_, ?_⟩
        · rw [hdr, hs, drop_append, drop_of_length_le hf, nil_append]
        · rw [hrun, ht, ← append_assoc, ← append_assoc]
      · have hsh : (bytes next).length < remaining + 1 - piece.length := hsh
        refine .inr ⟨by omega, hdr, ?_⟩
        rw [hrun, hs, ← append_assoc]

end Transport

section Agree

variable {transport : StreamTransport τ} {transport' : StreamTransport τ'} {sink : StreamSink ρ}
  {bytes : τ → List UInt8} {bytes' : τ' → List UInt8}
  {atEnd : HostAnswer (Except TransportError (List UInt8))}
  (h : Delivers transport bytes atEnd) (h' : Delivers transport' bytes' atEnd)

include h h' in
theorem agree_readExact {n : ℕ} (hn : n < 2 ^ 32) (stage : String) :
    Agree (SameRun bytes bytes' : StreamCtx τ ρ → StreamCtx τ' ρ → Prop)
      (readExact transport n stage)
      (readExact transport' n stage) := by
  intro c c' hs
  unfold readExact
  obtain ⟨next, asked, hr⟩ := readPieces_delivers h stage n n [] c le_rfl hn
  obtain ⟨next', asked', hr'⟩ := readPieces_delivers h' stage n n [] c' le_rfl hn
  rw [← hs.stream] at hr'
  rcases hr with ⟨he, hne, hrun⟩ | ⟨hsh, hne, hrun⟩
  · rcases hr' with ⟨-, hne', hrun'⟩ | ⟨hsh, -, -⟩
    · rw [hrun, hrun']
      exact .ok { hs with
        stream := hne.trans hne'.symm, consumed := congrArg (· ++ _) hs.consumed }
    · omega
  · rcases hr' with ⟨he, -, -⟩ | ⟨-, hne', hrun'⟩
    · omega
    · rw [hrun, hrun']
      exact .error { hs with
        stream := hne.trans hne'.symm, consumed := congrArg (· ++ _) hs.consumed }

theorem agree_tell (call : SinkCall) :
    Agree (SameRun bytes bytes') (tell sink call) (tell sink call) := by
  intro c c' hs
  unfold tell
  simp only [← hs.sink]
  rcases sink.answer call c.sink with ⟨(detail | ⟨⟩) | ⟨level, clock⟩, next⟩
  · exact .error { hs with sink := rfl }
  · exact .ok { hs with sink := rfl }
  · exact .error { hs with sink := rfl }

include h h' in
theorem agree_streamBody : ∀ fuel remaining : ℕ,
    Agree (SameRun bytes bytes') (streamBody transport sink fuel remaining)
      (streamBody transport' sink fuel remaining)
  | fuel, 0 => by
    simp only [streamBody]
    exact Agree.pure ()
  | 0, remaining + 1 => Agree.pure ()
  | fuel + 1, remaining + 1 => by
    have hb : min (remaining + 1) maxStreamChunk < 2 ^ 32 := (min_le_right _ _).trans_lt (by decide)
    simp only [streamBody]
    exact (agree_readExact h h' hb _).bind fun chunk =>
      (agree_tell (.write chunk)).bind fun _ => agree_streamBody fuel _

variable {framing : WireFraming} {operation : UInt16} {tid : UInt32}

theorem agree_takeResponse (frame : List UInt8) :
    Agree (SameRun bytes bytes' : StreamCtx τ ρ → StreamCtx τ' ρ → Prop)
      (takeResponse framing frame tid)
      (takeResponse framing frame tid) := by
  unfold takeResponse
  rcases decodeResponse framing frame tid with e | response
  · exact Agree.throw _
  · refine (Agree.modify fun c c' hs => ?_).bind fun _ =>
      Agree.ite (fun _ => Agree.throw _) fun _ => Agree.pure _
    exact { hs with armed := rfl }

theorem response_bound {n : ℕ} (h : ¬ (!validResponseLength n) = true) (k : ℕ) :
    n - k < 2 ^ 32 := by
  have hv : validResponseLength n = true := by simpa using h
  obtain ⟨-, hmax, -⟩ := validResponseLength_iff.mp hv
  exact (Nat.sub_le n k).trans_lt (hmax.trans_lt (by decide))

include h h' in
theorem agree_earlyResponse (header : List UInt8) :
    Agree (SameRun bytes bytes' : StreamCtx τ ρ → StreamCtx τ' ρ → Prop)
      (earlyResponse transport framing tid header)
      (earlyResponse transport' framing tid header) :=
  Agree.ite (fun _ => Agree.throw _) fun hv =>
    (agree_readExact h h' (response_bound hv _) _).bind fun _ =>
      (agree_takeResponse _).bind fun _ => Agree.throw _

include h h' in
theorem agree_lateResponse (total : ℕ) :
    Agree (SameRun bytes bytes' : StreamCtx τ ρ → StreamCtx τ' ρ → Prop)
      (lateResponse transport framing operation tid total)
      (lateResponse transport' framing operation tid total) :=
  (agree_readExact h h' (by decide) _).bind fun _ =>
    Agree.ite (fun _ => Agree.throw _) fun hv =>
      (agree_readExact h h' (response_bound hv _) _).bind fun _ =>
        (agree_takeResponse _).bind fun _ => Agree.pure _

include h h' in
theorem agree_onHeader (expected : Option ℕ) (header : List UInt8) :
    Agree (SameRun bytes bytes') (onHeader transport sink framing operation tid expected header)
      (onHeader transport' sink framing operation tid expected header) := by
  refine Agree.ite (fun _ => Agree.throw _) fun _ => Agree.ite (fun _ => ?early) fun _ => ?data
  case early => exact agree_earlyResponse h h' header
  case data =>
    exact Agree.ite (fun _ => Agree.throw _) fun _ => Agree.ite (fun _ => Agree.throw _) fun _ =>
      (agree_tell _).bind fun _ => (agree_streamBody h h' _ _).bind fun _ =>
        agree_lateResponse h h' _

theorem matches_withDeadline {R : StreamCtx τ ρ → StreamCtx τ' ρ → Prop} {r : StreamRequest}
    {stage : String} {c : StreamCtx τ ρ} {c' : StreamCtx τ' ρ}
    (ha : (transport.answer r c.transport).1 = (transport'.answer r c'.transport).1)
    (hr : R
      { c with asked := c.asked ++ [r], transport := (transport.answer r c.transport).2 }
      { c' with asked := c'.asked ++ [r], transport := (transport'.answer r c'.transport).2 }) :
    Matches R (withDeadline transport r stage c) (withDeadline transport' r stage c') := by
  rcases ha₁ : transport.answer r c.transport with ⟨answer, next⟩
  rcases ha₂ : transport'.answer r c'.transport with ⟨answer', next'⟩
  rw [ha₁, ha₂] at ha hr
  obtain rfl : answer = answer' := ha
  rw [withDeadline_eq ha₁, withDeadline_eq ha₂]
  rcases decided stage answer with e | a
  · exact .error hr
  · exact .ok hr

/-- The transports answer alike until bytes are asked for. -/
structure SameStart (transport : StreamTransport τ) (t : τ) (transport' : StreamTransport τ')
    (t' : τ') : Prop where
  reserve : (transport.answer .reserveTransactionId t).1 =
    (transport'.answer .reserveTransactionId t').1
  send : ∀ frame,
    (transport.answer (.sendCommandFrame frame) (transport.answer .reserveTransactionId t).2).1 =
      (transport'.answer (.sendCommandFrame frame)
        (transport'.answer .reserveTransactionId t').2).1

theorem sameRun_dropGuard {c : StreamCtx τ ρ} {c' : StreamCtx τ' ρ}
    (h : SameRun bytes bytes' c c') :
    SameRun bytes bytes' c.dropGuard c'.dropGuard := by
  rw [dropGuard_eq, dropGuard_eq]
  exact { h with invalidated := by rw [h.armed, h.invalidated] }

include h h' in
/-- How the stream is cut into pieces makes no difference. -/
theorem agree_run (params : List UInt32) (expected : Option ℕ) {t : τ} {t' : τ'} (r : ρ)
    (hst : SameStart transport t transport' t') (hb : bytes t = bytes' t') :
    Matches (SameRun bytes bytes')
      (runStreamingOperation transport sink framing operation params expected
        { transport := t, sink := r })
      (runStreamingOperation transport' sink framing operation params expected
        { transport := t', sink := r }) := by
  -- after the reservation the two runs are at the same place
  let Reserved : StreamCtx τ ρ → StreamCtx τ' ρ → Prop := fun c c' =>
    SameRun bytes bytes' c c' ∧ c.transport = (transport.answer .reserveTransactionId t).2 ∧
      c'.transport = (transport'.answer .reserveTransactionId t').2
  have hs : Reserved
      { transport := (transport.answer .reserveTransactionId t).2
        sink := r, asked := [.reserveTransactionId] }
      { transport := (transport'.answer .reserveTransactionId t').2
        sink := r, asked := [.reserveTransactionId] } :=
    ⟨⟨((h.reserve t).trans hb).trans (h'.reserve t').symm, rfl, rfl, rfl, rfl⟩, rfl, rfl⟩
  unfold runStreamingOperation
  by_cases hf : framing = .standard
  · rw [if_pos hf, if_pos hf]
    exact .error ⟨hb, rfl, rfl, rfl, rfl⟩
  · rw [if_neg hf, if_neg hf]
    refine (matches_withDeadline (R := Reserved) hst.reserve hs).bind (fun _ _ hc => hc.1) ?_
    intro tid c c' ⟨hs, ht, ht'⟩
    rcases frameEncode framing (.operationRequest ⟨1, operation, tid, params⟩) with e | frame
    · exact .error hs
    · refine Matches.ensuring ?_ fun c c' hc => sameRun_dropGuard hc
      have hse : ∀ c₁ : StreamCtx τ ρ, ∀ c₁' : StreamCtx τ' ρ, SameRun bytes bytes' c₁ c₁' →
          c₁.transport = c.transport → c₁'.transport = c'.transport →
          Matches (SameRun bytes bytes')
            (withDeadline transport (.sendCommandFrame frame) "command write" c₁)
            (withDeadline transport' (.sendCommandFrame frame) "command write" c₁') := by
        intro c₁ c₁' hc htr htr'
        refine matches_withDeadline ?_ { hc with stream := ?_ }
        · rw [htr, htr', ht, ht']
          exact hst.send frame
        · exact ((h.send c₁.transport frame).trans hc.stream).trans
            (h'.send c₁'.transport frame).symm
      refine (hse { c with armed := true } { c' with armed := true } ?_ rfl rfl).bind
        (fun _ _ hc => hc) fun _ c₂ c₂' hc => ?_
      · exact { hs with armed := rfl }
      · exact ((agree_readExact h h' (by decide) _).bind fun header =>
          agree_onHeader h h' expected header) c₂ c₂' hc

end Agree

end Pieces

/-! ### The transfer -/

/-- A streamed transfer depends on the bytes of the stream only, and not on the
pieces they come in; if it succeeds the sink was told the length of the payload
and has then taken its bytes, as the transport gave them; and the session is
invalidated exactly if the run ends when the command write was started and no
complete response of the transaction has been read. The last two hold whatever
the transport and the sink do, whichever clock runs out. -/
theorem streamed_transfer {ρ : Type} (sink : StreamSink ρ) (r : ρ) (framing : WireFraming)
    (operation : UInt16) (params : List UInt32) (expected : Option ℕ) :
    (∀ {τ τ' : Type} (transport : StreamTransport τ) (transport' : StreamTransport τ')
        (bytes : τ → List UInt8) (bytes' : τ' → List UInt8)
        (atEnd : HostAnswer (Except TransportError (List UInt8))) (t : τ) (t' : τ'),
        Delivers transport bytes atEnd → Delivers transport' bytes' atEnd →
        SameStart transport t transport' t' → bytes t = bytes' t' →
        Matches (SameRun bytes bytes')
          (runStreamingOperation transport sink framing operation params expected
            { transport := t, sink := r })
          (runStreamingOperation transport' sink framing operation params expected
            { transport := t', sink := r })) ∧
      ∀ {τ : Type} (transport : StreamTransport τ) (t : τ),
        (∀ outcome c', runStreamingOperation transport sink framing operation params expected
            { transport := t, sink := r } = .ok outcome c' →
            transport.Gives t c'.consumed c'.transport ∧ ∃ tid, transport.Reserves t tid ∧
              Delivered framing operation tid outcome c'.consumed sink r c'.sink) ∧
          ∀ result, runStreamingOperation transport sink framing operation params expected
              { transport := t, sink := r } = result →
            ((final result).invalidated = true ↔ ending result ≠ some (.halted false) ∧
              Unanswered framing operation transport t (final result)) := by
  refine ⟨fun transport transport' bytes bytes' atEnd t t' h h' hs hb =>
    agree_run h h' params expected r hs hb, fun transport t => ⟨?_, ?_⟩⟩
  · intro outcome c' hrun
    exact (invalidated_iff transport sink framing operation params expected t r hrun).2
      outcome c' rfl
  · intro result hrun
    exact (invalidated_iff transport sink framing operation params expected t r hrun).1

/-- A transport with a stream to give, of which it gives so many bytes at a
time. -/
def pieceTransport (size : ℕ) (tid : UInt32) : StreamTransport (List UInt8) where
  answer
    | .reserveTransactionId, stream => (.reply (.ok tid), stream)
    | .sendCommandFrame _, stream => (.reply (.ok ()), stream)
    | .receiveCommandBytes maxBytes, stream =>
      (.reply (.ok (stream.take (min size maxBytes.toNat))), stream.drop (min size maxBytes.toNat))

theorem pieceTransport_delivers {size : ℕ} (hsi : 0 < size) (tid : UInt32) :
    Delivers (pieceTransport size tid) id (.reply (.ok [])) where
  reserve _ := rfl
  send _ _ := rfl
  piece stream n hn hs := by
    refine ⟨_, _, rfl, ?_, ?_, (take_append_drop _ stream).symm⟩
    · have hpos : 0 < min size n.toNat := lt_min hsi hn
      have hl : 0 < stream.length := length_pos_iff.mpr hs
      rw [← length_pos_iff, length_take]
      exact lt_min hpos hl
    · rw [length_take]
      exact (min_le_left _ _).trans (min_le_right _ _)
  last stream n hs := by
    obtain rfl : stream = [] := hs
    exact ⟨[], by simp [pieceTransport], rfl⟩
  nothing piece h := by
    cases h
    rfl

/-- A sink that takes everything, and keeps it. -/
def openSink : StreamSink (List SinkCall) where
  answer call calls := (.reply (.ok ()), calls ++ [call])

/-- A data frame with three bytes, and the response to it. -/
def smallObject : List UInt8 :=
  [15, 0, 0, 0, 2, 0, 9, 16, 7, 0, 0, 0, 65, 66, 67,
    12, 0, 0, 0, 3, 0, 1, 32, 7, 0, 0, 0]

/-- The object comes byte by byte, or five at a time; either way it is
delivered, and the session stays in order. -/
theorem streamed_transfer_small :
    Matches (SameRun id id)
        (runStreamingOperation (pieceTransport 1 7) openSink .compressed 0x1009 [1] (some 3)
          { transport := smallObject, sink := [] })
        (runStreamingOperation (pieceTransport 5 7) openSink .compressed 0x1009 [1] (some 3)
          { transport := smallObject, sink := [] }) ∧
      (final (runStreamingOperation (pieceTransport 5 7) openSink .compressed 0x1009 [1] (some 3)
        { transport := smallObject, sink := [] })).sink = [.begin 3, .write [65, 66, 67]] ∧
      (final (runStreamingOperation (pieceTransport 5 7) openSink .compressed 0x1009 [1] (some 3)
        { transport := smallObject, sink := [] })).invalidated = false := by
  refine ⟨?_, by decide +kernel, by decide +kernel⟩
  exact (streamed_transfer openSink [] .compressed 0x1009 [1] (some 3)).1 (pieceTransport 1 7)
    (pieceTransport 5 7) id id (.reply (.ok [])) smallObject smallObject
    (pieceTransport_delivers (by decide) 7) (pieceTransport_delivers (by decide) 7)
    ⟨rfl, fun _ => rfl⟩ rfl

end Ptpsim.Executor
