/-
# One transaction of the executor, frame by frame

`issue_frames` sends a command, a data phase if there is one to send, and then
puts the answer together from the frames the transport hands it: a response,
with a data phase before it or without. In the standard framing a data phase
is StartData, any number of data blocks and EndData, and the blocks have to
add up to the declared length; the other framings carry it in one frame.

Each packet moves the state of the reassembly in one of four ways or fails
(`onPacket_ok`), so what is accepted can be read off as a grammar
(`Transaction`), within a number of frames (`reassemble_iff`).
-/
import Ptpsim.Lib.Fallible
import Ptpsim.Service.DataIn

namespace Ptpsim.Executor

open Codec Ptpsim.Core Primitives Service List
open Sim (WireFraming)

def maxCommandFrames : ℕ := 65536

def maxDataPhaseBytes : ℕ := 512 * 1024 * 1024

/-- How a call to the host fails. -/
inductive TransportError where
  | notConnected
  | notExposed (uuid : String)
  | timeout (detail : String)
  | connectFailed (detail : String)
  | failed (detail : String)
deriving DecidableEq

/-- Why a transaction fails. -/
inductive IssueError where
  | transport (e : TransportError)
  /-- The clock of a call has run out. -/
  | deadline
  | encode (e : WireError)
  | decode (e : DecodeError)
  | sink (detail : String)
  | other (detail : String)
deriving DecidableEq

/-- Both ends of a channel use the same three codecs. -/
def frameEncode : WireFraming → PtpIpPacket → Except WireError (List UInt8) := encodeControlFrame

def frameDecode : WireFraming → List UInt8 → Except DecodeError PtpIpPacket := decodeCommandFrame

variable (framing : WireFraming)

def buildData (op : UInt16) (txn : UInt32) (payload : List UInt8) : Except WireError (List UInt8) :=
  match framing with
  | .compressed =>
    match FujiFraming.encodeData op txn payload with
    | some bytes => .ok bytes
    | none => .error .panicked
  | .usb => .ok (UsbPtp.encodeData op txn payload)
  | .standard => frameEncode .standard (.data ⟨txn, payload⟩)

/-! ### Reassembly -/

/-- What has come in of the answer's data phase. -/
structure DataPhase where
  payload : List UInt8 := []
  hadData : Bool := false
  standardTotal : Option UInt64 := none
  standardEnded : Bool := false
deriving DecidableEq

def checkDataFrame (frameKind : String) (s : DataPhase) (incoming : ℕ) : Except IssueError Unit :=
  match framing with
  | .standard =>
    match s.standardTotal with
    | some total =>
      if s.standardEnded then .error (.other s!"{frameKind} outside standard data phase")
      else if total.toNat < s.payload.length + incoming then
        .error (.other "payload exceeds declared length")
      else .ok ()
    | none => .error (.other s!"{frameKind} outside standard data phase")
  | .compressed | .usb =>
    if s.hadData then .error (.other "duplicate data frame for single-frame framing")
    else if maxDataPhaseBytes < incoming then
      .error (.other s!"data payload {incoming} exceeds cap {maxDataPhaseBytes}")
    else .ok ()

/-- A packet keeps the reassembly going or ends it. -/
inductive Progress where
  | more (s : DataPhase)
  | done (response : OperationResponse)
deriving DecidableEq

def mismatched (tid : UInt32) : IssueError :=
  .other s!"unexpected or mismatched command frame for transaction {tid}"

/-- The body of the receive loop. -/
def onPacket (tid : UInt32) (s : DataPhase) (packet : PtpIpPacket) : Except IssueError Progress :=
  match packet with
  | .startData start =>
    let total := start.totalLength
    if start.transactionId ≠ tid then .error (mismatched tid)
    else if framing ≠ .standard ∨ s.standardTotal.isSome then
      .error (.other "unexpected duplicate data start")
    else if maxDataPhaseBytes < total.toNat then
      .error (.other s!"declared data length {total} exceeds cap {maxDataPhaseBytes}")
    else .ok (.more { s with hadData := true, standardTotal := some total })
  | .data data =>
    if data.transactionId ≠ tid then .error (mismatched tid)
    else do
      checkDataFrame framing "data block" s data.payload.length
      .ok (.more { s with hadData := true, payload := s.payload ++ data.payload })
  | .endData data =>
    if data.transactionId ≠ tid then .error (mismatched tid)
    else do
      checkDataFrame framing "data end" s data.payload.length
      .ok (.more { s with
        hadData := true, standardEnded := true, payload := s.payload ++ data.payload })
  | .operationResponse response =>
    if response.transactionId ≠ tid then .error (mismatched tid)
    else
      match s.standardTotal with
      | none => .ok (.done response)
      | some total =>
        let received := s.payload.length
        if s.standardEnded = false ∨ received ≠ total.toNat then
          .error (.other
            s!"incomplete standard data phase: declared {total} bytes, received {received}")
        else .ok (.done response)
  | _ => .error (mismatched tid)

/-- An answer that has been put together. -/
structure Answer where
  response : OperationResponse
  payload : List UInt8
  hadData : Bool
deriving DecidableEq

/-- The receive loop, with the number of frames it may still take. `frames` is
what the transport hands out; when there is no more, the deadline passes. -/
def reassemble (framing : WireFraming) (tid : UInt32) :
    ℕ → DataPhase → List (Except TransportError (List UInt8)) →
      Except IssueError (Answer × List (Except TransportError (List UInt8)))
  | 0, _, _ => .error (.other "command frame limit exceeded")
  | _ + 1, _, [] => .error .deadline
  | _ + 1, _, .error e :: _ => .error (.transport e)
  | n + 1, s, .ok frame :: frames =>
    match frameDecode framing frame with
    | .error e => .error (.decode e)
    | .ok packet =>
      match onPacket framing tid s packet with
      | .error e => .error e
      | .ok (.more s) => reassemble framing tid n s frames
      | .ok (.done response) => .ok (⟨response, s.payload, s.hadData⟩, frames)

/-! ### Replies -/

/-- What a transaction came to. -/
structure TxMeta where
  operation : UInt16
  property : Option UInt16
  responseCode : UInt16
  transactionId : UInt32
deriving DecidableEq

/-- Data a step hands out. -/
structure DataOutput where
  stepPath : String
  operation : UInt16
  transactionId : UInt32
  payload : List UInt8
  responseParams : List UInt32
deriving DecidableEq

/-- The reply to a step, with what it puts out. -/
structure WireReply where
  txMeta : TxMeta
  payload : List UInt8
  output : Option DataOutput
deriving DecidableEq

/-! ### What a packet does -/

variable {framing : WireFraming} {tid : UInt32}

/-- A block of the data phase is let through. -/
def Admits (framing : WireFraming) (s : DataPhase) (incoming : ℕ) : Prop :=
  match framing with
  | .standard => ∃ total, s.standardTotal = some total ∧ s.standardEnded = false ∧
      s.payload.length + incoming ≤ total.toNat
  | .compressed | .usb => s.hadData = false ∧ incoming ≤ maxDataPhaseBytes

variable {s : DataPhase}

theorem checkDataFrame_ok_iff {frameKind : String} {incoming : ℕ} :
    checkDataFrame framing frameKind s incoming = .ok () ↔ Admits framing s incoming := by
  unfold checkDataFrame Admits
  match framing with
  | .standard =>
    rcases s.standardTotal with _ | total
    · simp
    · by_cases he : s.standardEnded = true
      · simp [he]
      · by_cases ho : total.toNat < s.payload.length + incoming
        · simp [he, ho]
        · simp [he, ho, Nat.le_of_not_lt ho]
  | .compressed | .usb =>
    by_cases hd : s.hadData = true
    · simp [hd]
    · by_cases ho : maxDataPhaseBytes < incoming
      · simp [hd, ho]
      · simp [hd, ho, Nat.le_of_not_lt ho]

/-- The response is let through: the data phase is complete, if there was
one. -/
def Completes (s : DataPhase) : Prop :=
  ∀ total, s.standardTotal = some total →
    s.standardEnded = true ∧ s.payload.length = total.toNat

/-- **What a packet does.** It opens the data phase, adds a block to it, adds
the last block, or ends the transaction. -/
theorem onPacket_ok {packet : PtpIpPacket} {progress : Progress} :
    onPacket framing tid s packet = .ok progress ↔
      (∃ total : UInt64, packet = .startData ⟨tid, total⟩ ∧ framing = .standard ∧
        s.standardTotal = none ∧ total.toNat ≤ maxDataPhaseBytes ∧
        progress = .more { s with hadData := true, standardTotal := some total }) ∨
      (∃ block, packet = .data ⟨tid, block⟩ ∧ Admits framing s block.length ∧
        progress = .more { s with hadData := true, payload := s.payload ++ block }) ∨
      (∃ block, packet = .endData ⟨tid, block⟩ ∧ Admits framing s block.length ∧
        progress = .more { s with
          hadData := true, standardEnded := true, payload := s.payload ++ block }) ∨
      (∃ response, packet = .operationResponse response ∧ response.transactionId = tid ∧
        Completes s ∧ progress = .done response) := by
  have hc : ∀ kind n (next : Progress), (do
      checkDataFrame framing kind s n
      .ok next : Except IssueError Progress) = .ok progress ↔
        Admits framing s n ∧ next = progress := by
    intro kind n next
    rw [Fallible.bind_eq_ok_iff]
    constructor
    · rintro ⟨⟨⟩, ha, ⟨⟩⟩
      exact ⟨checkDataFrame_ok_iff.mp ha, rfl⟩
    · rintro ⟨ha, rfl⟩
      exact ⟨(), checkDataFrame_ok_iff.mpr ha, rfl⟩
  cases packet with
  | startData start =>
    obtain ⟨got, total⟩ := start
    simp only [onPacket, Fallible.guard_eq_ok_iff, Except.ok.injEq, not_or, not_not, Nat.not_lt,
      Bool.not_eq_true, Option.isSome_eq_false_iff, Option.isNone_iff_eq_none]
    grind
  | data data =>
    obtain ⟨got, block⟩ := data
    simp only [onPacket, Fallible.guard_eq_ok_iff, hc, not_not]
    grind
  | endData data =>
    obtain ⟨got, block⟩ := data
    simp only [onPacket, Fallible.guard_eq_ok_iff, hc, not_not]
    grind
  | operationResponse response =>
    simp only [onPacket, Fallible.guard_eq_ok_iff, not_not]
    rcases ht : s.standardTotal with _ | total
    · grind [Completes]
    · simp only [Fallible.guard_eq_ok_iff, not_or]
      grind [Completes]
  | _ => simp [onPacket]

/-! ### The frames that are accepted -/

/-- The packets take the reassembly from a state to an answer. -/
inductive Reassembles (framing : WireFraming) (tid : UInt32) :
    DataPhase → List PtpIpPacket → Answer → Prop
  | done {s : DataPhase} {packet : PtpIpPacket} {response : OperationResponse}
      (h : onPacket framing tid s packet = .ok (.done response)) :
      Reassembles framing tid s [packet] ⟨response, s.payload, s.hadData⟩
  | more {s s' : DataPhase} {packet : PtpIpPacket} {packets : List PtpIpPacket} {answer : Answer}
      (h : onPacket framing tid s packet = .ok (.more s'))
      (hlater : Reassembles framing tid s' packets answer) :
      Reassembles framing tid s (packet :: packets) answer

/-- The loop accepts what its packets accept, within the number of frames it
may take. -/
theorem reassemble_ok_iff : ∀ (n : ℕ) (s : DataPhase)
    (frames rest : List (Except TransportError (List UInt8))) (answer : Answer),
    reassemble framing tid n s frames = .ok (answer, rest) ↔
      ∃ accepted packets, frames = accepted.map .ok ++ rest ∧ accepted.length ≤ n ∧
        CarryPackets framing accepted packets ∧ Reassembles framing tid s packets answer := by
  intro n
  induction n with
  | zero =>
    intro s frames rest answer
    refine iff_of_false (by simp [reassemble]) ?_
    rintro ⟨accepted, packets, -, hlen, hc, hr⟩
    have hnil : accepted = [] := length_eq_zero_iff.mp (by omega)
    rw [hnil, CarryPackets, map_nil, eq_comm, map_eq_nil_iff] at hc
    rw [hc] at hr
    cases hr
  | succ n ih =>
    intro s frames rest answer
    constructor
    · intro h
      rcases frames with _ | ⟨e | frame, frames⟩
      · simp [reassemble] at h
      · simp [reassemble] at h
      · rcases hd : frameDecode framing frame with e | packet
        · simp [reassemble, hd] at h
        · rcases hp : onPacket framing tid s packet with e | s' | response
          · simp [reassemble, hd, hp] at h
          · simp only [reassemble, hd, hp] at h
            obtain ⟨accepted, packets, rfl, hlen, hc, hl⟩ := (ih s' frames rest answer).mp h
            refine ⟨frame :: accepted, packet :: packets, rfl, by simpa using hlen, ?_, .more hp hl⟩
            rw [CarryPackets, map_cons, map_cons, hc]
            exact congrArg (· :: _) hd
          · simp only [reassemble, hd, hp, Except.ok.injEq, Prod.mk.injEq] at h
            obtain ⟨rfl, rfl⟩ := h
            refine ⟨[frame], [packet], rfl, by simp, ?_, .done hp⟩
            exact congrArg (fun r => [r]) hd
    · rintro ⟨accepted, packets, rfl, hlen, hc, hr⟩
      cases hr with
      | done hp =>
        obtain ⟨frame, _, rfl, hd, hnil⟩ := map_eq_cons_iff.mp hc
        obtain rfl := map_eq_nil_iff.mp hnil
        have hd : frameDecode framing frame = .ok _ := hd
        simp [reassemble, hd, hp]
      | more hp hl =>
        obtain ⟨frame, accepted, rfl, hd, hc⟩ := map_eq_cons_iff.mp hc
        have hd : frameDecode framing frame = .ok _ := hd
        simp only [map_cons, cons_append, reassemble, hd, hp]
        exact (ih _ _ rest answer).mpr ⟨accepted, _, rfl, by simpa using hlen, hc, hl⟩

/-- **A transaction, as its packets.** A response, with no data phase before
it, a standard one, or one in a single frame. -/
inductive Transaction (framing : WireFraming) (tid : UInt32) : List PtpIpPacket → Answer → Prop
  | bare {response : OperationResponse} (htid : response.transactionId = tid) :
      Transaction framing tid [.operationResponse response] ⟨response, [], false⟩
  | standard {total : UInt64} {blocks : List (List UInt8)} {last : List UInt8}
      {response : OperationResponse} (hframing : framing = .standard)
      (htid : response.transactionId = tid)
      (hlen : (blocks.flatten ++ last).length = total.toNat)
      (hcap : total.toNat ≤ maxDataPhaseBytes) :
      Transaction framing tid (.startData ⟨tid, total⟩ ::
          (blocks.map (fun block => .data ⟨tid, block⟩) ++
            [.endData ⟨tid, last⟩, .operationResponse response]))
        ⟨response, blocks.flatten ++ last, true⟩
  | single {payload : List UInt8} {response : OperationResponse} (hframing : framing ≠ .standard)
      (htid : response.transactionId = tid) (hcap : payload.length ≤ maxDataPhaseBytes) :
      Transaction framing tid [.data ⟨tid, payload⟩, .operationResponse response]
        ⟨response, payload, true⟩

theorem onPacket_done {packet : PtpIpPacket} {response : OperationResponse} :
    onPacket framing tid s packet = .ok (.done response) ↔ packet = .operationResponse response ∧
      response.transactionId = tid ∧ Completes s := by
  rw [onPacket_ok]
  grind

variable {packets : List PtpIpPacket}

theorem reassembles_final_iff {answer : Answer} (hs : framing = .standard → s.standardTotal ≠ none)
    (hr : ∀ n, ¬ Admits framing s n) :
    Reassembles framing tid s packets answer ↔
      ∃ response, packets = [.operationResponse response] ∧ response.transactionId = tid ∧
        Completes s ∧ answer = ⟨response, s.payload, s.hadData⟩ := by
  constructor
  · intro h
    cases h with
    | done hp =>
      obtain ⟨rfl, htid, hc⟩ := onPacket_done.mp hp
      exact ⟨_, rfl, htid, hc, rfl⟩
    | more hp _ =>
      rcases onPacket_ok.mp hp with ⟨_, -, hst, hn, -⟩ | ⟨_, -, ha, -⟩ |
        ⟨_, -, ha, -⟩ | ⟨_, -, -, -, h⟩
      · exact absurd hn (hs hst)
      · exact absurd ha (hr _)
      · exact absurd ha (hr _)
      · cases h
  · rintro ⟨response, rfl, htid, hc, rfl⟩
    exact .done (onPacket_done.mpr ⟨rfl, htid, hc⟩)

section Standard

/-- The state after StartData and some blocks. -/
def opened (total : UInt64) (payload : List UInt8) : DataPhase := ⟨payload, true, some total, false⟩

/-- The state after EndData. -/
def closed (total : UInt64) (payload : List UInt8) : DataPhase := ⟨payload, true, some total, true⟩

variable {total : UInt64} {acc : List UInt8} {packets : List PtpIpPacket} {answer : Answer}

theorem admits_opened {incoming : ℕ} :
    Admits .standard (opened total acc) incoming ↔ acc.length + incoming ≤ total.toNat := by
  simp [Admits, opened]

theorem reassembles_closed_iff :
    Reassembles .standard tid (closed total acc) packets answer ↔
      ∃ response, packets = [.operationResponse response] ∧ response.transactionId = tid ∧
        acc.length = total.toNat ∧ answer = ⟨response, acc, true⟩ := by
  rw [reassembles_final_iff (by simp [closed]) (by simp [Admits, closed])]
  simp [Completes, closed]

/-- After StartData come blocks, EndData and the response. -/
theorem reassembles_opened_iff : ∀ (packets : List PtpIpPacket) (acc : List UInt8),
    Reassembles .standard tid (opened total acc) packets answer ↔
      ∃ (blocks : List (List UInt8)) (last : List UInt8) (response : OperationResponse),
        packets = blocks.map (fun block => .data ⟨tid, block⟩) ++
          [.endData ⟨tid, last⟩, .operationResponse response] ∧
        response.transactionId = tid ∧
        (acc ++ (blocks.flatten ++ last)).length = total.toNat ∧
        answer = ⟨response, acc ++ (blocks.flatten ++ last), true⟩ := by
  intro packets
  induction packets with
  | nil =>
    intro acc
    refine iff_of_false (fun h => by cases h) ?_
    rintro ⟨blocks, last, response, h, -⟩
    simp at h
  | cons packet packets ih =>
    intro acc
    constructor
    · intro h
      cases h with
      | done hp => cases ((onPacket_done.mp hp).2.2 total rfl).1
      | more hp hl =>
        rcases onPacket_ok.mp hp with ⟨_, -, -, hn, -⟩ | ⟨block, rfl, -, hs⟩ |
          ⟨last, rfl, -, hs⟩ | ⟨_, -, -, -, h⟩
        · cases hn
        · cases hs
          obtain ⟨blocks, last, response, rfl, htid, hlen, rfl⟩ := (ih (acc ++ block)).mp hl
          refine ⟨block :: blocks, last, response, rfl, htid, ?_, ?_⟩
          · rw [← hlen]
            simp
          · simp
        · cases hs
          obtain ⟨response, rfl, htid, hlen, rfl⟩ := reassembles_closed_iff.mp hl
          exact ⟨[], last, response, rfl, htid, hlen, rfl⟩
        · cases h
    · rintro ⟨blocks, last, response, hpa, htid, hlen, rfl⟩
      cases blocks with
      | nil =>
        obtain ⟨rfl, rfl⟩ := List.cons.inj hpa
        have ha : Admits .standard (opened total acc) last.length := by
          rw [admits_opened, ← hlen]
          simp
        refine .more (onPacket_ok.mpr (.inr (.inr (.inl ⟨last, rfl, ha, rfl⟩)))) ?_
        have hlen' : (acc ++ last).length = total.toNat := by simpa using hlen
        exact reassembles_closed_iff.mpr ⟨response, rfl, htid, hlen', rfl⟩
      | cons block blocks =>
        obtain ⟨rfl, rfl⟩ := List.cons.inj hpa
        have ha : Admits .standard (opened total acc) block.length := by
          rw [admits_opened, ← hlen]
          simp
        refine .more (onPacket_ok.mpr (.inr (.inl ⟨block, rfl, ha, rfl⟩))) ?_
        refine (ih (acc ++ block)).mpr ⟨blocks, last, response, rfl, htid, ?_, ?_⟩
        · rw [← hlen]
          simp
        · simp

end Standard

variable {answer : Answer}

theorem reassembles_single_iff {payload : List UInt8} (hf : framing ≠ .standard) :
    Reassembles framing tid ⟨payload, true, none, false⟩ packets answer ↔
      ∃ response, packets = [.operationResponse response] ∧ response.transactionId = tid ∧
        answer = ⟨response, payload, true⟩ := by
  rw [reassembles_final_iff (fun h => absurd h hf) fun incoming ha => ?_]
  · simp [Completes]
  · match framing with
    | .standard => exact hf rfl
    | .compressed | .usb => cases ha.1

theorem admits_start {n : ℕ} :
    Admits framing {} n ↔ framing ≠ .standard ∧ n ≤ maxDataPhaseBytes := by
  cases framing <;> simp [Admits]

/-- From the start: a transaction, if no container pretends to be an
EndData. -/
theorem reassembles_iff (hc : framing ≠ .standard → ∀ block, .endData block ∉ packets) :
    Reassembles framing tid {} packets answer ↔ Transaction framing tid packets answer := by
  constructor
  · intro h
    cases h with
    | done hp =>
      obtain ⟨rfl, htid, -⟩ := onPacket_done.mp hp
      exact .bare htid
    | more hp hl =>
      rcases onPacket_ok.mp hp with ⟨total, rfl, rfl, -, hcap, hs⟩ | ⟨block, rfl, ha, hs⟩ |
        ⟨block, rfl, ha, hs⟩ | ⟨_, -, -, -, h⟩
      · cases hs
        obtain ⟨blocks, last, response, rfl, htid, hlen, rfl⟩ := (reassembles_opened_iff _ []).mp hl
        exact .standard rfl htid hlen hcap
      · obtain ⟨hf, hcap⟩ := admits_start.mp ha
        cases hs
        obtain ⟨response, rfl, htid, rfl⟩ := (reassembles_single_iff hf).mp hl
        exact .single hf htid hcap
      · exact absurd mem_cons_self (hc (admits_start.mp ha).1 _)
      · cases h
  · intro h
    cases h with
    | bare htid => exact .done (onPacket_done.mpr ⟨rfl, htid, by simp [Completes]⟩)
    | standard hf htid hlen hcap =>
      subst hf
      refine .more (onPacket_ok.mpr (.inl ⟨_, rfl, rfl, rfl, hcap, rfl⟩)) ?_
      exact (reassembles_opened_iff _ []).mpr ⟨_, _, _, rfl, htid, hlen, rfl⟩
    | @single payload response hf htid hcap =>
      refine .more (onPacket_ok.mpr (.inr (.inl ⟨_, rfl, admits_start.mpr ⟨hf, hcap⟩, rfl⟩))) ?_
      exact (reassembles_single_iff hf).mpr ⟨_, rfl, htid, rfl⟩

/-- **What the reassembly accepts.** -/
theorem reassemble_iff {frames rest : List (Except TransportError (List UInt8))} :
    reassemble framing tid maxCommandFrames {} frames = .ok (answer, rest) ↔
      ∃ accepted packets, frames = accepted.map .ok ++ rest ∧
        accepted.length ≤ maxCommandFrames ∧ CarryPackets framing accepted packets ∧
        Transaction framing tid packets answer := by
  have hco : ∀ (accepted : List (List UInt8)) (packets : List PtpIpPacket),
      CarryPackets framing accepted packets → framing ≠ .standard →
      ∀ block, .endData block ∉ packets := by
    intro accepted packets hc hfr block hmem
    have hmem' : Except.ok (.endData block) ∈ accepted.map (decodeCommandFrame framing) := by
      rw [hc]
      exact mem_map_of_mem hmem
    obtain ⟨frame, -, hd⟩ := mem_map.mp hmem'
    rcases container_packet_cases hfr hd with ⟨_, h⟩ | ⟨_, h⟩ | ⟨_, h⟩ | ⟨_, h, -⟩
    all_goals cases h
  rw [reassemble_ok_iff]
  refine exists₂_congr fun accepted packets => and_congr_right fun _ => and_congr_right fun _ => ?_
  exact and_congr_right fun hc => reassembles_iff (hco accepted packets hc)

/-! ### The limit on the number of frames -/

/-- A transaction with `n` empty blocks. -/
def paddedTransaction (n : ℕ) : List PtpIpPacket :=
  .startData ⟨1, 0⟩ :: ((List.replicate n []).map (fun block => .data ⟨1, block⟩) ++
    [.endData ⟨1, []⟩, .operationResponse ⟨Resp.ok, 1, []⟩])

def startFrame : List UInt8 := startDataBytes 1 0
def blockFrame : List UInt8 := [12, 0, 0, 0, 10, 0, 0, 0, 1, 0, 0, 0]
def endFrame : List UInt8 := endDataBytes 1 []
def responseFrame : List UInt8 := [14, 0, 0, 0, 7, 0, 0, 0, 1, 0x20, 1, 0, 0, 0]

/-- Its frames. -/
def paddedFrames (n : ℕ) : List (List UInt8) :=
  startFrame :: (List.replicate n blockFrame ++ [endFrame, responseFrame])

theorem decode_startFrame : decodeCommandFrame .standard startFrame = .ok (.startData ⟨1, 0⟩) := by
  decide

theorem decode_blockFrame : decodeCommandFrame .standard blockFrame = .ok (.data ⟨1, []⟩) := by
  decide

theorem decode_endFrame : decodeCommandFrame .standard endFrame = .ok (.endData ⟨1, []⟩) := by
  decide

theorem decode_responseFrame :
    decodeCommandFrame .standard responseFrame = .ok (.operationResponse ⟨Resp.ok, 1, []⟩) := by
  decide

theorem paddedFrames_carries (n : ℕ) :
    CarryPackets .standard (paddedFrames n) (paddedTransaction n) := by
  simp [CarryPackets, paddedFrames, paddedTransaction, decode_startFrame, decode_blockFrame,
    decode_endFrame, decode_responseFrame]

theorem paddedTransaction_transaction (n : ℕ) :
    Transaction .standard 1 (paddedTransaction n) ⟨⟨Resp.ok, 1, []⟩, [], true⟩ := by
  have hf : (List.replicate n ([] : List UInt8)).flatten ++ [] = [] := by simp
  have hcap : (0 : UInt64).toNat ≤ maxDataPhaseBytes := Nat.zero_le _
  have hlen : ((List.replicate n ([] : List UInt8)).flatten ++ []).length = (0 : UInt64).toNat := by
    rw [hf]
    rfl
  have ht := @Transaction.standard .standard 1 0 (List.replicate n []) []
    ⟨Resp.ok, 1, []⟩ rfl rfl hlen hcap
  rwa [hf] at ht

/-- Every block takes one of the frames that are left. -/
theorem reassemble_blocks (k : ℕ) (rest : List (Except TransportError (List UInt8))) : ∀ n : ℕ,
    reassemble .standard 1 (n + k) (opened 0 []) (List.replicate n (.ok blockFrame) ++ rest) =
      reassemble .standard 1 k (opened 0 []) rest
  | 0 => by simp
  | n + 1 => by
    have hd : frameDecode .standard blockFrame = .ok (.data ⟨1, []⟩) := decode_blockFrame
    rw [Nat.add_right_comm, replicate_succ, cons_append, reassemble, hd]
    exact reassemble_blocks k rest n

/-- A transaction of 65538 frames is well formed, and the loop gives up on
it. -/
theorem frame_limit_exceeded :
    CarryPackets .standard (paddedFrames 65535) (paddedTransaction 65535) ∧
      Transaction .standard 1 (paddedTransaction 65535) ⟨⟨Resp.ok, 1, []⟩, [], true⟩ ∧
      reassemble .standard 1 maxCommandFrames {} ((paddedFrames 65535).map .ok) =
        .error (.other "command frame limit exceeded") := by
  refine ⟨paddedFrames_carries _, paddedTransaction_transaction _, ?_⟩
  have hd : frameDecode .standard startFrame = .ok (.startData ⟨1, 0⟩) := decode_startFrame
  have hl : maxCommandFrames = 65535 + 0 + 1 := rfl
  rw [hl, paddedFrames, map_cons, map_append, map_replicate, reassemble, hd]
  exact reassemble_blocks 0 _ 65535

end Ptpsim.Executor
