/-
# The replies of a connection, as the executor receives them

All replies the service writes on a connection make up one stream of bytes. The
executor puts its answers together one after the other, each under the id of
its own transaction. They are the command handler's replies
(`replies_received`), as long as each reply can be carried (`Carried`). The
handler replies with what the engine answers, but refuses the operations of
other connections, and gives a frame of the live view to the operation that
polls for one (`replyTo`).
-/
import Ptpsim.Executor.IssueFrames
import Ptpsim.Service.WriteReply

namespace Ptpsim.Executor

open Ptpsim.Core Service Sim Store List LengthPrefixed Option Machine

/-- The frames of the live view, which are served over and over. -/
structure LoopingFrameSource where
  frames : List (List UInt8)
  idx : ℕ := 0

def LoopingFrameSource.nextFrame (f : LoopingFrameSource) :
    Option (List UInt8) × LoopingFrameSource :=
  if f.frames.isEmpty then (none, f)
  else (f.frames[f.idx % f.frames.length]?, { f with idx := f.idx + 1 })

/-- What the command handler of a connection goes by. -/
structure CommandContext where
  commandFraming : WireFraming
  /-- The operation that polls for the live view. -/
  pollLiveViewOp : Option UInt16 := none
  /-- The operations that the manifest gives to other connections only. -/
  disallowedOps : List UInt16 := []

/-- What the operations work on. -/
structure CommandResources where
  engine : Engine
  frames : LoopingFrameSource

/-- An operation of a connection, with the data phase that was collected. -/
abbrev Incoming := OperationRequest × Option (List UInt8)

/-- How writing a reply ended. -/
abbrev Written := EStateM.Result WireError (List UInt8) WrittenReply

def Written.bytes : Written → List UInt8
  | .ok _ bytes | .error _ bytes => bytes

/-- A plain OK carries the next frame, if there is one. -/
def pollLiveViewReply (reply : Reply) (frames : LoopingFrameSource) : Reply × LoopingFrameSource :=
  match reply with
  | .response response =>
    if response.code ≠ Resp.ok then (reply, frames)
    else match frames.nextFrame with
      | (none, frames) => (reply, frames)
      | (some data, frames) => (.data data response, frames)
  | _ => (reply, frames)

/-- The reply to an operation, and the wire fault it is to be written under. -/
def replyTo (context : CommandContext) (r : CommandResources) (op : Incoming) :
    (Reply × WirePlan) × CommandResources :=
  -- a refusal does not reach the engine
  if context.disallowedOps.contains op.1.code then
    ((.err op.1.transactionId Resp.operationNotSupported, .none), r)
  else
    let (reply, e) := r.engine.onOperation op.1 op.2
    let (fault, e) := e.takeAppliedFault
    let e := e.drainEvents.2
    let (reply, frames) :=
      if context.pollLiveViewOp = some op.1.code then pollLiveViewReply reply r.frames
      else (reply, r.frames)
    ((reply, (fault.map (·.wire)).getD .none), ⟨e, frames⟩)

section Serve

variable (overflowChecks : Bool) (disk : Disk) (context : CommandContext)

/-- An operation, as the command handler serves it: the reply is written, and
then the stream it carried is completed. -/
def serve (r : CommandResources) (op : Incoming) : (Reply × Written) × CommandResources :=
  let ((reply, wire), r) := replyTo context r op
  let written := writeReply overflowChecks disk context.commandFraming wire op.1 reply []
  ((reply, written), match written with
    | .ok { completion := some completion, .. } _ =>
      { r with engine := (r.engine.completeStream completion).2 }
    | _ => r)

/-- Answers are put together for one transaction after the other. -/
def receiveAll (framing : WireFraming) : List UInt32 → List (Except TransportError (List UInt8)) →
    Except IssueError (List Answer × List (Except TransportError (List UInt8)))
  | [], frames => .ok ([], frames)
  | tid :: tids, frames => do
    let (answer, frames) ← reassemble framing tid maxCommandFrames {} frames
    let (answers, frames) ← receiveAll framing tids frames
    return (answer :: answers, frames)

/-- The answer that a reply makes. -/
def answerOf : Reply → Option Answer
  | .response response => some ⟨response, [], false⟩
  | .data data response => some ⟨response, data, true⟩
  | .dataStream source response _ => some ⟨response, source.content disk, true⟩
  | .noResponse | .close => none

/-- The operation is answered without a wire fault, the answer fits its frames
and the executor's cap, and it is written without an error. -/
structure Carried (r : CommandResources) (op : Incoming) : Prop where
  wire : (replyTo context r op).1.2 = .none
  fits : FitsFrame disk (replyTo context r op).1.1
  answer : ∃ answer ∈ answerOf disk (replyTo context r op).1.1,
    answer.payload.length ≤ maxDataPhaseBytes
  written : ∃ report bytes, (serve overflowChecks disk context r op).1.2 = .ok report bytes

end Serve

/-! ### The reply names its transaction -/

/-- What holds of the refusals and of the engine's replies, and does not depend
on a data phase, holds of every reply. -/
theorem replyTo_cases {P : Reply → Prop} (context : CommandContext) (r : CommandResources)
    (op : Incoming) (hrefused : P (.err op.1.transactionId Resp.operationNotSupported))
    (hengine : P (r.engine.onOperation op.1 op.2).1)
    (hframe : ∀ response data, P (.response response) → P (.data data response)) :
    P (replyTo context r op).1.1 := by
  unfold replyTo
  split
  case isTrue => exact hrefused
  dsimp only
  split
  case isFalse => exact hengine
  revert hengine
  unfold pollLiveViewReply
  cases (r.engine.onOperation op.1 op.2).1 with
  | response response =>
    intro h
    dsimp only
    split
    · exact h
    · split
      · exact h
      · exact hframe _ _ h
  | _ => exact id

theorem replyTo_respondsTo (context : CommandContext) (r : CommandResources) (op : Incoming) :
    RespondsTo op.1.transactionId (replyTo context r op).1.1 :=
  replyTo_cases context r op ⟨rfl, Nat.zero_le 1⟩ (onOperation_respondsTo ..) fun _ _ h => h

/-! ### One reply -/

variable {overflowChecks : Bool} {disk : Disk} {context : CommandContext}

theorem transaction_of_answer {framing : WireFraming} {tid : UInt32} {reply : Reply}
    {answer : Answer} (ha : RespondsTo tid reply) (h : answerOf disk reply = some answer)
    (hle : answer.payload.length ≤ maxDataPhaseBytes) :
    Transaction framing tid (replyPackets disk framing tid reply) answer := by
  have hp : ∀ (payload : List UInt8) (response : OperationResponse),
      response.transactionId = tid → payload.length ≤ maxDataPhaseBytes →
      Transaction framing tid (dataPhase framing tid payload ++ [.operationResponse response])
        ⟨response, payload, true⟩ := by
    intro payload response ht hle
    have hmax : maxDataPhaseBytes = 536870912 := rfl
    have hl : (UInt64.ofNat payload.length).toNat = payload.length := by
      rw [UInt64.toNat_ofNat', Nat.mod_eq_of_lt (by omega)]
    match framing with
    | .standard =>
      exact @Transaction.standard _ _ _ [] payload response rfl ht hl.symm (hl.trans_le hle)
    | .compressed | .usb => exact .single (by decide) ht hle
  cases reply <;> cases h
  case response response => exact .bare ha.1
  case data data response => exact hp data response ha.1 hle
  case dataStream source response completion => exact hp _ response ha.1 hle

/-- What is written for a reply is taken in as its answer, whatever follows. -/
theorem serve_received {r : CommandResources} {op : Incoming}
    (h : Carried overflowChecks disk context r op) :
    ∃ answer frames packets,
      answerOf disk (serve overflowChecks disk context r op).1.1 = some answer ∧
      (serve overflowChecks disk context r op).1.2.bytes = frames.flatten ∧
      CarryPackets context.commandFraming frames packets ∧
      ∀ later, reassemble context.commandFraming op.1.transactionId maxCommandFrames {}
        (frames.map .ok ++ later) = .ok (answer, later) := by
  obtain ⟨answer, ha, hle⟩ := h.answer
  obtain ⟨report, bytes, hr⟩ := h.written
  have hw := (writeReply_iff overflowChecks disk context.commandFraming op.1
    (replyTo_respondsTo context r op)).mpr h.fits
  have hr' : writeReply overflowChecks disk context.commandFraming .none op.1
      (replyTo context r op).1.1 [] = .ok report bytes := by
    rw [← h.wire]
    exact hr
  rw [hr'] at hw
  obtain ⟨frames, hs, hc⟩ := hw
  have ht := @transaction_of_answer _ context.commandFraming _ _ _
    (replyTo_respondsTo context r op) ha hle
  have hlen : frames.length ≤ 3 := by
    have hl := congrArg length hc
    rw [length_map, length_map] at hl
    rw [hl]
    cases (replyTo context r op).1.1 <;> cases context.commandFraming <;>
      simp [replyPackets, dataPhase]
  refine ⟨answer, frames, _, ha, ?_, hc, fun later =>
    reassemble_iff.mpr ⟨frames, _, rfl, hlen.trans (by decide), hc, ht⟩⟩
  rw [hr, Written.bytes, flatten_of_closed hs]

/-! ### All replies -/

/-- **The executor receives what the handler replied.** For every run of
operations whose replies can be carried, the bytes that are written fall into
frames from which the executor puts together the answers, in order, and
nothing is left. -/
theorem replies_received (r : CommandResources) (ops : List Incoming)
    (h : Along (serve overflowChecks disk context) (Carried overflowChecks disk context) r ops) :
    let served := outputs (serve overflowChecks disk context) r ops
    ∃ answers, served.map (fun s => answerOf disk s.1) = answers.map some ∧
      receiveAll context.commandFraming (ops.map (·.1.transactionId))
        ((split (2 ^ 32) (served.flatMap (·.2.bytes))).1.map .ok) = .ok (answers, []) := by
  intro served
  suffices hs : ∃ answers frames packets,
      served.map (fun s => answerOf disk s.1) = answers.map some ∧
      served.flatMap (·.2.bytes) = frames.flatten ∧
        CarryPackets context.commandFraming frames packets ∧
      receiveAll context.commandFraming (ops.map (·.1.transactionId)) (frames.map .ok) =
        .ok (answers, []) by
    obtain ⟨answers, frames, packets, ha, hb, hc, hr⟩ := hs
    refine ⟨answers, ha, ?_⟩
    rw [hb, hc.split_flatten]
    exact hr
  induction ops generalizing r with
  | nil => exact ⟨[], [], [], rfl, rfl, rfl, rfl⟩
  | cons op ops ih =>
    obtain ⟨answer, frames, packets, ha, hb, hc, hr⟩ := serve_received h.1
    obtain ⟨answers, frames', packets', ha', hb', hc', hr'⟩ := ih _ h.2
    refine ⟨answer :: answers, frames ++ frames', _, ?_, ?_, hc.append hc', ?_⟩
    · exact congrArg₂ _ ha ha'
    · rw [flatten_append, ← hb, ← hb']
      rfl
    · rw [map_cons, receiveAll, map_append, hr]
      change (receiveAll context.commandFraming _ _ >>= _) = _
      rw [hr']
      rfl

/-- The manifest declares the polling operation, and `GetObject` is refused. -/
def pollContext : CommandContext where
  commandFraming := .standard
  pollLiveViewOp := some 0x9203
  disallowedOps := [Op.getObject]

/-- A card with one object, and a live view of one frame. -/
def pollResources : CommandResources where
  engine := { largeEngine with
    manifest := { camera := ⟨"", "", "", []⟩, operations := [("0x9203", {})] } }
  frames := ⟨[[255, 216]], 0⟩

def pollOps : List Incoming :=
  [(⟨1, Op.getObjectHandles, 2, []⟩, none), (⟨1, Op.getObject, 3, [1]⟩, none),
    (⟨1, 0x9203, 4, []⟩, none)]

/-- The card is listed, its object is not given out, and the live view is polled. -/
theorem replies_received_poll :
    receiveAll .standard [2, 3, 4] ((split (2 ^ 32) ((outputs (serve true largeDisk pollContext)
      pollResources pollOps).flatMap (·.2.bytes))).1.map .ok) =
      .ok ([⟨⟨Resp.ok, 2, []⟩, [1, 0, 0, 0, 1, 0, 0, 0], true⟩,
        ⟨⟨Resp.operationNotSupported, 3, []⟩, [], false⟩,
        ⟨⟨Resp.ok, 4, []⟩, [255, 216], true⟩], []) := by
  have hr : (outputs (serve true largeDisk pollContext) pollResources pollOps).map (·.1) =
      [.ofData 2 [1, 0, 0, 0, 1, 0, 0, 0], .err 3 Resp.operationNotSupported,
        .ofData 4 [255, 216]] := by decide +kernel
  have hc : Along (serve true largeDisk pollContext) (Carried true largeDisk pollContext)
      pollResources pollOps :=
    ⟨⟨rfl, show 12 + 8 < 2 ^ 32 by decide, ⟨_, rfl, by decide⟩, _, _, rfl⟩,
      ⟨rfl, trivial, ⟨_, rfl, by decide⟩, _, _, rfl⟩,
      ⟨rfl, show 12 + 2 < 2 ^ 32 by decide, ⟨_, rfl, by decide⟩, _, _, rfl⟩, trivial⟩
  obtain ⟨answers, ha, hre⟩ := replies_received pollResources pollOps hc
  have hs : answers.map some = [⟨⟨Resp.ok, 2, []⟩, [1, 0, 0, 0, 1, 0, 0, 0], true⟩,
      ⟨⟨Resp.operationNotSupported, 3, []⟩, [], false⟩,
      ⟨⟨Resp.ok, 4, []⟩, [255, 216], true⟩].map some :=
    ha.symm.trans (congrArg (List.map (answerOf largeDisk)) hr)
  rwa [map_injective_iff.mpr (some_injective _) hs] at hre

end Ptpsim.Executor
