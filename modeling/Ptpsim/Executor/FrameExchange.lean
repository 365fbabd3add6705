/-
# An exchange over frames

A step exchanges frames with its host call by call. An exchange that succeeds
has had an answer to each of its calls (`Host.Answers`): it has reserved a
transaction, has sent its frames, and has put its reply together from frames
that make up a transaction. The data phases that are sent are the ones the
simulator service collects (`reassembly_and_collection`).
-/
import Ptpsim.Executor.Ctx

namespace Ptpsim.Executor

open Codec Ptpsim.Core Primitives Service List
open Interrupt hiding Exec
open Sim (WireFraming)

section Exchange

variable {τ : Type} {setup : Setup} {host : Host τ} {here : Path} {c c' : PtpCtx τ}

/-- The host answers the calls one after the other, each with success. -/
def Host.Answers (host : Host τ) : List ((r : Request) × r.Reply) → τ → τ → Prop
  | [], t, t' => t' = t
  | ⟨r, a⟩ :: calls, t, t' =>
    ∃ next, host.answer r t = (.reply (.ok a), next) ∧ host.Answers calls next t'

theorem answers_append : ∀ {calls calls' : List ((r : Request) × r.Reply)} {t t' t'' : τ},
    host.Answers calls t t' → host.Answers calls' t' t'' → host.Answers (calls ++ calls') t t''
  | [], _, _, _, _, h, h' => h ▸ h'
  | ⟨_, _⟩ :: _, _, _, _, _, ⟨next, ha, h⟩, h' => ⟨next, ha, answers_append h h'⟩

/-- Frames on their way out, and on their way in. -/
def sends (frames : List (List UInt8)) : List ((r : Request) × r.Reply) :=
  frames.map fun frame => ⟨.sendCommandFrame frame, ()⟩

def receives (frames : List (List UInt8)) : List ((r : Request) × r.Reply) :=
  frames.map fun frame => ⟨.nextCommandFrame, frame⟩

theorem transportDeadline_ok {r : Request} {a : r.Reply} {ms : UInt32}
    (h : transportDeadline host r ms here c = .ok a c') :
    host.Answers [⟨r, a⟩] c.host c'.host := by
  rcases ha : host.answer r c.host with ⟨(error | b) | ⟨_ | level, clock⟩, next⟩
  all_goals simp only [transportDeadline, race, bind, EStateM.bind, call, ha] at h
  case reply.ok =>
    cases h
    exact ⟨next, ha, rfl⟩
  all_goals cases h

theorem orFail_ok {ε α : Type} {error : ε → StepError} {r : Except ε α} {a : α}
    (h : (orFail error r : Exec τ α) c = .ok a c') : r = .ok a ∧ c = c' := by
  cases r with
  | error e => cases h
  | ok a =>
    cases h
    exact ⟨rfl, rfl⟩

theorem sendEncoded_ok {r : Except WireError (List UInt8)}
    (h : (encoded here r >>= sendFrame host here) c = .ok () c') :
    ∃ frame, r = .ok frame ∧ host.Answers (sends [frame]) c.host c'.host := by
  obtain ⟨frame, c₁, he, hs⟩ := of_bind_run_ok h
  rcases r with e | frame
  · cases e <;> cases he
  · cases he
    exact ⟨frame, rfl, transportDeadline_ok hs⟩

/-- A data phase that goes out is the one its frames carry. -/
theorem sendData_ok {operation : UInt16} {tid : UInt32} {payload : List UInt8}
    (h : sendData setup host here operation tid payload c = .ok () c') :
    ∃ phase, host.Answers (sends phase) c.host c'.host ∧ (12 + payload.length < 2 ^ 32 →
      phase = dataFrames setup.commandFraming operation tid payload) := by
  unfold sendData at h
  cases hfr : setup.commandFraming with
  | standard =>
    simp only [hfr] at h
    obtain ⟨_, c₁, hs, hl⟩ := of_bind_run_ok h
    obtain ⟨start, hst, ha⟩ := sendEncoded_ok hs
    obtain ⟨last, hla, ha'⟩ := sendEncoded_ok hl
    rw [hfr] at hst
    rw [hfr, frameEncode, encodeControlFrame, encode_endData] at hla
    cases hst
    cases hla
    exact ⟨dataFrames .standard operation tid payload, answers_append ha ha', fun _ => rfl⟩
  | compressed =>
    simp only [hfr] at h
    obtain ⟨frame, he, ha⟩ := sendEncoded_ok h
    refine ⟨[frame], ha, fun hf => ?_⟩
    rw [buildData, encodeData_fits hf] at he
    cases he
    rfl
  | usb =>
    simp only [hfr] at h
    obtain ⟨frame, ⟨⟩, ha⟩ := sendEncoded_ok h
    exact ⟨_, ha, fun _ => rfl⟩

/-- What is received is put together as the frames of a list are. -/
theorem receive_ok {tid : UInt32} {answer : Answer} : ∀ {n : ℕ} {s : DataPhase} {c : PtpCtx τ},
    receive setup host here tid n s c = .ok answer c' →
    ∃ frames, host.Answers (receives frames) c.host c'.host ∧
      reassemble setup.commandFraming tid n s (frames.map .ok) = .ok (answer, [])
  | 0, _, _, h => by cases h
  | n + 1, s, c, h => by
    obtain ⟨frame, c₁, ha, h₁⟩ := of_bind_run_ok h
    obtain ⟨packet, c₂, hpa, h₂⟩ := of_bind_run_ok h₁
    obtain ⟨progress, c₃, hpr, h₃⟩ := of_bind_run_ok h₂
    obtain ⟨hd, rfl⟩ := orFail_ok hpa
    obtain ⟨hp, rfl⟩ := orFail_ok hpr
    cases progress with
    | more s' =>
      obtain ⟨frames, hf, hr⟩ := receive_ok h₃
      refine ⟨frame :: frames, answers_append (transportDeadline_ok ha) hf, ?_⟩
      simp only [map_cons, reassemble, hd, hp, hr]
    | done response =>
      cases h₃
      exact ⟨[frame], transportDeadline_ok ha, by simp only [map_cons, map_nil, reassemble, hd, hp]⟩

theorem putAnswer_ok {txMeta : TxMeta} {payload : List UInt8} {params : List UInt32}
    {present : Bool} {reply : WireReply}
    (h : putAnswer setup host here txMeta payload params present c = .ok reply c') :
    reply.txMeta = txMeta ∧ reply.payload = payload := by
  unfold putAnswer at h
  split at h
  · obtain ⟨_, c₁, -, hp⟩ := of_bind_run_ok h
    cases hp
    exact ⟨rfl, rfl⟩
  · cases h
    exact ⟨rfl, rfl⟩

/-- A reply has been put together from what was received. -/
theorem exchangeFrames_ok {operation : UInt16} {params : List UInt32}
    {dataOut : Option (List UInt8)} {property : Option UInt16} {reply : WireReply}
    (h : exchangeFrames setup host here operation params dataOut property c = .ok reply c') :
    ∃ tid sent frames answer t,
      host.Answers (⟨.reserveTransactionId, tid⟩ :: (sends sent ++ receives frames)) c.host t ∧
      reassemble setup.commandFraming tid maxCommandFrames {} (frames.map .ok) = .ok (answer, []) ∧
      reply.payload = answer.payload ∧
      reply.txMeta = ⟨operation, property, answer.response.code, tid⟩ := by
  obtain ⟨tid, c₁, ht, h₁⟩ := of_bind_run_ok h
  obtain ⟨_, c₂, hc, h₂⟩ := of_bind_run_ok h₁
  obtain ⟨command, -, hcs⟩ := sendEncoded_ok hc
  suffices hd : ∃ phase c₃, host.Answers (sends phase) c₂.host c₃.host ∧ (do
      let answer ← receive setup host here tid maxCommandFrames {}
      putAnswer setup host here ⟨operation, property, answer.response.code, tid⟩ answer.payload
        answer.response.params answer.hadData : Exec τ WireReply) c₃ = .ok reply c' by
    obtain ⟨phase, c₃, hph, h₃⟩ := hd
    obtain ⟨answer, c₄, ha, h₄⟩ := of_bind_run_ok h₃
    obtain ⟨frames, hfr, hre⟩ := receive_ok ha
    obtain ⟨htx, hpa⟩ := putAnswer_ok h₄
    exact ⟨tid, command :: phase, frames, answer, c₄.host, answers_append (transportDeadline_ok ht)
      (answers_append (answers_append hcs hph) hfr), hre, hpa, htx⟩
  cases dataOut with
  | none => exact ⟨[], c₂, rfl, h₂⟩
  | some payload =>
    obtain ⟨_, c₃, hs, h₃⟩ := of_bind_run_ok h₂
    obtain ⟨phase, hph, -⟩ := sendData_ok hs
    exact ⟨phase, c₃, hph, h₃⟩

end Exchange

/-- **The executor's frames.** For every framing and transaction, the reassembly
accepts exactly the beginnings of a list of frames that are transactions of at
most `MAX_COMMAND_FRAMES` frames, with the payload of their data phase. Whatever
the host does, an exchange succeeds only with an answer that the frames it was
handed make up. The frames of a data phase of at most one mebibyte that it sends
are collected by the service as this payload, in whatever pieces they arrive and
whatever follows them. -/
theorem reassembly_and_collection (framing : WireFraming) :
    (∀ tid frames answer rest,
      reassemble framing tid maxCommandFrames {} frames = .ok (answer, rest) ↔
        ∃ accepted packets, frames = accepted.map .ok ++ rest ∧
          accepted.length ≤ maxCommandFrames ∧ CarryPackets framing accepted packets ∧
          Transaction framing tid packets answer) ∧
    ∀ {τ : Type} (setup : Setup) (host : Host τ) (here : Path) (operation : UInt16)
      (c c' : PtpCtx τ), setup.commandFraming = framing →
      (∀ params dataOut property reply,
        exchangeFrames setup host here operation params dataOut property c = .ok reply c' →
        ∃ tid sent frames answer t,
          host.Answers (⟨.reserveTransactionId, tid⟩ :: (sends sent ++ receives frames)) c.host t ∧
          reassemble framing tid maxCommandFrames {} (frames.map .ok) = .ok (answer, []) ∧
          reply.payload = answer.payload ∧
          reply.txMeta = ⟨operation, property, answer.response.code, tid⟩) ∧
      ∀ tid payload, payload.length ≤ maxDataInBytes →
        sendData setup host here operation tid payload c = .ok () c' →
        ∃ phase, host.Answers (sends phase) c.host c'.host ∧ ∀ later events ended,
          let s := Session.reads dataFrameBytes (phase.flatten ++ later) events
          (phase.length ≤ s.frames.length → collectDataIn framing tid s.frames ended =
            .ok payload) ∧
          ((phase.flatten ++ later).length < readCount events →
            phase.length ≤ s.frames.length) := by
  refine ⟨fun tid frames answer rest => reassemble_iff, ?_⟩
  rintro τ setup host here operation c c' rfl
  refine ⟨fun params dataOut property reply h => exchangeFrames_ok h, fun tid payload hsi h => ?_⟩
  have hf : 12 + payload.length < 2 ^ 32 := by
    have hcap : maxDataInBytes = 1048576 := rfl
    omega
  obtain ⟨phase, ha, hp⟩ := sendData_ok h
  refine ⟨phase, ha, fun later events ended => ?_⟩
  rw [hp hf]
  exact collected_of_sent hsi (dataFrames_carries _ operation tid hf) later events ended

end Ptpsim.Executor
