/-
# The connection lifecycle

What is known about the layers of a connection: the network persona, the
command listener, the proxy transport, the PTP session and the feature in use.
A transition changes only the layers it is evidence for; losing a transport
leaves an open session and an active feature behind as unconfirmed. A tracker
keeps the current snapshot and the last 512 transitions.
-/
import Mathlib.Algebra.Group.Nat.Defs
import Mathlib.Data.List.Basic

namespace Ptpsim.Config

/-- An unconfirmed value was seen or asked for; the camera may have moved
on. -/
inductive LifecycleEvidence (α : Type) where
  | unknown
  | unconfirmed (value : α)
  | confirmed (value : α)
deriving DecidableEq

inductive NetworkPersonaState where
  | ready
  | exited
deriving DecidableEq

inductive CommandListenerState where
  | ready
deriving DecidableEq

inductive ProxyTransportState where
  | accepted
  | commandInitialized
  | lost
  | locallyClosed
deriving DecidableEq

inductive PtpSessionState where
  | «open»
  | closed
deriving DecidableEq

inductive FeatureMode where
  | liveView
  | imageTransfer
deriving DecidableEq

inductive FeatureState where
  | inactive
  | active (mode : FeatureMode)
deriving DecidableEq

/-- A connection's state, one field per axis. -/
structure ConnectionLifecycleSnapshot where
  sequence : UInt64 := 0
  networkPersona : LifecycleEvidence NetworkPersonaState := .unknown
  commandListener : LifecycleEvidence CommandListenerState := .unknown
  proxyTransport : LifecycleEvidence ProxyTransportState := .unknown
  ptpSession : LifecycleEvidence PtpSessionState := .unknown
  feature : LifecycleEvidence FeatureState := .unknown
deriving DecidableEq

/-- What moves a connection's state. -/
inductive ConnectionLifecycleTransition where
  | networkPersonaReady
  | networkPersonaExitRequested
  | networkPersonaExitConfirmed
  | commandListenerReady
  | proxyTransportAccepted
  | commandInitialized
  | proxyTransportLost
  | proxyTransportClosedLocally
  | ptpSessionOpened
  | ptpSessionClosed
  | featureEntered (mode : FeatureMode)
  | featureExited
deriving DecidableEq

structure ConnectionLifecycleTraceEvent where
  sequence : UInt64
  transition : ConnectionLifecycleTransition
  before : ConnectionLifecycleSnapshot
  after : ConnectionLifecycleSnapshot
deriving DecidableEq

/-- Why a transition is refused. -/
inductive ConnectionLifecycleError where
  | sequenceOverflow
deriving DecidableEq

namespace ConnectionLifecycleSnapshot

def markOpenLayersUnconfirmed (s : ConnectionLifecycleSnapshot) : ConnectionLifecycleSnapshot :=
  { s with
    ptpSession := if s.ptpSession = .confirmed .open then .unconfirmed .open else s.ptpSession
    feature := match s.feature with
      | .confirmed (.active mode) => .unconfirmed (.active mode)
      | feature => feature }

/-- The layers after a transition; the sequence number is not touched. -/
def observe (s : ConnectionLifecycleSnapshot) :
    ConnectionLifecycleTransition → ConnectionLifecycleSnapshot
  | .networkPersonaReady => { s with networkPersona := .confirmed .ready }
  | .networkPersonaExitRequested => { s with networkPersona := .unconfirmed .exited }
  | .networkPersonaExitConfirmed => { s with networkPersona := .confirmed .exited }
  | .commandListenerReady => { s with commandListener := .confirmed .ready }
  | .proxyTransportAccepted => { s with proxyTransport := .confirmed .accepted }
  | .commandInitialized =>
    { s with
      commandListener := .confirmed .ready
      proxyTransport := .confirmed .commandInitialized }
  | .proxyTransportLost =>
    markOpenLayersUnconfirmed { s with proxyTransport := .confirmed .lost }
  | .proxyTransportClosedLocally =>
    markOpenLayersUnconfirmed { s with proxyTransport := .confirmed .locallyClosed }
  | .ptpSessionOpened => { s with ptpSession := .confirmed .open }
  | .ptpSessionClosed =>
    { s with ptpSession := .confirmed .closed, feature := .confirmed .inactive }
  | .featureEntered mode => { s with feature := .confirmed (.active mode) }
  | .featureExited => { s with feature := .confirmed .inactive }

end ConnectionLifecycleSnapshot

def applyConnectionLifecycleTransition (before : ConnectionLifecycleSnapshot)
    (transition : ConnectionLifecycleTransition) :
    Except ConnectionLifecycleError ConnectionLifecycleTraceEvent :=
  if before.sequence.toNat + 1 < 2 ^ 64 then
    let sequence := before.sequence + 1
    .ok ⟨sequence, transition, before, { before.observe transition with sequence := sequence }⟩
  else .error .sequenceOverflow

def maxConnectionLifecycleTraceEvents : ℕ := 512

structure ConnectionLifecycleTracker where
  snapshot : ConnectionLifecycleSnapshot := {}
  trace : List ConnectionLifecycleTraceEvent := []

/-- The trace drops its oldest event once it is full. -/
def ConnectionLifecycleTracker.apply (t : ConnectionLifecycleTracker)
    (transition : ConnectionLifecycleTransition) :
    Except ConnectionLifecycleError ConnectionLifecycleTracker := do
  let event ← applyConnectionLifecycleTransition t.snapshot transition
  let trace := t.trace ++ [event]
  return ⟨event.after,
    if trace.length > maxConnectionLifecycleTraceEvents then trace.tail else trace⟩

/-! ### The trace -/

/-- What is known of the session after a transition. -/
def LifecycleEvidence.observeSession (evidence : LifecycleEvidence PtpSessionState) :
    ConnectionLifecycleTransition → LifecycleEvidence PtpSessionState
  | .ptpSessionOpened => .confirmed .open
  | .ptpSessionClosed => .confirmed .closed
  | .proxyTransportLost | .proxyTransportClosedLocally =>
    if evidence = .confirmed .open then .unconfirmed .open else evidence
  | _ => evidence

theorem ConnectionLifecycleSnapshot.observe_ptpSession (s : ConnectionLifecycleSnapshot)
    (transition : ConnectionLifecycleTransition) :
    (s.observe transition).ptpSession = s.ptpSession.observeSession transition := by
  cases transition <;> rfl

theorem applyConnectionLifecycleTransition_ok {before : ConnectionLifecycleSnapshot}
    {transition : ConnectionLifecycleTransition} {event : ConnectionLifecycleTraceEvent}
    (h : applyConnectionLifecycleTransition before transition = .ok event) :
    event.transition = transition ∧ event.sequence = event.after.sequence ∧
      before.sequence < event.after.sequence ∧
      event.after.ptpSession = before.ptpSession.observeSession transition := by
  unfold applyConnectionLifecycleTransition at h
  by_cases hr : before.sequence.toNat + 1 < 2 ^ 64
  · rw [if_pos hr] at h
    obtain rfl := Except.ok.inj h
    refine ⟨rfl, rfl, ?_, before.observe_ptpSession transition⟩
    rw [UInt64.lt_iff_toNat_lt, UInt64.toNat_add]
    change _ < (_ + 1) % 2 ^ 64
    omega
  · rw [if_neg hr] at h
    cases h

namespace ConnectionLifecycleTracker

variable {t next : ConnectionLifecycleTracker} {transition : ConnectionLifecycleTransition}

/-- No event of the trace is later than the snapshot. -/
def Ordered (t : ConnectionLifecycleTracker) : Prop :=
  ∀ event ∈ t.trace, event.sequence ≤ t.snapshot.sequence

theorem apply_ok (h : t.apply transition = .ok next) : ∃ older event,
    next.trace = older ++ [event] ∧ (∀ past ∈ older, past ∈ t.trace) ∧
    event.transition = transition ∧ event.sequence = next.snapshot.sequence ∧
    t.snapshot.sequence < next.snapshot.sequence ∧
    next.snapshot.ptpSession = t.snapshot.ptpSession.observeSession transition := by
  unfold apply at h
  rcases he : applyConnectionLifecycleTransition t.snapshot transition with _ | event
  · rw [he] at h
    cases h
  · rw [he] at h
    obtain rfl := Except.ok.inj h
    have hok := applyConnectionLifecycleTransition_ok he
    by_cases hf : t.trace.length + 1 > maxConnectionLifecycleTraceEvents
    · have hne : t.trace ≠ [] := by
        intro hnil
        simp [hnil, maxConnectionLifecycleTraceEvents] at hf
      refine ⟨t.trace.tail, event, ?_, fun past => List.mem_of_mem_tail, hok⟩
      simp [hf, List.tail_append_of_ne_nil hne]
    · exact ⟨t.trace, event, by simp [hf], fun past => id, hok⟩

theorem Ordered.apply (hor : t.Ordered) (h : t.apply transition = .ok next) :
    next.Ordered := by
  obtain ⟨older, event, ht, ho, -, hs, hlt, -⟩ := apply_ok h
  intro past hmem
  rw [ht, List.mem_append, List.mem_singleton] at hmem
  rcases hmem with hp | rfl
  · exact UInt64.le_trans (hor past (ho past hp)) (UInt64.le_of_lt hlt)
  · exact hs ▸ UInt64.le_refl _

/-- The transitions that were applied after the sequence number. -/
def since (t : ConnectionLifecycleTracker) (sequence : UInt64) :
    List ConnectionLifecycleTransition :=
  (t.trace.filter fun event => event.sequence > sequence).map (·.transition)

theorem Ordered.since_now (h : t.Ordered) : t.since t.snapshot.sequence = [] := by
  rw [since, List.map_eq_nil_iff, List.filter_eq_nil_iff]
  intro event hmem
  simpa using h event hmem

theorem Ordered.since_apply (hor : t.Ordered) (h : t.apply transition = .ok next) :
    next.since t.snapshot.sequence = [transition] := by
  obtain ⟨older, event, ht, ho, htr, hs, hlt, -⟩ := apply_ok h
  have hold : older.filter (fun event => event.sequence > t.snapshot.sequence) = [] := by
    rw [List.filter_eq_nil_iff]
    intro past hmem
    simpa using hor past (ho past hmem)
  have hl : event.sequence > t.snapshot.sequence := hs ▸ hlt
  simp [since, ht, List.filter_append, hold, hl, htr]

end ConnectionLifecycleTracker
end Ptpsim.Config
