/-
# The lifecycle records of the command connections

All command connections of the service share one engine with one PTP session.
The service keeps the connection that opened the session as its owner, and a
lifecycle record of each connection, with what is known of its session.

An operation takes all three locks at once. A teardown takes two sections: in
the first the connection, if it is the owner, clears the session and the
ownership, and in the second its record is finished. Between the two its record
still shows the session as open, and another connection may already have opened
the next one (`session_evidence`, `released_session_shown`).
-/
import Mathlib.Logic.Function.Basic
import Ptpsim.Lib.Machine
import Ptpsim.Sim.Run
import Ptpsim.Sim.Sessions

namespace Ptpsim.Service

open Ptpsim.Core Config Sim List Option Function
open Machine (Ends)

/-! ### Records -/

inductive CommandTerminalReason where
  | acknowledgedCloseSession
  | localCleanClose
  | peerEof
  | transportError
deriving DecidableEq

def CommandTerminalReason.transition : CommandTerminalReason → ConnectionLifecycleTransition
  | acknowledgedCloseSession | localCleanClose => .proxyTransportClosedLocally
  | peerEof | transportError => .proxyTransportLost

/-- How a locked section may panic: a record is not where it has to be, or a
tracker has used up its sequence numbers. -/
inductive LifecyclePanic where
  | lookup (message : String)
  | sequenceExhausted
deriving DecidableEq

structure ConnectionLifecycleEntry where
  tracker : ConnectionLifecycleTracker := {}
  terminalReason : Option CommandTerminalReason := none

/-- The command connections of the service. -/
structure ConnectionLifecycles where
  entries : UInt64 → Option ConnectionLifecycleEntry := fun _ => none
  completed : List UInt64 := []

def maxCompletedConnectionLifecycles : ℕ := 64

def record (tracker : ConnectionLifecycleTracker) (transition : ConnectionLifecycleTransition) :
    Except LifecyclePanic ConnectionLifecycleTracker :=
  match tracker.apply transition with
  | .ok next => .ok next
  | .error _ => .error .sequenceExhausted

/-- The transitions that concern the shared session. -/
def isShared : ConnectionLifecycleTransition → Bool
  | .ptpSessionOpened | .ptpSessionClosed | .featureEntered _ | .featureExited => true
  | _ => false

namespace ConnectionLifecycles

variable (l : ConnectionLifecycles) (sessionSequence : UInt64)

def insert (n : UInt64) (entry : ConnectionLifecycleEntry) : ConnectionLifecycles :=
  { l with entries := Function.update l.entries n (some entry) }

def lookup (l : ConnectionLifecycles) (message : String) (n : UInt64) :
    Except LifecyclePanic ConnectionLifecycleEntry :=
  match l.entries n with
  | some entry => .ok entry
  | none => .error (.lookup message)

def accepted : Except LifecyclePanic ConnectionLifecycles := do
  let tracker ← record {} .commandListenerReady
  let tracker ← record tracker .proxyTransportAccepted
  return l.insert sessionSequence { tracker := tracker }

def applyTo (message : String) (sessionSequence : UInt64)
    (transition : ConnectionLifecycleTransition) : Except LifecyclePanic ConnectionLifecycles := do
  let entry ← l.lookup message sessionSequence
  let tracker ← record entry.tracker transition
  return l.insert sessionSequence { entry with tracker := tracker }

def apply (transition : ConnectionLifecycleTransition) :
    Except LifecyclePanic ConnectionLifecycles :=
  l.applyTo "accepted connection lifecycle must remain active until handler teardown"
    sessionSequence transition

/-- The record an operation goes to: the owner's as long as it is not
finished, else the sender's. -/
def trackerSequence (owner : Option UInt64) (sender : UInt64) : UInt64 :=
  (owner.filter fun n => (l.entries n).any fun entry => entry.terminalReason.isNone).getD sender

/-- What a transition of an operation does to the sender's record and to the
ownership. -/
def share (sender tracked : UInt64) (r : Option UInt64 × ConnectionLifecycles)
    (transition : ConnectionLifecycleTransition) :
    Except LifecyclePanic (Option UInt64 × ConnectionLifecycles) := do
  let (owner, l) := r
  let l ← if sender ≠ tracked then
      l.applyTo "operation sender must have an active lifecycle" sender transition
    else pure l
  match transition with
  | .ptpSessionOpened =>
    let l ← if tracked ≠ sender then
        l.applyTo "previous owner lifecycle was used for dispatch" tracked .ptpSessionClosed
      else pure l
    return (some sender, l)
  | .ptpSessionClosed => return (none, l)
  | _ => return (owner, l)

/-- Hands an operation to the engine with the tracker of the session's owner.
A tracker at the end of its sequence numbers is taken to panic. -/
def dispatchOperation (e : Engine) (owner : Option UInt64) (sender : UInt64)
    (req : OperationRequest) (dataIn : Option (List UInt8)) :
    Except LifecyclePanic ((Reply × Engine) × (Option UInt64 × ConnectionLifecycles)) := do
  let tracked := l.trackerSequence owner sender
  let entry ← l.lookup "dispatch requires an active connection lifecycle" tracked
  let before := entry.tracker.snapshot.sequence
  if before.toNat + 1 < 2 ^ 64 then
    let result := e.onOperationWithConnectionLifecycle entry.tracker req dataIn
    let transitions := (result.1.2.since before).filter isShared
    let shared ← transitions.foldlM (share sender tracked)
      (owner, l.insert tracked { entry with tracker := result.1.2 })
    return ((result.1.1, result.2), shared)
  else throw .sequenceExhausted

/-- Drops the oldest completed records beyond the number that is kept. -/
def expire (entries : UInt64 → Option ConnectionLifecycleEntry) :
    List UInt64 → ConnectionLifecycles
  | [] => ⟨entries, []⟩
  | expired :: completed =>
    if (expired :: completed).length > maxCompletedConnectionLifecycles then
      expire (Function.update entries expired none) completed
    else ⟨entries, expired :: completed⟩

def finish (reason : CommandTerminalReason) : Except LifecyclePanic ConnectionLifecycles :=
  match l.entries sessionSequence with
  | none => pure l
  | some entry =>
    if entry.terminalReason.isSome then pure l
    else do
      let tracker ← record entry.tracker reason.transition
      let l' := l.insert sessionSequence { tracker := tracker, terminalReason := some reason }
      return expire l'.entries (l.completed ++ [sessionSequence])

end ConnectionLifecycles

/-! ### The service -/

/-- Where the handler of a connection stands. `gaveUp` tells whether it has
given up the session in the first section of its teardown. -/
inductive Handler where
  | serving
  | released (gaveUp : Bool)
  | ended
deriving DecidableEq

/-- The service as its handlers see it. -/
structure CommandService where
  engine : Engine
  owner : Option UInt64 := none
  lifecycles : ConnectionLifecycles := {}
  handlers : UInt64 → Option Handler := fun _ => none

/-- The locked sections of the command handlers. Connections are numbered
afresh; a cancelled handler leaves the first section of its teardown out. -/
inductive Section where
  | accept (sessionSequence : UInt64)
  | initialized (sessionSequence : UInt64)
  | operation (sessionSequence : UInt64) (req : OperationRequest) (dataIn : Option (List UInt8))
  | completeStream (completion : StreamCompletion)
  | release (sessionSequence : UInt64)
  | finish (sessionSequence : UInt64) (reason : CommandTerminalReason)
  | cancel (sessionSequence : UInt64)

namespace CommandService

variable (s : CommandService)

def setHandler (n : UInt64) (handler : Handler) : CommandService :=
  { s with handlers := Function.update s.handlers n (some handler) }

def finish (s : CommandService) (n : UInt64) (reason : CommandTerminalReason) :
    Except LifecyclePanic CommandService := do
  let l ← s.lifecycles.finish n reason
  return { s with lifecycles := l }.setHandler n .ended

/-- Session teardown belongs to the connection that opened the session. -/
def release (n : UInt64) : CommandService :=
  if s.owner = some n then
    { s with engine := s.engine.clearSessionAfterTransportEnd, owner := none }.setHandler n
      (.released true)
  else s.setHandler n (.released false)

/-- One locked section; a section of a handler that does not stand before it
does not happen. -/
def step : Section → Except LifecyclePanic CommandService
  | .accept n =>
    if s.handlers n = none then do
      let l ← s.lifecycles.accepted n
      return { s with lifecycles := l }.setHandler n .serving
    else pure s
  | .initialized n =>
    if s.handlers n = some .serving then do
      let l ← s.lifecycles.apply n .commandInitialized
      return { s with lifecycles := l }
    else pure s
  | .operation n req dataIn =>
    if s.handlers n = some .serving then do
      let ((_, e), (owner, l)) ← s.lifecycles.dispatchOperation s.engine s.owner n req dataIn
      return { s with
        engine := e.takeAppliedFault.2.drainEvents.2, owner := owner, lifecycles := l }
    else pure s
  | .completeStream completion => return { s with engine := (s.engine.completeStream completion).2 }
  | .release n => if s.handlers n = some .serving then return s.release n else pure s
  | .finish n reason =>
    match s.handlers n with
    | some (.released _) => s.finish n reason
    | _ => pure s
  | .cancel n => if s.handlers n = some .serving then s.finish n .localCleanClose else pure s

/-- The service after the sections, in any order. -/
def run (e : Engine) (sections : List Section) : Except LifecyclePanic CommandService :=
  sections.foldlM step { engine := e }

end CommandService

/-! ### What the records show -/

/-- What the unfinished record of a connection shows of its session. -/
def ConnectionLifecycles.shown (l : ConnectionLifecycles) (n : UInt64) :
    Option (LifecycleEvidence PtpSessionState) :=
  (l.entries n).bind fun entry =>
    if entry.terminalReason = none then some entry.tracker.snapshot.ptpSession else none

namespace CommandService

/-- At most one unfinished record shows an open session, and its connection is
the owner. -/
def OneSession (s : CommandService) : Prop :=
  (∀ n m, s.lifecycles.shown n = some (.confirmed .open) →
    s.lifecycles.shown m = some (.confirmed .open) → n = m) ∧
  ∀ n, s.lifecycles.shown n = some (.confirmed .open) → s.owner = some n

end CommandService

namespace ConnectionLifecycles

variable {l : ConnectionLifecycles} {evidence : LifecycleEvidence PtpSessionState} {sender : UInt64}
  {n : UInt64}

theorem shown_eq_some :
    l.shown n = some evidence ↔ ∃ entry, l.entries n = some entry ∧
      entry.terminalReason = none ∧ entry.tracker.snapshot.ptpSession = evidence := by
  simp [shown, bind_eq_some_iff]

variable (l) in
theorem insert_shown (n : UInt64) (entry : ConnectionLifecycleEntry) :
    (l.insert n entry).shown = Function.update l.shown n
      (if entry.terminalReason = none then some entry.tracker.snapshot.ptpSession else none) := by
  funext m
  by_cases hm : m = n
  · subst hm
    simp [shown, insert]
  · simp [shown, insert, hm]

/-- What the proofs need to know of the records: what they show, which of them
are completed, and that the traces are in order. -/
structure Shows (l : ConnectionLifecycles) (completed : List UInt64)
    (shown : UInt64 → Option (LifecycleEvidence PtpSessionState)) : Prop where
  completed_eq : l.completed = completed
  shown_eq : l.shown = shown
  ordered : ∀ n entry, l.entries n = some entry → entry.tracker.Ordered

variable {completed : List UInt64} {shown : UInt64 → Option (LifecycleEvidence PtpSessionState)}

theorem Shows.insert (h : l.Shows completed shown) (n : UInt64) (entry : ConnectionLifecycleEntry)
    (he : entry.tracker.Ordered) : (l.insert n entry).Shows completed (Function.update shown n
      (if entry.terminalReason = none then some entry.tracker.snapshot.ptpSession else none)) := by
  refine ⟨h.completed_eq, by rw [insert_shown, h.shown_eq], fun m entry' he' => ?_⟩
  by_cases hm : m = n
  · subst hm
    simp only [ConnectionLifecycles.insert, update_self, Option.some.injEq] at he'
    exact he' ▸ he
  · simp only [ConnectionLifecycles.insert, update_of_ne hm] at he'
    exact h.ordered m entry' he'

/-- No other panic than the end of the sequence numbers. -/
def OnlyExhausted (panic : LifecyclePanic) : Prop := panic = .sequenceExhausted

theorem record_ends {tracker : ConnectionLifecycleTracker} (h : tracker.Ordered)
    (transition : ConnectionLifecycleTransition) :
    Ends (fun next => next.Ordered ∧ next.snapshot.ptpSession =
        tracker.snapshot.ptpSession.observeSession transition)
      OnlyExhausted (record tracker transition) := by
  unfold record
  rcases hn : tracker.apply transition with _ | next
  · exact rfl
  · obtain ⟨-, -, -, -, -, -, -, hs⟩ := ConnectionLifecycleTracker.apply_ok hn
    exact ⟨h.apply hn, hs⟩

theorem applyTo_ends (h : l.Shows completed shown) (hn : shown n = some evidence) (message : String)
    (transition : ConnectionLifecycleTransition) :
    Ends (fun l' => l'.Shows completed
        (Function.update shown n (some (evidence.observeSession transition))))
      OnlyExhausted (l.applyTo message n transition) := by
  rw [← h.shown_eq, shown_eq_some] at hn
  obtain ⟨entry, he, hr, rfl⟩ := hn
  unfold applyTo lookup
  rw [he]
  refine (record_ends (h.ordered n entry he) transition).bind fun tracker ht => ?_
  have hi := h.insert n { entry with tracker := tracker } ht.1
  rwa [if_pos hr, ht.2] at hi

/-! ### Operations -/

/-- The owner after a transition of the sender's operation. -/
def ownerAfter (sender : UInt64) (owner : Option UInt64) :
    ConnectionLifecycleTransition → Option UInt64
  | .ptpSessionOpened => some sender
  | .ptpSessionClosed => none
  | _ => owner

/-- What the records show after transitions that go to two of them. -/
def told (shown : UInt64 → Option (LifecycleEvidence PtpSessionState)) (tracked sender : UInt64)
    (transitions : List ConnectionLifecycleTransition) (n : UInt64) :
    Option (LifecycleEvidence PtpSessionState) :=
  if n = tracked ∨ n = sender then
    (shown n).map fun evidence => transitions.foldl LifecycleEvidence.observeSession evidence
  else shown n

variable {tracked : UInt64}

theorem share_ends (hne : tracked ≠ sender) {transition : ConnectionLifecycleTransition}
    (ho : transition ≠ .ptpSessionOpened) (h : l.Shows completed shown)
    (hs : shown sender = some evidence) (owner : Option UInt64) :
    Ends (fun r => r.1 = ownerAfter sender owner transition ∧ r.2.Shows completed
        (Function.update shown sender (some (evidence.observeSession transition))))
      OnlyExhausted (share sender tracked (owner, l) transition) := by
  unfold share
  simp only [if_pos hne.symm]
  refine (applyTo_ends h hs _ transition).bind fun l' hl' => ?_
  cases transition <;> first | exact absurd rfl ho | exact ⟨rfl, hl'⟩

theorem share_self (owner : Option UInt64) (l : ConnectionLifecycles)
    (transition : ConnectionLifecycleTransition) :
    share sender sender (owner, l) transition = .ok (ownerAfter sender owner transition, l) := by
  unfold share
  cases transition <;> simp [ownerAfter] <;> rfl

variable (l) in
/-- The record an operation goes to is the unfinished one of the owner, or the
sender's if there is none. -/
theorem trackerSequence_cases (owner : Option UInt64) (sender : UInt64) :
    l.trackerSequence owner sender = sender ∧ (∀ n, owner = some n → l.shown n = none) ∨
      owner = some (l.trackerSequence owner sender) ∧
        (l.shown (l.trackerSequence owner sender)).isSome = true := by
  unfold trackerSequence
  rcases owner with _ | n
  · exact .inl ⟨rfl, fun n h => nomatch h⟩
  · by_cases hn : (l.entries n).any (fun entry => entry.terminalReason.isNone) = true
    · simp only [filter_some, hn, if_true, getD_some, true_and]
      obtain ⟨entry, he, hr⟩ := any_eq_true _ _ |>.mp hn
      simp [shown, he, isNone_iff_eq_none.mp hr]
    · refine .inl ⟨by simp [filter_some, hn], fun m hm => ?_⟩
      obtain rfl := Option.some.inj hm
      rcases he : l.entries n with _ | entry
      · simp [shown, he]
      · have hr : entry.terminalReason ≠ none := by simpa [he] using hn
        simp [shown, he, hr]

theorem told_nil (tracked sender : UInt64) : told shown tracked sender [] = shown := by
  funext n
  simp [told]

theorem told_self (hs : shown sender = some evidence) (transition : ConnectionLifecycleTransition) :
    told shown sender sender [transition] =
      Function.update shown sender (some (evidence.observeSession transition)) := by
  funext n
  by_cases hn : n = sender
  · subst hn
    simp [told, hs]
  · simp [told, hn]

theorem told_both {evidence' : LifecycleEvidence PtpSessionState}
    (ht : shown tracked = some evidence) (hs : shown sender = some evidence')
    (transition : ConnectionLifecycleTransition) : told shown tracked sender [transition] =
      Function.update (Function.update shown tracked (some (evidence.observeSession transition)))
        sender (some (evidence'.observeSession transition)) := by
  funext n
  by_cases hn : n = sender
  · subst hn
    simp [told, hs]
  · by_cases hn' : n = tracked
    · subst hn'
      simp [told, hn, ht]
    · simp [told, hn, hn']

/-- A transition recorded by the engine goes on to the sender's record. -/
theorem shared_ends {transition : ConnectionLifecycleTransition}
    (ho : transition = .ptpSessionOpened → tracked = sender) (ht : shown tracked = some evidence)
    (hse : (shown sender).isSome = true)
    (h : l.Shows completed (Function.update shown tracked
      (some (evidence.observeSession transition)))) (owner : Option UInt64) :
    Ends (fun r => r.1 = ownerAfter sender owner transition ∧
        r.2.Shows completed (told shown tracked sender [transition]))
      OnlyExhausted ([transition].foldlM (share sender tracked) (owner, l)) := by
  rw [foldlM_cons]
  simp only [foldlM_nil, bind_pure]
  by_cases hs : tracked = sender
  · subst hs
    rw [share_self, told_self ht]
    exact ⟨rfl, h⟩
  · obtain ⟨evidence', hse⟩ := isSome_iff_exists.mp hse
    have hst : Function.update shown tracked (some (evidence.observeSession transition)) sender =
        some evidence' := by
      rw [update_of_ne (Ne.symm hs), hse]
    rw [told_both ht hse]
    exact share_ends hs (fun hc => hs (ho hc)) h hst owner

theorem apply_recordLifecycle {tracker : ConnectionLifecycleTracker}
    (hr : tracker.snapshot.sequence.toNat + 1 < 2 ^ 64)
    (transition : ConnectionLifecycleTransition) :
    tracker.apply transition = .ok (recordLifecycle tracker transition) := by
  unfold recordLifecycle ConnectionLifecycleTracker.apply applyConnectionLifecycleTransition
  rw [if_pos hr]
  rfl

theorem sessionEffect_cases {before after : Bool}
    {transitions : List ConnectionLifecycleTransition}
    (h : SessionEffect before transitions after) : transitions = [] ∨
      ∃ transition, transitions = [transition] ∧ isShared transition = true ∧
        (transition = .ptpSessionOpened → before = false) := by
  rcases h with _ | _ | _ | _ | _
  · exact .inl rfl
  · exact .inr ⟨_, rfl, rfl, fun _ => rfl⟩
  all_goals exact .inr ⟨_, rfl, rfl, fun hc => nomatch hc⟩

/-- **An operation and the records.** What the engine records of an operation
goes to the record of the session's owner and to the sender's, and moves the
ownership. -/
theorem dispatchOperation_ends (h : l.Shows completed shown) (e : Engine) (owner : Option UInt64)
    (hsen : (shown sender).isSome = true)
    (hop : l.trackerSequence owner sender ≠ sender → e.state.sessionOpen = true)
    (req : OperationRequest) (dataIn : Option (List UInt8)) :
    Ends (fun r => ∃ transitions,
        SessionEffect e.state.sessionOpen transitions r.1.2.state.sessionOpen ∧
        r.2.1 = transitions.foldl (ownerAfter sender) owner ∧
        r.2.2.Shows completed (told shown (l.trackerSequence owner sender) sender transitions))
      OnlyExhausted (l.dispatchOperation e owner sender req dataIn) := by
  generalize ht : l.trackerSequence owner sender = tracked at hop ⊢
  have hsho : (shown tracked).isSome = true := by
    rcases l.trackerSequence_cases owner sender with ⟨hse, -⟩ | ⟨-, hso⟩
    · rwa [← ht, hse]
    · rwa [← ht, ← h.shown_eq]
  obtain ⟨evidence, hev⟩ := isSome_iff_exists.mp hsho
  obtain ⟨entry, hen, hre, hs⟩ := shown_eq_some.mp (h.shown_eq ▸ hev)
  have ho := h.ordered tracked entry hen
  unfold dispatchOperation
  simp only [ht, lookup, hen]
  show Ends _ _ (if entry.tracker.snapshot.sequence.toNat + 1 < 2 ^ 64 then _ else _)
  by_cases hro : entry.tracker.snapshot.sequence.toNat + 1 < 2 ^ 64
  · rw [if_pos hro]
    obtain ⟨transitions, he, htr⟩ :=
      e.onOperationWithConnectionLifecycle_records entry.tracker req dataIn
    generalize e.onOperationWithConnectionLifecycle entry.tracker req dataIn = result at *
    have hi := h.insert tracked { entry with tracker := result.1.2 }
    rw [if_pos hre] at hi
    rcases sessionEffect_cases he with rfl | ⟨transition, rfl, hsh, hc⟩
    · have hsa : result.1.2 = entry.tracker := htr
      rw [hsa] at hi ⊢
      rw [ho.since_now]
      refine ⟨[], he, rfl, ?_⟩
      rw [told_nil]
      have hi := hi ho
      rwa [hs, ← hev, update_eq_self] at hi
    · have ha : entry.tracker.apply transition = .ok result.1.2 := by
        rw [htr]
        exact apply_recordLifecycle hro transition
      have hi := hi (ho.apply ha)
      obtain ⟨-, -, -, -, -, -, -, hob⟩ := ConnectionLifecycleTracker.apply_ok ha
      rw [hob, hs] at hi
      rw [ho.since_apply ha, filter_cons_of_pos hsh, filter_nil]
      -- a session is opened only where there is none, so the record is the sender's
      have hope : transition = .ptpSessionOpened → tracked = sender := by
        intro hco
        by_contra hne
        exact absurd (hc hco) (by simp [hop hne])
      refine (shared_ends hope hev hsen hi owner).bind fun r hr => ?_
      exact ⟨[transition], he, hr⟩
  · rw [if_neg hro]
    exact rfl

/-! ### The other sections -/

theorem accepted_ends (h : l.Shows completed shown) (n : UInt64) :
    Ends (fun l' => l'.Shows completed (Function.update shown n (some .unknown))) OnlyExhausted
      (l.accepted n) := by
  have hnew : ({} : ConnectionLifecycleTracker).Ordered := fun event hmem => nomatch hmem
  refine (record_ends hnew .commandListenerReady).bind fun tracker ht => ?_
  refine (record_ends ht.1 .proxyTransportAccepted).bind fun next hn => ?_
  have hi := h.insert n { tracker := next } hn.1
  rwa [if_pos rfl, hn.2, ht.2] at hi

theorem expire_cases (completed : List UInt64)
    (entries : UInt64 → Option ConnectionLifecycleEntry) :
    (∀ n, (expire entries completed).entries n = entries n ∨
      n ∈ completed ∧ (expire entries completed).entries n = none) ∧
    ∀ n ∈ (expire entries completed).completed, n ∈ completed := by
  induction completed generalizing entries with
  | nil => exact ⟨fun n => .inl rfl, fun n hmem => hmem⟩
  | cons expired completed ih =>
    unfold expire
    split
    · obtain ⟨he, hc⟩ := ih (Function.update entries expired none)
      refine ⟨fun n => ?_, fun n hmem => mem_cons_of_mem _ (hc n hmem)⟩
      rcases he n with hs | ⟨hmem, hno⟩
      · by_cases hn : n = expired
        · subst hn
          exact .inr ⟨mem_cons_self, by rw [hs, update_self]⟩
        · exact .inl (by rw [hs, update_of_ne hn])
      · exact .inr ⟨mem_cons_of_mem _ hmem, hno⟩
    · exact ⟨fun n => .inl rfl, fun n hmem => hmem⟩

/-- Only completed records expire, so no other record than the finished one
ceases to show anything. -/
theorem finish_ends (h : l.Shows completed shown) (hc : ∀ m ∈ completed, shown m = none)
    (hn : (shown n).isSome = true) (reason : CommandTerminalReason) :
    Ends (fun l' => ∃ completed', (∀ m ∈ completed', m ∈ completed ∨ m = n) ∧
        l'.Shows completed' (Function.update shown n none))
      OnlyExhausted (l.finish n reason) := by
  obtain ⟨evidence, hev⟩ := isSome_iff_exists.mp hn
  obtain ⟨entry, he, hr, -⟩ := shown_eq_some.mp (h.shown_eq ▸ hev)
  unfold finish
  simp only [he, hr, isSome_none, Bool.false_eq_true, if_false]
  refine (record_ends (h.ordered n entry he) reason.transition).bind fun tracker ht => ?_
  have hi := h.insert n { tracker := tracker, terminalReason := some reason } ht.1
  rw [if_neg (by simp)] at hi
  generalize l.insert n { tracker := tracker, terminalReason := some reason } = next at hi ⊢
  obtain ⟨hen, hmem⟩ := expire_cases (l.completed ++ [n]) next.entries
  rw [h.completed_eq] at hen hmem ⊢
  refine ⟨_, fun m hm => ?_, rfl, funext fun m => ?_, fun m entry' he' => ?_⟩
  · simpa using hmem m hm
  · -- what has expired did not show anything before
    have hg : m ∈ completed ++ [n] → next.shown m = none := by
      intro hm
      rw [hi.shown_eq]
      by_cases heq : m = n
      · rw [heq, update_self]
      · rw [update_of_ne heq]
        exact hc m (by simpa [heq] using hm)
    rw [← hi.shown_eq]
    rcases hen m with hs | ⟨hex, hno⟩
    · simp [ConnectionLifecycles.shown, hs]
    · rw [hg hex]
      simp [ConnectionLifecycles.shown, hno]
  · rcases hen m with hs | ⟨-, hno⟩
    · exact hi.ordered m entry' (hs ▸ he')
    · rw [hno] at he'
      cases he'

end ConnectionLifecycles

/-! ### The session and its owner -/

/-- **The invariant of the service.** The session is open exactly if it has an
owner, every handler that has not ended has an unfinished record, and such a
record shows an open session if its connection owns it or gave it up in its
teardown. -/
structure Accord (isOpen : Bool) (owner : Option UInt64)
    (shown : UInt64 → Option (LifecycleEvidence PtpSessionState))
    (handlers : UInt64 → Option Handler) : Prop where
  session : isOpen = true ↔ owner.isSome = true
  owned : ∀ n, owner = some n → handlers n = some .serving ∨ handlers n = some .ended
  active : ∀ n, (shown n).isSome = true ↔
    handlers n = some .serving ∨ ∃ gaveUp, handlers n = some (.released gaveUp)
  opened : ∀ n, shown n = some (.confirmed .open) ↔
    (owner = some n ∧ handlers n = some .serving) ∨ handlers n = some (.released true)

namespace Accord

open ConnectionLifecycles

variable {isOpen : Bool} {owner : Option UInt64} {handlers : UInt64 → Option Handler}
variable {shown : UInt64 → Option (LifecycleEvidence PtpSessionState)} {n : UInt64}

theorem start : Accord false none (fun _ => none) fun _ => none :=
  ⟨by simp, by simp, by simp, by simp⟩

theorem accept (h : Accord isOpen owner shown handlers) (hn : handlers n = none) :
    Accord isOpen owner (Function.update shown n (some .unknown))
      (Function.update handlers n (some .serving)) := by
  obtain ⟨hs, ho, ha, hop⟩ := h
  refine ⟨hs, fun m => ?_, fun m => ?_, fun m => ?_⟩ <;> grind [update_apply]

theorem release (h : Accord isOpen owner shown handlers) (hn : handlers n = some .serving) :
    if owner = some n then
      Accord false none shown (Function.update handlers n (some (.released true)))
    else Accord isOpen owner shown (Function.update handlers n (some (.released false))) := by
  obtain ⟨hs, ho, ha, hop⟩ := h
  split
  · refine ⟨by simp, by simp, fun m => ?_, fun m => ?_⟩ <;> grind [update_apply]
  · refine ⟨hs, fun m => ?_, fun m => ?_, fun m => ?_⟩ <;> grind [update_apply]

theorem finish (h : Accord isOpen owner shown handlers)
    (hn : handlers n = some .serving ∨ ∃ gaveUp, handlers n = some (.released gaveUp)) :
    Accord isOpen owner (Function.update shown n none)
      (Function.update handlers n (some .ended)) := by
  obtain ⟨hs, ho, ha, hop⟩ := h
  refine ⟨hs, fun m => ?_, fun m => ?_, fun m => ?_⟩ <;> grind [update_apply]

variable {tracked sender : UInt64}

theorem told_feature {transition : ConnectionLifecycleTransition}
    (h : ∀ evidence : LifecycleEvidence PtpSessionState,
      evidence.observeSession transition = evidence) :
    told shown tracked sender [transition] = shown := by
  funext m
  simp [told, h]

theorem opens (h : Accord false owner shown handlers) (hs : handlers sender = some .serving) :
    Accord true (some sender) (told shown sender sender [.ptpSessionOpened]) handlers := by
  have hn : owner = none := by simpa using h.session
  obtain ⟨evidence, he⟩ := isSome_iff_exists.mp ((h.active sender).mpr (.inl hs))
  rw [told_self he]
  refine ⟨by simp, fun m hm => ?_, fun m => ?_, fun m => ?_⟩
  · exact .inl (Option.some.inj hm ▸ hs)
  · have := h.active m
    grind [update_apply]
  · have := h.opened m
    grind [update_apply, LifecycleEvidence.observeSession]

/-- The record of the owner shows the session as closed, and so does the
sender's; if the owner has ended, its record is finished. -/
theorem closes (h : Accord true owner shown handlers) (hse : handlers sender = some .serving)
    (ht : (tracked = sender ∧ ∀ m, owner = some m → shown m = none) ∨
      (owner = some tracked ∧ (shown tracked).isSome = true)) :
    Accord false none (told shown tracked sender [.ptpSessionClosed]) handlers := by
  refine ⟨by simp, by simp, fun m => ?_, fun m => ?_⟩
  · have := h.active m
    grind [told]
  · by_cases hm : m = tracked ∨ m = sender
    · have hc : told shown tracked sender [.ptpSessionClosed] m ≠ some (.confirmed .open) := by
        simp [told, hm, LifecycleEvidence.observeSession]
      have := h.owned m
      grind
    · have hs : told shown tracked sender [.ptpSessionClosed] m = shown m := by
        simp [told, hm]
      have := h.opened m
      grind

theorem operation (h : Accord isOpen owner shown handlers) (hs : handlers sender = some .serving)
    (ht : (tracked = sender ∧ ∀ m, owner = some m → shown m = none) ∨
      (owner = some tracked ∧ (shown tracked).isSome = true))
    {transitions : List ConnectionLifecycleTransition} {isOpen' : Bool}
    (he : SessionEffect isOpen transitions isOpen') :
    Accord isOpen' (transitions.foldl (ownerAfter sender) owner)
      (told shown tracked sender transitions) handlers := by
  cases he with
  | nothing => rwa [told_nil]
  | entered _ mode => rwa [told_feature fun _ => rfl]
  | exited _ => rwa [told_feature fun _ => rfl]
  | closed => exact h.closes hs ht
  | opened =>
    have hn : owner = none := by simpa using h.session
    have hse : tracked = sender := by simpa [hn] using ht
    rw [hse]
    exact h.opens hs

end Accord

namespace CommandService

open ConnectionLifecycles

/-- The state of the service agrees with its records. -/
structure Consistent (s : CommandService) : Prop where
  accord : Accord s.engine.state.sessionOpen s.owner s.lifecycles.shown s.handlers
  completed : ∀ n ∈ s.lifecycles.completed, s.handlers n = some .ended
  ordered : ∀ n entry, s.lifecycles.entries n = some entry → entry.tracker.Ordered

variable {s : CommandService}

theorem Consistent.shows (h : s.Consistent) :
    s.lifecycles.Shows s.lifecycles.completed s.lifecycles.shown := ⟨rfl, rfl, h.ordered⟩

variable {n : UInt64}

theorem Consistent.shown_isSome (h : s.Consistent)
    (hn : s.handlers n = some .serving ∨ ∃ gaveUp, s.handlers n = some (.released gaveUp)) :
    (s.lifecycles.shown n).isSome = true := (h.accord.active n).mpr hn

theorem Consistent.completed_setHandler (h : s.Consistent) (hn : s.handlers n ≠ some .ended)
    (handler : Handler) :
    ∀ m ∈ s.lifecycles.completed, Function.update s.handlers n (some handler) m = some .ended := by
  intro m hm
  have he := h.completed m hm
  have hne : m ≠ n := fun heq => hn (heq ▸ he)
  rw [update_of_ne hne, he]

theorem finish_ends (h : s.Consistent)
    (hn : s.handlers n = some .serving ∨ ∃ gaveUp, s.handlers n = some (.released gaveUp))
    (reason : CommandTerminalReason) : Ends Consistent OnlyExhausted (s.finish n reason) := by
  have hc : ∀ m ∈ s.lifecycles.completed, s.lifecycles.shown m = none := by
    intro m hm
    have ha := h.accord.active m
    rw [h.completed m hm] at ha
    simpa using ha
  refine (ConnectionLifecycles.finish_ends h.shows hc (h.shown_isSome hn) reason).bind ?_
  rintro l ⟨completed, hmem, hl⟩
  refine ⟨?_, fun m hm => ?_, hl.ordered⟩
  · have hf := h.accord.finish hn
    rwa [← hl.shown_eq] at hf
  · change Function.update s.handlers n (some .ended) m = some .ended
    have hm : m ∈ completed := hl.completed_eq ▸ hm
    by_cases heq : m = n
    · rw [heq, update_self]
    · rw [update_of_ne heq]
      exact h.completed m ((hmem m hm).resolve_right heq)

theorem operation_ends (h : s.Consistent) (hn : s.handlers n = some .serving)
    (req : OperationRequest) (dataIn : Option (List UInt8)) :
    Ends Consistent OnlyExhausted (do
      let ((_, e), (owner, l)) ← s.lifecycles.dispatchOperation s.engine s.owner n req dataIn
      return { s with engine := e.takeAppliedFault.2.drainEvents.2, owner, lifecycles := l }) := by
  have ht := s.lifecycles.trackerSequence_cases s.owner n
  have hop : s.lifecycles.trackerSequence s.owner n ≠ n → s.engine.state.sessionOpen = true := by
    intro hne
    rcases ht with ⟨hs, -⟩ | ⟨ho, -⟩
    · exact absurd hs hne
    · rw [h.accord.session, ho]
      rfl
  refine (dispatchOperation_ends h.shows s.engine s.owner (h.shown_isSome (.inl hn)) hop req
    dataIn).bind ?_
  rintro ⟨⟨reply, e⟩, owner, l⟩ ⟨transitions, he, ho, hl⟩
  refine ⟨?_, fun m hm => h.completed m (hl.completed_eq ▸ hm), hl.ordered⟩
  have ha := h.accord.operation hn ht he
  rwa [← hl.shown_eq, ← ho] at ha

/-- Every section keeps the invariant, and none looks up a record in vain. -/
theorem step_ends (h : s.Consistent) (section' : Section) :
    Ends Consistent OnlyExhausted (s.step section') := by
  cases section' with
  | accept n =>
    refine iteInduction (fun hn => ?_) fun _ => h
    refine (accepted_ends h.shows n).bind fun l hl => ?_
    refine ⟨?_, ?_, hl.ordered⟩
    · have hac := h.accord.accept hn
      rwa [← hl.shown_eq] at hac
    · have hc := h.completed_setHandler (n := n) (by simp [hn]) .serving
      rwa [← hl.completed_eq] at hc
  | initialized n =>
    refine iteInduction (fun hn => ?_) fun _ => h
    obtain ⟨evidence, he⟩ := isSome_iff_exists.mp (h.shown_isSome (.inl hn))
    refine (applyTo_ends h.shows he _ .commandInitialized).bind fun l hl => ?_
    refine ⟨?_, fun m hm => h.completed m (hl.completed_eq ▸ hm), hl.ordered⟩
    have hs : l.shown = s.lifecycles.shown := by
      rw [hl.shown_eq]
      exact update_eq_self_iff.mpr he.symm
    have ha := h.accord
    rwa [← hs] at ha
  | operation n req dataIn =>
    exact iteInduction (fun hn => operation_ends h hn req dataIn) fun _ => h
  | completeStream completion =>
    refine ⟨?_, h.completed, h.ordered⟩
    have ha := h.accord
    rwa [← s.engine.completeStream_sessionOpen completion] at ha
  | release n =>
    refine iteInduction (fun hn => ?_) fun _ => h
    have hr := h.accord.release hn
    have hc := h.completed_setHandler (n := n) (by simp [hn])
    unfold release
    split at hr
    · rename_i ho
      rw [if_pos ho]
      exact ⟨hr, hc _, h.ordered⟩
    · rename_i ho
      rw [if_neg ho]
      exact ⟨hr, hc _, h.ordered⟩
  | finish n reason =>
    simp only [step]
    split
    · rename_i gaveUp hn
      exact finish_ends h (.inr ⟨gaveUp, hn⟩) reason
    · exact h
  | cancel n => exact iteInduction (fun hn => finish_ends h (.inl hn) .localCleanClose) fun _ => h

theorem run_ends (e : Engine) (he : e.state.sessionOpen = false) (sections : List Section) :
    Ends Consistent OnlyExhausted (run e sections) := by
  refine Ends.foldlM (fun s section' h => step_ends h section') sections _ ⟨?_, ?_, ?_⟩
  · have hs := Accord.start
    rwa [← he] at hs
  · simp
  · simp

/-- **The session and what is shown of it.** From a closed session, in every
interleaving: no record is looked up in vain; the session is open exactly if
it has an owner; and at most one unfinished record shows an open session, that
of the owner, except while a connection that gave up the session in the first
section of its teardown has not yet finished its record in the second. -/
theorem session_evidence (e : Engine) (he : e.state.sessionOpen = false) (sections : List Section) :
    (∀ message, run e sections ≠ .error (.lookup message)) ∧
    ∀ s, run e sections = .ok s →
      (s.engine.state.sessionOpen = true ↔ s.owner.isSome = true) ∧
      (s.OneSession ↔ ∀ n, s.handlers n ≠ some (.released true)) := by
  have hen := run_ends e he sections
  refine ⟨fun message hc => ?_, fun s hs => ?_⟩
  · rw [hc] at hen
    cases hen
  rw [hs] at hen
  obtain ⟨⟨hse, how, -, hop⟩, -, -⟩ := hen
  refine ⟨hse, fun hone n hn => ?_, fun hno => ?_⟩
  · -- it still shows the session that it no longer owns
    have ho := hone.2 n ((hop n).mpr (.inr hn))
    simpa [hn] using how n ho
  · have ho : ∀ n, s.lifecycles.shown n = some (.confirmed .open) → s.owner = some n :=
      fun n hn => (((hop n).mp hn).resolve_right (hno n)).1
    refine ⟨fun n m hn hm => ?_, ho⟩
    exact Option.some.inj ((ho n hn).symm.trans (ho m hm))

/-- A camera that declares nothing. -/
def bareEngine : Engine := Engine.new { camera := ⟨"", "", "", []⟩ } emptyCard

def openSession : OperationRequest := ⟨1, Op.openSession, 1, [1]⟩

theorem session_evidence_twice :
    bareEngine.state.sessionOpen = false ∧ ∀ s,
      run bareEngine [.accept 1, .operation 1 openSession none, .release 1, .finish 1 .peerEof,
        .accept 2, .operation 2 openSession none] = .ok s →
      (s.OneSession ↔ ∀ n, s.handlers n ≠ some (.released true)) :=
  ⟨rfl, fun s hs => ((session_evidence bareEngine rfl _).2 s hs).2⟩

/-- Between the two sections of the teardown of the first connection another
one opens a session: both records show an open one. -/
theorem released_session_shown : ∃ s,
    run bareEngine [.accept 1, .operation 1 openSession none, .release 1, .accept 2,
      .operation 2 openSession none] = .ok s ∧
    s.lifecycles.shown 1 = some (.confirmed .open) ∧
    s.lifecycles.shown 2 = some (.confirmed .open) ∧ s.owner = some 2 ∧ ¬ s.OneSession := by
  refine ⟨_, rfl, ?_, ?_, ?_, fun hone => ?_⟩
  · decide +kernel
  · decide +kernel
  · decide +kernel
  · exact absurd (hone.1 1 2 (by decide +kernel) (by decide +kernel)) (by decide)

end CommandService
end Ptpsim.Service
