/-
# What a single step does on the wire

A step that has no steps inside it calls the host, fails or not, and changes
the scope. All such steps keep one relation (`Exchanged`): the activity and
the attempts of the retries around it are not touched, no collection is
unbound, and what it adds to the trace are calls and outputs and, about the
step itself, failures and decisions to go on after one. The latter come in
order (`Watched`): after a failure nothing is asked of the host until a step
with a reason to do so has decided to go on (`Covers`).
-/
import Ptpsim.Executor.Walk

namespace Ptpsim.Executor

open Ptpsim.Core Config
open Interrupt hiding Exec

/-! ### Going on after a failure -/

/-- The request waits for an event. -/
def Request.IsEventWait : Request → Prop
  | nextEventFrame _ | nextEvent _ => True
  | _ => False

variable (setup : Setup)

/-- The step goes on after the failure on its own account: a retry selects it,
a capture has a literal for the response, or an event may be lost. `last` was
asked of the host last. -/
def Recovers (last : Option Request) (here : Path) (e : StepError) :
    EntryStep → Prop
  | .retry _ _ codes classes _ _ _ => retrySelects codes classes e = true
  | .getProp _ captures _ => e.cls = .response ∧ e.step = here ∧
      ∃ m, e.txMeta = some m ∧ (captureFallbacks captures m.responseCode).isSome
  | .awaitUntil (.event _ _) .. => e.cls = .deadline ∧ e.step = here ∧
      setup.eventDelivery = .bestEffort ∧ ∃ r, last = some r ∧ r.IsEventWait
  | _ => False

/-- The failure happened in the step, and the step may go on: it is tolerant
and the camera has refused something, or it has a reason of its own. -/
def Covers (last : Option Request) (step : EntryStep) (here : Path)
    (e : StepError) : Prop :=
  here <+: e.step ∧ (stepTolerant step = true ∧ e.cls = .response ∨ Recovers setup last here e step)

/-- Only a response that is not OK makes for a failure of class `response`. -/
def StepError.Founded (e : StepError) : Prop :=
  e.cls = .response → ∃ m, e.txMeta = some m ∧ m.responseCode ≠ Resp.ok

/-- The host's answer fails the step: it is an error, or the call's own clock
has run out. -/
def Event.isRefusal : Event → Bool
  | .request _ (.reply (.error _)) | .request _ (.clock 0 _) | .output _ (.reply (.error _)) => true
  | _ => false

/-- What was asked of the host last, a failure that nothing has been done
about, and whether an answer has still to become one. -/
structure Watch where
  last : Option Request
  pending : Option StepError := none
  owed : Bool := false

def Watch.moves (w : Watch) (event : Event) (w' : Watch) : Prop :=
  match event with
  | .request r _ => w.pending = none ∧ w.owed = false ∧ w' = ⟨some r, none, event.isRefusal⟩
  | .output .. => w.pending = none ∧ w.owed = false ∧ w' = ⟨w.last, none, event.isRefusal⟩
  | .failed e => w.pending = none ∧ e.Founded ∧ w' = ⟨w.last, some e, false⟩
  | .resumed step here e =>
    w.pending = some e ∧ Covers setup w.last step here e ∧ w' = ⟨w.last, none, false⟩
  | _ => w.owed = false ∧ w' = w

/-- The event is neither a call nor about a failure. -/
def Passes (event : Event) : Prop := ∀ w : Watch, w.owed = false → Watch.moves setup w event w

/-- The events are in order, and leave the failure pending that they end
with. -/
def Watched (events : List Event) (e : Option StepError) : Prop :=
  ∀ last, ∃ last', Follows (Watch.moves setup) ⟨last, none, false⟩ events ⟨last', e, false⟩

theorem watched_nil : Watched setup [] none := fun last => ⟨last, rfl⟩

theorem Watched.append {setup : Setup} {a b : List Event} {e : Option StepError}
    (ha : Watched setup a none) (hb : Watched setup b e) : Watched setup (a ++ b) e := by
  intro last
  obtain ⟨middle, hm⟩ := ha last
  obtain ⟨last', hl⟩ := hb middle
  exact ⟨last', follows_append.mpr ⟨_, hm, hl⟩⟩

/-- The event is a call to the host, or an output. -/
def Event.IsCall : Event → Prop
  | .request .. | .output .. => True
  | _ => False

theorem watched_call {event : Event} (h : event.IsCall) (hr : event.isRefusal = false) :
    Watched setup [event] none := by
  cases event with
  | request r answer => exact fun _ => ⟨some r, follows_singleton.mpr ⟨rfl, rfl, by rw [hr]⟩⟩
  | output o answer => exact fun last => ⟨last, follows_singleton.mpr ⟨rfl, rfl, by rw [hr]⟩⟩
  | _ => exact h.elim

theorem watched_failed {e : StepError} (h : e.Founded) :
    Watched setup [.failed e] (some e) :=
  fun last => ⟨last, follows_singleton.mpr ⟨rfl, h, rfl⟩⟩

theorem watched_refusal {event : Event} {e : StepError} (h : event.IsCall) (hf : e.Founded) :
    Watched setup [event, .failed e] (some e) := by
  cases event with
  | request r answer => exact fun _ => ⟨some r, _, ⟨rfl, rfl, rfl⟩, _, ⟨rfl, hf, rfl⟩, rfl⟩
  | output o answer => exact fun last => ⟨last, _, ⟨rfl, rfl, rfl⟩, _, ⟨rfl, hf, rfl⟩, rfl⟩
  | _ => exact h.elim

theorem Watched.resumed {setup : Setup} {events : List Event} {e : StepError} {step : EntryStep}
    {here : Path} (h : Watched setup events (some e))
    (hc : ∀ last, Covers setup last step here e) :
    Watched setup (events ++ [.resumed step here e]) none := by
  intro last
  obtain ⟨last', hl⟩ := h last
  exact ⟨last', follows_append.mpr ⟨_, hl, follows_singleton.mpr ⟨rfl, hc last', rfl⟩⟩⟩

theorem Watched.append_silent {setup : Setup} {events silent : List Event} {e : Option StepError}
    (h : Watched setup events e)
    (hs : ∀ event ∈ silent, Passes setup event) :
    Watched setup (events ++ silent) e := by
  intro last
  obtain ⟨last', hl⟩ := h last
  exact ⟨last', follows_append.mpr ⟨_, hl, follows_same fun event hmem => hs event hmem _ rfl⟩⟩

/-! ### The relation -/

/-- Only a loop over a collection can find it unbound. -/
def Detail.isUnbound : Detail → Bool
  | .collectionUnbound _ => true
  | _ => false

/-- What a step without steps inside adds to the trace. -/
def Event.IsExchange (here : Path) : Event → Prop
  | .request .. | .output .. => True
  | .failed e => e.step = here ∧ e.detail.isUnbound = false
  | .resumed _ p _ => p = here
  | _ => False

/-- The host lets a clock run out that is not the one of the call itself. -/
def Host.Drops {τ : Type} (host : Host τ) : Prop :=
  (∃ r t level clock next, host.answer r t = (.clock (level + 1) clock, next)) ∨
    ∃ o t level clock next, host.write o t = (.clock level clock, next)

abbrev Stopped := Option (Stop StepError (Except TransportError Unit))

structure Exchanged {τ : Type} (setup : Setup) (host : Host τ) (here : Path) (c : PtpCtx τ)
    (e : Stopped) (c' : PtpCtx τ) : Prop where
  active : c'.activeActivity = c.activeActivity
  attempts : c'.controlAttempts = c.controlAttempts
  bound : ∀ name, (c.collections name).isSome = true → (c'.collections name).isSome = true
  located : ∀ err, e = some (.failed err) → err.step = here
  dropped : ∀ level clock, e = some (.dropped level clock) → host.Drops
  traced : ∃ added, c'.trace = c.trace ++ added ∧ (∀ event ∈ added, event.IsExchange here) ∧
    Watched setup added (Interrupt.failure e)

theorem exchanged_composes {τ : Type} {setup : Setup} {host : Host τ} {here : Path} :
    Composes (Exchanged setup host here) where
  refl c := ⟨rfl, rfl, fun _ h => h, by simp, by simp, [], by simp, by simp, watched_nil setup⟩
  trans := by
    rintro c c₁ c₂ e ⟨ha, hn, hb, -, -, added, ht, hx, hw⟩
      ⟨ha', hn', hb', hl', hd', added', ht', hx', hw'⟩
    refine ⟨ha'.trans ha, hn'.trans hn, fun name h => hb' name (hb name h), hl', hd',
      added ++ added', by rw [ht', ht, List.append_assoc], ?_, hw.append hw'⟩
    intro event hmem
    exact (List.mem_append.mp hmem).elim (hx event) (hx' event)

section Leaves

variable {τ : Type} {setup : Setup} {host : Host τ} {here : Path}

/-- The computation keeps the relation. -/
abbrev Exchanges {α : Type} (setup : Setup) (host : Host τ) (here : Path) (c : Exec τ α) : Prop :=
  Kept (Exchanged setup host here) c

variable {α : Type} {e : StepError}

theorem exchanges_pure (a : α) : Exchanges setup host here (pure a : Exec τ α) :=
  Kept.pure exchanged_composes a

theorem Exchanges.bind {β : Type} {c : Exec τ α} {f : α → Exec τ β}
    (hc : Exchanges setup host here c) (hf : ∀ a, Exchanges setup host here (f a)) :
    Exchanges setup host here (c >>= f) :=
  Kept.bind exchanged_composes hc hf

theorem Exchanges.map {β : Type} {c : Exec τ α} (f : α → β) (hc : Exchanges setup host here c) :
    Exchanges setup host here (f <$> c) := by
  exact hc.bind fun a => exchanges_pure (f a)

theorem exchanges_get : Exchanges setup host here (get : Exec τ (PtpCtx τ)) :=
  Kept.get exchanged_composes

theorem exchanges_modify {f : PtpCtx τ → PtpCtx τ}
    (ht : ∀ c, (f c).trace = c.trace) (ha : ∀ c, (f c).activeActivity = c.activeActivity)
    (hat : ∀ c, (f c).controlAttempts = c.controlAttempts)
    (hb : ∀ c name, (c.collections name).isSome = true → ((f c).collections name).isSome = true) :
    Exchanges setup host here (modify f : Exec τ PUnit) :=
  Kept.modify fun c => ⟨ha c, hat c, hb c, by simp, by simp, [], by simp [ht],
    by simp, watched_nil setup⟩

/-- The contexts differ in the scope only, collections apart. -/
structure Scoped {τ : Type} (c c' : PtpCtx τ) : Prop where
  trace : c'.trace = c.trace
  active : c'.activeActivity = c.activeActivity
  attempts : c'.controlAttempts = c.controlAttempts
  collections : c'.collections = c.collections

theorem exchanges_modify_scope {f : PtpCtx τ → PtpCtx τ} (hf : ∀ c, Scoped c (f c)) :
    Exchanges setup host here (modify f : Exec τ PUnit) :=
  exchanges_modify (fun c => (hf c).trace) (fun c => (hf c).active) (fun c => (hf c).attempts)
    fun c name h => by rwa [(hf c).collections]

/-- A failure of the step itself. -/
structure StepError.At (here : Path) (e : StepError) : Prop where
  place : e.step = here
  founded : e.Founded
  bound : e.detail.isUnbound = false

theorem at_of_cls (hp : e.step = here) (hcls : e.cls ≠ .response)
    (hb : e.detail.isUnbound = false) : e.At here :=
  ⟨hp, fun h => absurd h hcls, hb⟩

theorem at_other {detail : Detail} (h : detail.isUnbound = false) :
    (StepError.other here detail).At here :=
  at_of_cls rfl (by simp [StepError.other]) h

theorem at_decodeFailure (prop : Option UInt16) (e : PayloadError) :
    (StepError.decodeFailure here prop e).At here :=
  at_of_cls rfl (by simp [StepError.decodeFailure]) rfl

theorem at_responseError {m : TxMeta} (h : m.responseCode ≠ Resp.ok) :
    (responseError here m).At here :=
  ⟨rfl, fun _ => ⟨m, rfl, h⟩, rfl⟩

theorem at_transportStepError (e : TransportError) : (transportStepError here e).At here := by
  cases e <;> exact at_of_cls rfl (by simp [transportStepError]) rfl

theorem at_clockError (timed : Timed) (ms : UInt32) (clock : Except TransportError Unit) :
    (clockError here timed ms clock).At here := by
  rcases clock with e | ⟨⟩
  · exact at_transportStepError e
  · exact at_of_cls rfl (by simp [clockError]) rfl

theorem exchanges_fail (h : e.At here) : Exchanges setup host here (fail e : Exec τ α) := by
  intro c
  refine ⟨rfl, rfl, fun _ h => h, ?_, by rintro _ _ ⟨⟩, [.failed e], rfl,
    by simpa [Event.IsExchange] using ⟨h.place, h.bound⟩, watched_failed setup h.founded⟩
  rintro err ⟨⟩
  exact h.place

theorem exchanges_orFail {ε : Type} {error : ε → StepError} (h : ∀ e, (error e).At here)
    (r : Except ε α) : Exchanges setup host here (orFail error r : Exec τ α) := by
  cases r with
  | ok a => exact exchanges_pure a
  | error e => exact exchanges_fail (h e)

theorem exchanges_panic :
    Exchanges setup host here (throw (.halted true) : Exec τ α) :=
  Kept.throw fun c =>
    ⟨rfl, rfl, fun _ h => h, by simp, by simp, [], by simp, by simp, watched_nil setup⟩

theorem exchanges_orPanic {ε : Type} (r : Except ε α) :
    Exchanges setup host here (orPanic r : Exec τ α) := by
  cases r with
  | ok a => exact exchanges_pure a
  | error _ => exact exchanges_panic

/-- A context with one call more, or one output. -/
structure After (event : Event) (c c₁ : PtpCtx τ) : Prop where
  trace : c₁.trace = c.trace ++ [event]
  active : c₁.activeActivity = c.activeActivity
  attempts : c₁.controlAttempts = c.controlAttempts
  collections : c₁.collections = c.collections

theorem after_record (event : Event) (c : PtpCtx τ) (next : τ) :
    After event c { c.record event with host := next } :=
  ⟨rfl, rfl, rfl, rfl⟩

theorem call_reply {r : Request} {a : Except TransportError r.Reply} {c : PtpCtx τ} {next : τ}
    (h : host.answer r c.host = (.reply a, next)) :
    call host r c = .ok a { c.record (.request r (.reply a)) with host := next } := by
  simp only [call, h]

theorem call_clock {r : Request} {level : ℕ} {clock : Except TransportError Unit} {c : PtpCtx τ}
    {next : τ} (h : host.answer r c.host = (.clock level clock, next)) :
    call host r c = .error (.dropped level clock)
      { c.record (.request r (.clock level clock)) with host := next } := by
  simp only [call, h]

/-- The ways a call can end. -/
theorem transportDeadline_cases (host : Host τ) (r : Request) (timeoutMs : UInt32) (here : Path)
    (c : PtpCtx τ) : ∃ answer, ∃ c₁ : PtpCtx τ, After (.request r answer) c c₁ ∧
      ((∃ a, answer = .reply (.ok a) ∧ transportDeadline host r timeoutMs here c = .ok a c₁) ∨
        (∃ e : StepError, e.At here ∧ transportDeadline host r timeoutMs here c =
          .error (.failed e) (c₁.record (.failed e))) ∨
        ∃ level clock, answer = .clock (level + 1) clock ∧ host.Drops ∧
          transportDeadline host r timeoutMs here c = .error (.dropped level clock) c₁) := by
  rcases ha : host.answer r c.host with ⟨(error | a) | ⟨_ | level, clock⟩, next⟩
  all_goals refine ⟨_, _, after_record (.request r (host.answer r c.host).1) c next, ?_⟩
  all_goals rw [ha]
  · exact .inr (.inl ⟨_, at_transportStepError error, race_failed (bind_ok (call_reply ha))⟩)
  · exact .inl ⟨a, rfl, race_ok (bind_ok (call_reply ha))⟩
  · exact .inr (.inl ⟨_, at_clockError .transport timeoutMs clock,
      race_late (bind_error (call_clock ha))⟩)
  · exact .inr (.inr ⟨level, clock, rfl, .inl ⟨_, _, _, _, _, ha⟩,
      race_outer (bind_error (call_clock ha))⟩)

theorem After.exchanged {event : Event} {c c₁ : PtpCtx τ} {e : Stopped} (h : After event c c₁)
    (hex : event.IsExchange here) (hw : Watched setup [event] none)
    (he : Interrupt.failure e = none)
    (hd : ∀ level clock, e = some (.dropped level clock) → host.Drops) :
    Exchanged setup host here c e c₁ := by
  refine ⟨h.active, h.attempts, fun name hn => by rwa [h.collections], ?_, hd, [event],
    h.trace, by simpa using hex, by rwa [he]⟩
  rintro err rfl
  cases he

theorem After.failed {event : Event} {c c₁ : PtpCtx τ} (h : After event c c₁) (hc : event.IsCall)
    (hex : event.IsExchange here) (he : e.At here) :
    Exchanged setup host here c (some (.failed e)) (c₁.record (.failed e)) := by
  refine ⟨h.active, h.attempts, fun name hn => ?_, ?_, by rintro _ _ ⟨⟩, [event, .failed e], ?_, ?_,
    watched_refusal setup hc he.founded⟩
  · exact h.collections ▸ hn
  · rintro err ⟨⟩
    exact he.place
  · simp [PtpCtx.record, h.trace]
  · simpa [Event.IsExchange] using ⟨hex, he.place, he.bound⟩

theorem exchanges_transportDeadline (r : Request) (timeoutMs : UInt32) :
    Exchanges setup host here (transportDeadline host r timeoutMs here) := by
  intro c
  obtain ⟨_, c₁, ha, ⟨a, rfl, hc⟩ | ⟨e, hat, hc⟩ | ⟨level, clock, rfl, hd, hc⟩⟩ :=
    transportDeadline_cases host r timeoutMs here c
  · rw [hc]
    exact ha.exchanged trivial (watched_call setup trivial rfl) rfl (by simp [ending])
  · rw [hc]
    exact ha.failed trivial trivial hat
  · rw [hc]
    refine ha.exchanged trivial (watched_call setup trivial rfl) rfl ?_
    rintro level' clock' ⟨⟩
    exact hd

theorem exchanges_writeOutput (o : DataOutput) {error : String → StepError}
    (hat : ∀ message, (error message).At here) :
    Exchanges setup host here (writeOutput host o >>= orFail error) := by
  intro c
  rcases h : host.write o c.host with ⟨(message | ⟨⟩) | ⟨level, clock⟩, next⟩
  all_goals simp only [bind, EStateM.bind, writeOutput, h]
  · exact (after_record _ c next).failed trivial trivial (hat message)
  · exact (after_record _ c next).exchanged trivial (watched_call setup trivial rfl) rfl
      (by rintro _ _ ⟨⟩)
  · refine (after_record _ c next).exchanged trivial (watched_call setup trivial rfl) rfl ?_
    rintro level' clock' ⟨⟩
    exact .inr ⟨_, _, _, _, _, h⟩

/-! ### Exchanges -/

theorem exchanges_encoded (r : Except Service.WireError (List UInt8)) :
    Exchanges setup host here (encoded here r : Exec τ (List UInt8)) := by
  rcases r with e | frame
  · cases e <;> first | exact exchanges_panic | exact exchanges_fail (at_other rfl)
  · exact exchanges_pure frame

theorem exchanges_sendPacket (packet : PtpIpPacket) :
    Exchanges setup host here (sendPacket setup host here packet) :=
  (exchanges_encoded _).bind fun _ => exchanges_transportDeadline _ _

theorem exchanges_sendData (operation : UInt16) (tid : UInt32) (payload : List UInt8) :
    Exchanges setup host here (sendData setup host here operation tid payload) := by
  unfold sendData
  cases setup.commandFraming with
  | standard => exact (exchanges_sendPacket _).bind fun _ => exchanges_sendPacket _
  | compressed =>
    exact (exchanges_encoded _).bind fun _ => exchanges_transportDeadline _ _
  | usb =>
    exact (exchanges_encoded _).bind fun _ => exchanges_transportDeadline _ _

theorem exchanges_receive (tid : UInt32) : ∀ (n : ℕ) (s : DataPhase),
    Exchanges setup host here (receive setup host here tid n s)
  | 0, _ => exchanges_fail (at_other rfl)
  | n + 1, s => by
    refine (exchanges_transportDeadline _ _).bind fun frame => ?_
    refine (exchanges_orFail (fun _ => at_other rfl) _).bind fun packet => ?_
    refine (exchanges_orFail (fun _ => at_other rfl) _).bind fun progress => ?_
    cases progress with
    | more s => exact exchanges_receive tid n s
    | done response => exact exchanges_pure _

variable (txMeta : TxMeta) (prop : UInt16) (value : Int64) (slot : String)
  (captures : List CaptureInfo) (payload : List UInt8)

theorem exchanges_putOutput (output : DataOutput) :
    Exchanges setup host here (putOutput setup host here txMeta output) := by
  refine Kept.ite (fun _ => ?_) fun _ => ?_
  · have hat : ∀ message, StepError.At here ⟨here, .issue (.sink message), .other, some txMeta⟩ :=
      fun _ => at_of_cls rfl (by simp) rfl
    exact exchanges_writeOutput output hat
  · exact exchanges_modify_scope fun _ => ⟨rfl, rfl, rfl, rfl⟩

theorem exchanges_putAnswer (params : List UInt32) (present : Bool) :
    Exchanges setup host here (putAnswer setup host here txMeta payload params present) := by
  refine Kept.ite (fun _ => ?_) fun _ => exchanges_pure _
  exact (exchanges_putOutput txMeta _).bind fun _ => exchanges_pure _

theorem exchanges_exchangeFrames (operation : UInt16) (params : List UInt32)
    (dataOut : Option (List UInt8)) (property : Option UInt16) :
    Exchanges setup host here
      (exchangeFrames setup host here operation params dataOut property) := by
  refine (exchanges_transportDeadline _ _).bind fun tid => ?_
  refine (exchanges_sendPacket _).bind fun _ => ?_
  have ha : Exchanges setup host here (do
      let answer ← receive setup host here tid maxCommandFrames {}
      putAnswer setup host here ⟨operation, property, answer.response.code, tid⟩ answer.payload
        answer.response.params answer.hadData) :=
    (exchanges_receive tid _ _).bind fun _ => exchanges_putAnswer _ _ _ _
  cases dataOut with
  | none => exact ha
  | some payload => exact (exchanges_sendData operation tid payload).bind fun _ => ha

theorem exchanges_issue (operation : UInt16) (params : List UInt32)
    (dataOut : Option (List UInt8)) (property : Option UInt16) :
    Exchanges setup host here (issue setup host here operation params dataOut property) := by
  unfold issue
  cases setup.backend with
  | frame => exact exchanges_exchangeFrames operation params dataOut property
  | transaction =>
    exact (exchanges_transportDeadline _ _).bind fun _ => exchanges_putAnswer _ _ _ _

theorem exchanges_frameTransport :
    Exchanges setup host here (frameTransport setup here : Exec τ Unit) := by
  refine Kept.ite (fun _ => exchanges_fail (at_other rfl)) fun _ => ?_
  exact Kept.ite (fun _ => exchanges_fail (at_other rfl)) fun _ => exchanges_pure ()

theorem exchanges_requireOkReply (reply : WireReply) :
    Exchanges setup host here (requireOkReply here reply : Exec τ WireReply) :=
  Kept.ite (fun _ => exchanges_pure reply) fun h => exchanges_fail (at_responseError h)

theorem exchanges_requireOk (reply : WireReply) :
    Exchanges setup host here (requireOk here reply : Exec τ TxMeta) :=
  (exchanges_requireOkReply reply).map _

theorem exchanges_resume {step : EntryStep} {rest : Exec τ α} (h : e.At here)
    (hc : ∀ last, Covers setup last step here e) (hr : Exchanges setup host here rest) :
    Exchanges setup host here (do
      emit (.failed e)
      emit (.resumed step here e)
      rest) := by
  intro c
  have ht := (watched_failed setup h.founded).resumed hc
  have hf : Exchanged setup host here c none
      ((c.record (.failed e)).record (.resumed step here e)) :=
    ⟨rfl, rfl, fun _ h => h, by simp, by simp, [.failed e, .resumed step here e],
      by simp [PtpCtx.record],
      by simp [Event.IsExchange, h.place, h.bound], ht⟩
  exact exchanged_composes.trans hf (hr _)

theorem exchanges_requireOkOrTolerate (step : EntryStep) (reply : WireReply) :
    Exchanges setup host here (requireOkOrTolerate step here reply : Exec τ TxMeta) := by
  refine Kept.ite (fun _ => exchanges_pure _) fun hc => ?_
  refine Kept.ite (fun ht => ?_) fun _ => exchanges_fail (at_responseError hc)
  refine exchanges_resume (at_responseError hc) (fun _ => ⟨List.prefix_refl _, .inl ⟨ht, rfl⟩⟩) ?_
  exact Exchanges.bind (exchanges_modify_scope fun _ => ⟨rfl, rfl, rfl, rfl⟩) fun _ =>
    exchanges_pure _

theorem exchanges_awaitEvent (code : UInt16) :
    Exchanges setup host here (awaitEvent setup host code here) := by
  unfold awaitEvent
  cases setup.backend with
  | frame =>
    refine (exchanges_transportDeadline _ _).bind fun frame => ?_
    refine (exchanges_orFail (fun _ => at_other rfl) _).bind fun packet => ?_
    cases packet with
    | event event =>
      exact Kept.ite (fun _ => exchanges_pure ()) fun _ => exchanges_fail (at_other rfl)
    | _ => exact exchanges_fail (at_other rfl)
  | transaction =>
    refine (exchanges_transportDeadline _ _).bind fun event => ?_
    exact Kept.ite (fun _ => exchanges_pure ()) fun _ => exchanges_fail (at_other rfl)

/-! ### Payloads and captures -/

theorem exchanges_decodeProperty :
    Exchanges setup host here (decodeProperty setup here prop payload : Exec τ Int64) := by
  unfold decodeProperty
  cases propertyValueWidth setup.manifest prop with
  | none => exact exchanges_fail (at_other rfl)
  | some width => exact exchanges_orFail (fun _ => at_decodeFailure _ _) _

theorem exchanges_observe :
    Exchanges setup host here (modify fun c : PtpCtx τ => c.observe prop value : Exec τ PUnit) :=
  exchanges_modify_scope fun _ => ⟨rfl, rfl, rfl, rfl⟩

theorem observeRecords_eq (records : List (UInt16 × PropValue)) :
    ∀ c : PtpCtx τ, observeRecords c records =
      { c with observed := (observeRecords c records).observed } := by
  induction records with
  | nil => exact fun _ => rfl
  | cons record records ih =>
    intro c
    cases hv : ptpValueI64 record.2 with
    | some value =>
      have hs : observeRecords c (record :: records) =
          observeRecords (c.observe record.1 value) records := by simp [observeRecords, hv]
      rw [hs, ih]
      rfl
    | none =>
      have hs : observeRecords c (record :: records) = observeRecords c records := by
        simp [observeRecords, hv]
      rw [hs, ih]

theorem exchanges_observeProperty :
    Exchanges setup host here (observeProperty setup here prop payload : Exec τ Unit) := by
  unfold observeProperty
  cases propertyPayload setup prop with
  | none =>
    exact (exchanges_decodeProperty prop payload).bind fun _ => exchanges_observe _ _
  | some layout =>
    refine (exchanges_orPanic _).bind fun parsed => ?_
    refine (exchanges_orFail (fun _ => at_decodeFailure _ _) parsed).bind fun decoded => ?_
    refine (exchanges_modify_scope fun c => ?_).bind fun _ => ?_
    · rw [observeRecords_eq]
      exact ⟨rfl, rfl, rfl, rfl⟩
    · refine Kept.ite (fun _ => exchanges_pure _) fun _ => ?_
      exact exchanges_modify_scope fun _ => ⟨rfl, rfl, rfl, rfl⟩

theorem exchanges_bindCollection (values : List UInt64) :
    Exchanges setup host here
      (modify fun c : PtpCtx τ => c.bindCollection slot values : Exec τ PUnit) := by
  refine exchanges_modify (fun _ => rfl) (fun _ => rfl) (fun _ => rfl) fun c name h => ?_
  by_cases hn : name = slot
  · simp [PtpCtx.bindCollection, hn]
  · simpa [PtpCtx.bindCollection, hn] using h

theorem exchanges_bindCollections (values : List UInt64) : ∀ captures : List CaptureInfo,
    Exchanges setup host here (bindCollections here values captures : Exec τ Unit)
  | [] => exchanges_pure ()
  | capture :: rest => by
    refine Kept.ite (fun _ => exchanges_fail (at_other rfl)) fun _ => ?_
    exact (exchanges_bindCollection _ _).bind fun _ => exchanges_bindCollections values rest

theorem exchanges_bindValues (value : ActionValue) : ∀ captures : List CaptureInfo,
    Exchanges setup host here (bindValues here value captures : Exec τ Unit)
  | [] => exchanges_pure ()
  | capture :: rest => by
    refine Kept.ite (fun _ => exchanges_fail (at_other rfl)) fun _ => ?_
    exact Exchanges.bind (exchanges_modify_scope fun _ => ⟨rfl, rfl, rfl, rfl⟩) fun _ =>
      exchanges_bindValues value rest

theorem exchanges_captureValue :
    Exchanges setup host here (captureValue setup here prop payload : Exec τ ActionValue) := by
  refine Kept.ite (fun _ => ?_) fun _ => ?_
  · exact (exchanges_orFail (fun _ => at_decodeFailure _ _) _).bind fun _ =>
      exchanges_pure _
  · refine (exchanges_decodeProperty prop payload).bind fun value => ?_
    exact (exchanges_observe _ _).bind fun _ => exchanges_pure _

theorem exchanges_captureProperty :
    Exchanges setup host here (captureProperty setup here prop captures payload : Exec τ Unit) := by
  refine Kept.ite (fun _ => ?_) fun _ => Kept.ite (fun _ => ?_) fun _ => ?_
  · exact (exchanges_orFail (fun _ => at_decodeFailure _ _) _).bind fun _ =>
      exchanges_bindCollections _ _
  · exact Kept.ite (fun _ => exchanges_fail (at_other rfl)) fun _ => exchanges_observeProperty _ _
  · refine Kept.ite (fun _ => exchanges_pure _) fun _ => ?_
    exact (exchanges_captureValue prop payload).bind fun _ => exchanges_bindValues _ _

theorem bindAll_eq : ∀ (values : List (String × UInt64)) (c : PtpCtx τ),
    bindAll values c = { c with bindings := (bindAll values c).bindings }
  | [], _ => rfl
  | value :: values, c => by
    have hs : bindAll (value :: values) c = bindAll values (c.bindSlot value.1 (.u64 value.2)) :=
      rfl
    rw [hs, bindAll_eq]
    rfl

theorem exchanges_bindAll (values : List (String × UInt64)) :
    Exchanges setup host here (modify (bindAll values) : Exec τ PUnit) := by
  refine exchanges_modify_scope fun c => ?_
  rw [bindAll_eq]
  exact ⟨rfl, rfl, rfl, rfl⟩

theorem exchanges_scalarCapture (operation : UInt16) (tid : UInt32) (payload : List UInt8)
    (source : CaptureSource) :
    Exchanges setup host here
      (scalarCapture here operation tid payload source : Exec τ UInt64) := by
  cases source with
  | objectInfoCompressedSize =>
    refine Kept.ite (fun _ => exchanges_fail (at_other rfl)) fun _ => ?_
    exact (exchanges_orFail (fun _ => at_decodeFailure _ _) _).bind fun _ =>
      exchanges_pure _
  | u32Le => exact exchanges_orFail (fun _ => at_decodeFailure _ _) _
  | u64Le => exact exchanges_orFail (fun _ => at_decodeFailure _ _) _
  | transactionId => exact exchanges_pure _
  | propValue => exact exchanges_fail (at_other rfl)
  | ptpU32Array => exact exchanges_fail (at_other rfl)

theorem exchanges_applyCapturesFrom (operation : UInt16) (tid : UInt32) (payload : List UInt8) :
    ∀ (captures : List CaptureInfo) (values : List (String × UInt64)),
    Exchanges setup host here
      (applyCapturesFrom here operation tid payload captures values : Exec τ Unit)
  | [], values => exchanges_bindAll values
  | capture :: rest, values => by
    refine Kept.ite (fun _ => ?_) fun _ => ?_
    · refine (exchanges_orFail (fun _ => at_decodeFailure _ _) _).bind fun _ => ?_
      exact (exchanges_bindCollection _ _).bind fun _ =>
        exchanges_applyCapturesFrom operation tid payload rest values
    · exact (exchanges_scalarCapture _ _ _ _).bind fun _ =>
        exchanges_applyCapturesFrom operation tid payload rest _

theorem resolveParam_at {bindings : Scope} {param : StepParam}
    (h : resolveParam setup bindings here param = .error e) : e.At here := by
  cases param with
  | literal value => cases h
  | runtime slot shift mask =>
    simp only [resolveParam] at h
    split at h
    · cases h
      exact at_other rfl
    · split at h
      · cases h
      · cases h
        exact at_other rfl

theorem mapM_resolveParam_at {bindings : Scope} : ∀ {params : List StepParam},
    params.mapM (resolveParam setup bindings here) = .error e → e.At here
  | [], h => by cases h
  | param :: params, h => by
    rw [List.mapM_cons] at h
    rcases hp : resolveParam setup bindings here param with e' | value
    · rw [hp] at h
      cases h
      exact resolveParam_at hp
    · rcases hpa : params.mapM (resolveParam setup bindings here) with e' | values
      · rw [hp, hpa] at h
        cases h
        exact mapM_resolveParam_at hpa
      · rw [hp, hpa] at h
        cases h

theorem exchanges_resolveParams (params : List StepParam) :
    Exchanges setup host here (resolveParams setup here params : Exec τ (List UInt32)) := by
  refine exchanges_get.bind fun c => ?_
  rcases h : params.mapM (resolveParam setup c.bindings here) with e | values
  · exact exchanges_fail (mapM_resolveParam_at h)
  · exact exchanges_pure values

/-! ### Steps -/

theorem exchanges_setProperty :
    Exchanges setup host here (setProperty setup host prop value here) := by
  unfold setProperty
  cases propertyValueWidth setup.manifest prop with
  | none => exact exchanges_fail (at_other rfl)
  | some width =>
    refine (exchanges_orFail (fun _ => at_other rfl) _).bind fun payload => ?_
    refine (exchanges_issue _ _ _ _).bind fun reply => ?_
    exact (exchanges_requireOk reply).map _

theorem exchanges_setPropertyRuntime (ifMissing : MissingRuntimeValue) :
    Exchanges setup host here (setPropertyRuntime setup host prop slot ifMissing here) := by
  unfold setPropertyRuntime
  cases setup.runtimeParams slot with
  | none =>
    cases ifMissing with
    | skip => exact exchanges_pure none
    | error => exact exchanges_fail (at_other rfl)
  | some value =>
    refine (exchanges_orFail (fun _ => at_other rfl) _).bind fun payload => ?_
    refine (exchanges_issue _ _ _ _).bind fun reply => ?_
    exact (exchanges_requireOk reply).map _

theorem exchanges_getProperty (tolerant : Bool) :
    Exchanges setup host here
      (getProperty setup host (.getProp prop captures tolerant) prop captures here) := by
  refine (exchanges_issue _ _ _ _).bind fun reply => ?_
  refine Kept.ite (fun hc => ?_) fun _ => ?_
  · rcases hv : captureFallbacks captures reply.txMeta.responseCode with _ | values
    · exact exchanges_fail (at_responseError hc)
    · refine exchanges_resume (at_responseError hc) (fun _ => ⟨List.prefix_refl _, .inr ?_⟩) ?_
      · exact ⟨rfl, rfl, reply.txMeta, rfl, by rw [hv]; rfl⟩
      · exact (exchanges_bindAll values).bind fun _ => exchanges_pure _
  · exact (exchanges_captureProperty _ _ _).bind fun _ => exchanges_pure _

theorem exchanges_echoProperty :
    Exchanges setup host here (echoProperty setup host prop captures here) := by
  refine (exchanges_issue _ _ _ _).bind fun reply => ?_
  refine (exchanges_requireOkReply reply).bind fun read => ?_
  refine (exchanges_captureProperty _ _ _).bind fun _ => ?_
  refine (exchanges_issue _ _ _ _).bind fun write => ?_
  exact (exchanges_requireOk write).map _

theorem exchanges_sendOperation (step : EntryStep) (op : UInt16) (params : List UInt32)
    (captures : List CaptureInfo) : ∀ (n : ℕ) (last : Option TxMeta),
    Exchanges setup host here (sendOperation setup host step op params captures here n last)
  | 0, last => exchanges_pure last
  | n + 1, _ => by
    refine (exchanges_issue _ _ _ _).bind fun reply => ?_
    refine Kept.ite (fun _ => ?_) fun _ => ?_
    · exact (exchanges_applyCapturesFrom _ _ _ _ _).bind fun _ =>
        exchanges_sendOperation step op params captures n _
    · exact (exchanges_requireOkOrTolerate step reply).bind fun _ =>
        exchanges_sendOperation step op params captures n _

theorem exchanges_closeFrame :
    Exchanges setup host here (closeFrame setup here : Exec τ (Option (List UInt8))) :=
  exchanges_orFail (fun _ => at_other rfl) _

theorem exchanges_openChannel (role : SocketRole) :
    Exchanges setup host here (openChannel setup host role here) := by
  refine exchanges_frameTransport.bind fun _ => ?_
  exact (exchanges_transportDeadline _ _).bind fun _ => exchanges_pure none

theorem exchanges_closeSession (step : EntryStep) (transportClose : Bool) :
    Exchanges setup host here (closeSession setup host step transportClose here) := by
  refine exchanges_frameTransport.bind fun _ => ?_
  refine (exchanges_issue _ _ _ _).bind fun reply => ?_
  refine (exchanges_requireOkOrTolerate step reply).bind fun txMeta => ?_
  have hr : ∀ frame, Exchanges setup host here (do
      transportDeadline host (.closeCommandChannel frame) defaultOpTimeoutMs here
      pure (some txMeta) : Exec τ (Option TxMeta)) := fun frame =>
    (exchanges_transportDeadline _ _).bind fun _ => exchanges_pure _
  cases transportClose with
  | true => exact exchanges_closeFrame.bind hr
  | false => exact hr none

theorem exchanges_reopenSession (step : EntryStep) :
    Exchanges setup host here (reopenSession setup host step here) := by
  refine exchanges_frameTransport.bind fun _ => ?_
  refine (exchanges_issue _ _ _ _).bind fun reply => ?_
  refine (exchanges_requireOkOrTolerate step reply).bind fun _ => ?_
  refine exchanges_closeFrame.bind fun frame => ?_
  refine (exchanges_transportDeadline _ _).bind fun _ => ?_
  refine (exchanges_transportDeadline _ _).bind fun opened => ?_
  exact (exchanges_requireOkOrTolerate step _).map _

theorem exchanges_pause (ms : UInt32) : Exchanges setup host here (pause host ms here) :=
  exchanges_transportDeadline _ _

theorem exchanges_slotU64 {error : StepError} (h : error.At here) :
    Exchanges setup host here (slotU64 slot error : Exec τ UInt64) := by
  refine exchanges_get.bind fun c => ?_
  cases (c.bindings slot).bind actionValueU64 with
  | none => exact exchanges_fail h
  | some value => exact exchanges_pure value

theorem exchanges_chunkWindow (size : ChunkSize) :
    Exchanges setup host here (chunkWindow here size : Exec τ UInt64) := by
  cases size with
  | literal value => exact exchanges_pure _
  | runtime slot => exact exchanges_slotU64 slot (at_other rfl)

/-! ### Awaits -/

theorem transportDeadline_bind_failed {r : Request} {timeoutMs : UInt32} {f : r.Reply → Exec τ α}
    {c c' : PtpCtx τ} (hf : ∀ a c₁ c₂, f a c₁ = .error (.failed e) c₂ → c₂ = c₁.record (.failed e))
    (h : (transportDeadline host r timeoutMs here >>= f) c = .error (.failed e) c') :
    ∃ answer, c'.trace = c.trace ++ [.request r answer, .failed e] := by
  obtain ⟨answer, c₁, ha, ⟨a, -, hc⟩ | ⟨e', -, hc⟩ | ⟨level, clock, -, -, hc⟩⟩ :=
    transportDeadline_cases host r timeoutMs here c
  · rw [bind_ok hc] at h
    exact ⟨answer, by simp [hf a c₁ c' h, PtpCtx.record, ha.trace]⟩
  · rw [bind_error hc] at h
    cases h
    exact ⟨answer, by simp [PtpCtx.record, ha.trace]⟩
  · rw [bind_error hc] at h
    cases h

theorem fail_failed {e' : StepError} {c c' : PtpCtx τ}
    (h : (fail e' : Exec τ α) c = .error (.failed e) c') : c' = c.record (.failed e) := by
  cases h
  rfl

/-- A wait for an event that fails has asked for the event last. -/
theorem awaitEvent_failed {code : UInt16} {c c' : PtpCtx τ}
    (h : awaitEvent setup host code here c = .error (.failed e) c') :
    ∃ r : Request, r.IsEventWait ∧
      ∃ answer, c'.trace = c.trace ++ [.request r answer, .failed e] := by
  unfold awaitEvent at h
  cases hb : setup.backend with
  | frame =>
    rw [hb] at h
    refine ⟨.nextEventFrame code, trivial, transportDeadline_bind_failed ?_ h⟩
    intro frame c₁ c₂ hr
    rcases hd : frameDecode setup.eventFraming frame with error | packet
    · rw [hd] at hr
      exact fail_failed hr
    · rw [hd, orFail, pure_bind] at hr
      cases packet with
      | event event =>
        dsimp only at hr
        split at hr
        · cases hr
        · exact fail_failed hr
      | _ => exact fail_failed hr
  | transaction =>
    rw [hb] at h
    refine ⟨.nextEvent code, trivial, transportDeadline_bind_failed ?_ h⟩
    intro event c₁ c₂ hr
    split at hr
    · cases hr
    · exact fail_failed hr

theorem exchanges_awaitPoll (polled : Option UInt16) :
    Exchanges setup host here (awaitPoll setup host here polled) := by
  cases polled with
  | none => exact exchanges_pure none
  | some prop =>
    refine (exchanges_issue _ _ _ _).bind fun reply => ?_
    refine (exchanges_requireOkReply reply).bind fun reply => ?_
    exact (exchanges_observeProperty _ _).bind fun _ => exchanges_pure _

theorem exchanges_awaitDone (last : Option (UInt16 × WireReply)) :
    Exchanges setup host here (awaitDone setup here captures last : Exec τ (Option TxMeta)) := by
  cases last with
  | none =>
    exact Kept.ite (fun _ => exchanges_pure none) fun _ => exchanges_fail (at_other rfl)
  | some last => exact (exchanges_captureProperty _ _ _).bind fun _ => exchanges_pure _

theorem exchanges_awaitFirst {source : FfiAwaitSource} {condition : Predicate}
    {onEach : List EntryStep} {captures : List CaptureInfo} {timeoutMs intervalMs : UInt32}
    {tolerant : Bool} {step : EntryStep}
    (ha : step = .awaitUntil source condition onEach captures timeoutMs intervalMs tolerant) :
    Exchanges setup host here (awaitFirst setup host step here source) := by
  cases source with
  | poll prop => exact exchanges_pure ()
  | event code thenPoll =>
    intro c
    have hev : Exchanges setup host here (awaitEvent setup host code here) :=
      exchanges_awaitEvent code
    have he := hev c
    refine attempt_bind_cases (P := fun r => Exchanged setup host here c (ending r) (final r))
      (fun _ c₁ hw => ?_) (fun e c₁ hw => ?_) fun e c₁ hw _ => ?_
    all_goals rw [hw] at he
    · exact he
    · dsimp only
      split
      case isTrue hl =>
        obtain ⟨r, hr, answer, ht⟩ := awaitEvent_failed hw
        have hres : Exchanged setup host here c none (c₁.record (.resumed step here e)) := by
          obtain ⟨added, hadded, hex, -⟩ := he.traced
          obtain rfl : [.request r answer, .failed e] = added :=
            List.append_cancel_left (ht.symm.trans hadded)
          obtain ⟨hs, hb⟩ : (Event.failed e).IsExchange here := hex _ (by simp)
          have hf : e.Founded := fun h => by simp [hl.2] at h
          have hc : Covers setup (some r) step here e := by
            rw [ha]
            exact ⟨by rw [hs], .inr ⟨hl.2, hs, hl.1, r, rfl, hr⟩⟩
          refine ⟨he.active, he.attempts, he.bound, by simp, by simp,
            [.request r answer, .failed e, .resumed step here e], by simp [PtpCtx.record, ht],
            by simp [Event.IsExchange, hs, hb], fun last => ⟨some r, ?_⟩⟩
          exact ⟨_, ⟨rfl, rfl, rfl⟩, _, ⟨rfl, hf, rfl⟩, _, ⟨rfl, hc, rfl⟩, rfl⟩
        have hre : Exchanges setup host here
          (if thenPoll.isNone then fail (.other here .thenPollRequired)
            else pure () : Exec τ PUnit) :=
          Kept.ite (fun _ => exchanges_fail (at_other rfl)) fun _ => exchanges_pure ()
        exact exchanged_composes.trans hres (hre _)
      case isFalse => exact he
    · exact he

/-! ### The end of a step -/

/-- What a step leaves of the context when it is over. -/
def settled (step : EntryStep) (n : ℕ) (c : PtpCtx τ) : PtpCtx τ :=
  { c with
    deferredTolerance := none
    controlAttempts := if stepVerb step = .retry then none else c.controlAttempts
    stepsRun := c.stepsRun + n }

/-- The attempts that the step is reported with. -/
def reportedAttempts (step : EntryStep) (c : PtpCtx τ) : ℕ :=
  if stepVerb step = .retry then c.controlAttempts.getD 0 else 0

/-- The report is one of the three that end the step. -/
def Terminal (setup : Setup) (step : EntryStep) (here : Path) (activity : Option (String × UInt32))
    (attempts : ℕ) (r : StepReport) : Prop :=
  ∃ outcome error txMeta, outcome ≠ .started ∧
    r = terminalReport setup step here activity outcome error attempts txMeta

theorem takes_deferred_attempts (step : EntryStep) (c : PtpCtx τ)
    (f : Option StepError → ℕ → Exec τ α) :
    (do let deferred ← takeDeferredTolerance
        let attempts ← takeControlAttempts step
        f deferred attempts) c =
      f c.deferredTolerance (reportedAttempts step c) (settled step 0 c) := by
  cases step <;> rfl

variable (setup : Setup) (step : EntryStep) (here : Path) (activity : Option (String × UInt32))

theorem concludeStep_ok (txMeta : Option TxMeta) (c : PtpCtx τ) : ∃ m r,
    Terminal setup step here activity (reportedAttempts step c) r ∧
    concludeStep setup step here activity (.ok txMeta) c =
      .ok m ((settled step 1 c).record (.report r)) := by
  rw [concludeStep, takes_deferred_attempts]
  cases c.deferredTolerance with
  | none => exact ⟨_, _, ⟨_, _, _, by simp, rfl⟩, rfl⟩
  | some e => exact ⟨_, _, ⟨_, _, _, by simp, rfl⟩, rfl⟩

theorem concludeStep_error (e : StepError) (c : PtpCtx τ) : ∃ r,
    Terminal setup step here activity (reportedAttempts step c) r ∧
    ((stepTolerant step = true ∧ e.cls = .response ∧
        concludeStep setup step here activity (.error e) c =
          .ok e.txMeta (((settled step 1 c).record (.resumed step here e)).record (.report r))) ∨
      concludeStep setup step here activity (.error e) c =
        .error (.failed e) ((settled step 0 c).record (.report r))) := by
  rw [concludeStep, takes_deferred_attempts]
  dsimp only
  split
  case isTrue h => exact ⟨_, ⟨_, _, _, by simp, rfl⟩, .inl ⟨h.1, h.2, rfl⟩⟩
  case isFalse => exact ⟨_, ⟨_, _, _, by simp, rfl⟩, .inr rfl⟩

/-! ### One step of the walk -/

/-- What the walk does on the top level only. -/
def onTop (topLevel : Bool) (f : PtpCtx τ → PtpCtx τ) : PtpCtx τ → PtpCtx τ :=
  if topLevel then f else id

theorem walkFrom_cons (topLevel : Bool) (step : EntryStep) (rest : List EntryStep) (path : Path)
    (index : ℕ) (last : Option TxMeta) :
    walkFrom setup host topLevel (step :: rest) path index last = (do
      modify (onTop topLevel (enterActivity setup index))
      let result ← attempt (runStep setup host step (path.step index step))
      match result with
      | .ok txMeta => do
        modify (onTop topLevel (leaveActivity index))
        walkFrom setup host topLevel rest path (index + 1) txMeta
      | .error e => do
        modify (onTop topLevel (PtpCtx.finishActivityFailure e))
        throw (.failed e)) := by
  cases topLevel with
  | true => rfl
  | false =>
    rfl

end Leaves

end Ptpsim.Executor
